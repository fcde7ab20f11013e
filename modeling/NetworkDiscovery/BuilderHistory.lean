import NetworkDiscovery.BuilderPaths
import NetworkDiscovery.Library.ActionRuns

/-! The builder after any calls of set. A value that is no object stands where the
last call has put it that could reach its path, and calls that threw are as if
they had never been made. -/

namespace NetworkDiscovery.JsonBuilder
open ActionRuns

def attemptNext (tree : Json) (call : String × Json) : Json := (attempt tree call).2

def attemptAll (calls : List (String × Json)) (tree : Json) : Json := calls.foldl attemptNext tree

def Sets (tree : Json) (call : String × Json) : Prop :=
  splitString call.1 '/' ≠ [] ∧ (attempt tree call).1 = false

/-- The call sets something on the way to the path or below it. -/
def Reaches (q : List String) (tree : Json) (call : String × Json) : Prop :=
  Sets tree call ∧ ¬Apart q (splitString call.1 '/')

theorem attemptNext_of_sets (tree : Json) (call : String × Json) (sets : Sets tree call) :
    attemptNext tree call = Json.graft call.2 (splitString call.1 '/') tree := by
  have ⟨some_part, returned⟩ := sets
  rw [attempt_eq call tree some_part] at returned
  rw [attemptNext, attempt_eq call tree some_part]
  cases stuck : Json.blocked (splitString call.1 '/') tree with
  | true => simp [stuck] at returned
  | false => rfl

theorem attemptNext_of_not_sets (tree : Json) (call : String × Json) (kept : ¬Sets tree call) :
    attemptNext tree call = tree := by
  by_cases some_part : splitString call.1 '/' = []
  · rw [attemptNext, attempt, setKey, setMultilevelKey, some_part]
    rfl
  · rw [Sets, not_and, attempt_eq call tree some_part] at kept
    rw [attemptNext, attempt_eq call tree some_part]
    cases stuck : Json.blocked (splitString call.1 '/') tree with
    | true => rfl
    | false => simp [some_part, stuck] at kept

theorem lookup_attemptNext (q : List String) (tree : Json) (call : String × Json)
    (untouched : ¬Reaches q tree call) :
    (attemptNext tree call).lookup q = tree.lookup q := by
  by_cases sets : Sets tree call
  · have apart : Apart q (splitString call.1 '/') := by
      by_contra together
      exact untouched ⟨sets, together⟩
    rw [attemptNext_of_sets tree call sets]
    exact lookup_graft_apart call.2 _ q tree apart
  · rw [attemptNext_of_not_sets tree call sets]

theorem lookup_reached (q : List String) (tree leaf : Json) (call : String × Json)
    (reaches : Reaches q tree call) (plain : ∀ members, leaf ≠ .object members) :
    (attemptNext tree call).lookup q = some leaf ↔
      ∃ r, q = splitString call.1 '/' ++ r ∧ call.2.lookup r = some leaf := by
  have ⟨sets, together⟩ := reaches
  rw [attemptNext_of_sets tree call sets]
  generalize splitString call.1 '/' = p at together ⊢
  by_cases below : p <+: q
  · obtain ⟨r, rfl⟩ := below
    rw [lookup_graft_below]
    constructor
    · exact fun own => ⟨r, rfl, own⟩
    · rintro ⟨r', same, own⟩
      rwa [List.append_cancel_left same]
  · have above : q <+: p := by
      by_contra beside
      exact together ⟨beside, below⟩
    obtain ⟨r, rfl⟩ := above
    cases r with
    | nil => simp at below
    | cons part r =>
      have ⟨members, found⟩ := lookup_graft_above call.2 q r part tree
      rw [found]
      constructor
      · exact fun same => absurd (Option.some.inj same).symm (plain members)
      · rintro ⟨r', same, _⟩
        exact absurd ⟨r', same.symm⟩ below

theorem lookup_attemptAll_iff (calls : List (String × Json)) (q : List String) (leaf : Json)
    (some_part : q ≠ []) (plain : ∀ members, leaf ≠ .object members) :
    (attemptAll calls .null).lookup q = some leaf ↔
      ∃ before key value after r, calls = before ++ (key, value) :: after ∧
        Sets (attemptAll before .null) (key, value) ∧ q = splitString key '/' ++ r ∧
        value.lookup r = some leaf ∧
        Along attemptNext (fun tree call => Sets tree call → Apart q (splitString call.1 '/'))
          (attemptAll (before ++ [(key, value)]) .null) after := by
  have none : Json.null.lookup q ≠ some leaf := by
    cases q with
    | nil => exact absurd rfl some_part
    | cons part q => exact nofun
  have apart (tree : Json) (call : String × Json) :
      ¬Reaches q tree call ↔ (Sets tree call → Apart q (splitString call.1 '/')) := by
    rw [Reaches, not_and, not_not]
  have decided := seen_iff attemptNext (fun tree => tree.lookup q) (Reaches q)
    (lookup_attemptNext q) .null calls (some leaf)
  simp only [apart, none, and_false, false_or] at decided
  refine decided.trans ⟨?_, ?_⟩
  · rintro ⟨before, ⟨key, value⟩, after, split, reaches, own, along⟩
    have ⟨r, path, set⟩ := (lookup_reached q _ leaf _ reaches plain).mp own
    refine ⟨before, key, value, after, r, split, reaches.1, path, set, ?_⟩
    rwa [attemptAll, List.foldl_concat]
  · rintro ⟨before, key, value, after, r, split, sets, path, set, along⟩
    have together : ¬Apart q (splitString key '/') := fun beside => beside.2 ⟨r, path.symm⟩
    have own := (lookup_reached q _ leaf _ ⟨sets, together⟩ plain).mpr ⟨r, path, set⟩
    refine ⟨before, (key, value), after, split, ⟨sets, together⟩, own, ?_⟩
    rwa [attemptAll, List.foldl_concat] at along

def sampleCalls : List (String × Json) :=
  [("connection/game", .string "localhost"), ("connection", .numberInteger 7),
    ("connection/port", .numberInteger 1), ("name", .string "db")]

theorem lookup_attemptAll_sample : ∃ before key value after r,
    sampleCalls = before ++ (key, value) :: after ∧
      Sets (attemptAll before .null) (key, value) ∧ ["connection"] = splitString key '/' ++ r ∧
      value.lookup r = some (.numberInteger 7) ∧
      Along attemptNext
        (fun tree call => Sets tree call → Apart ["connection"] (splitString call.1 '/'))
        (attemptAll (before ++ [(key, value)]) .null) after :=
  (lookup_attemptAll_iff sampleCalls ["connection"] (.numberInteger 7) (List.cons_ne_nil _ _)
    nofun).mp rfl

end NetworkDiscovery.JsonBuilder

import Mathlib.Data.List.Pairwise
import Mathlib.Order.Comparable
import NetworkDiscovery.JsonBuilder

/-! The builder seen path by path: a call of set changes what its own path
leads to and nothing else, throws exactly where a value stands in its way, and
does not depend on the order of calls whose paths lead apart. -/

namespace NetworkDiscovery

namespace Json

def lookup : Json → List String → Option Json
  | tree, [] => some tree
  | object members, part :: rest => (members.lookup part).bind fun element => element.lookup rest
  | _, _ :: _ => none

theorem lookup_cons (tree : Json) (part : String) (rest : List String) :
    tree.lookup (part :: rest) =
      (tree.levelMembers.lookup part).bind fun element => element.lookup rest := by
  cases tree <;> rfl

theorem lookup_empty (q : List String) (some_part : q ≠ []) : (object []).lookup q = none := by
  cases q with
  | nil => exact absurd rfl some_part
  | cons part rest => rfl

theorem lookup_child (part : String) (tree : Json) (q : List String) (some_part : q ≠ []) :
    (tree.child part).lookup q = tree.lookup (part :: q) := by
  rw [lookup_cons, child]
  cases tree.levelMembers.lookup part with
  | none => exact lookup_empty q some_part
  | some element => rfl

end Json

namespace JsonBuilder
open OrderedMembers (store)

def Apart (p q : List String) : Prop := IncompRel (· <+: ·) p q

instance (p q : List String) : Decidable (Apart p q) :=
  inferInstanceAs (Decidable (¬ p <+: q ∧ ¬ q <+: p))

theorem Apart.symm {p q : List String} (apart : Apart p q) : Apart q p := ⟨apart.2, apart.1⟩

theorem Apart.ne_nil {p q : List String} (apart : Apart p q) : p ≠ [] := by
  rintro rfl
  exact apart.1 List.nil_prefix

theorem apart_cons (part k : String) (p q : List String) :
    Apart (part :: p) (k :: q) ↔ part = k → Apart p q := by
  simp only [Apart, IncompRel, List.cons_prefix_cons]
  constructor
  · rintro ⟨first, second⟩ same
    exact ⟨fun inside => first ⟨same, inside⟩, fun inside => second ⟨same.symm, inside⟩⟩
  · intro apart
    exact ⟨fun inside => (apart inside.1).1 inside.2,
      fun inside => (apart inside.1.symm).2 inside.2⟩

theorem graft_levelMembers (value : Json) (part : String) (rest : List String) (tree : Json) :
    (Json.graft value (part :: rest) tree).levelMembers =
      store part (Json.graft value rest (tree.child part)) tree.levelMembers := rfl

theorem child_graft_self (value : Json) (part : String) (rest : List String) (tree : Json) :
    (Json.graft value (part :: rest) tree).child part = Json.graft value rest (tree.child part) := by
  rw [Json.child, graft_levelMembers, OrderedMembers.lookup_store_self, Option.getD_some]

theorem child_graft_ne (value : Json) (part k : String) (rest : List String) (tree : Json)
    (ne : k ≠ part) : (Json.graft value (part :: rest) tree).child k = tree.child k := by
  rw [Json.child, graft_levelMembers, OrderedMembers.lookup_store_ne k part _ _ ne, Json.child]

/-! ### What a path leads to -/

theorem lookup_graft_below (value : Json) (p r : List String) (tree : Json) :
    (Json.graft value p tree).lookup (p ++ r) = value.lookup r := by
  induction p generalizing tree with
  | nil => rfl
  | cons part rest ih =>
    rw [List.cons_append, Json.lookup_cons, graft_levelMembers, OrderedMembers.lookup_store_self,
      Option.bind_some, ih]

theorem lookup_graft_apart (value : Json) (p q : List String) (tree : Json) (apart : Apart q p) :
    (Json.graft value p tree).lookup q = tree.lookup q := by
  induction p generalizing q tree with
  | nil => exact absurd rfl apart.symm.ne_nil
  | cons part rest ih =>
    cases q with
    | nil => exact absurd rfl apart.ne_nil
    | cons k q =>
      by_cases same : k = part
      · subst same
        have deeper := (apart_cons k k q rest).mp apart rfl
        rw [← Json.lookup_child k _ q deeper.ne_nil, child_graft_self, ih q _ deeper,
          Json.lookup_child k tree q deeper.ne_nil]
      · rw [Json.lookup_cons, graft_levelMembers, OrderedMembers.lookup_store_ne k part _ _ same,
          ← Json.lookup_cons]

theorem lookup_graft_above (value : Json) (q r : List String) (part : String) (tree : Json) :
    ∃ members, (Json.graft value (q ++ part :: r) tree).lookup q = some (.object members) := by
  induction q generalizing tree with
  | nil => exact ⟨_, rfl⟩
  | cons k q ih =>
    obtain ⟨members, found⟩ := ih (tree.child k)
    refine ⟨members, ?_⟩
    rw [List.cons_append, Json.lookup_cons, graft_levelMembers, OrderedMembers.lookup_store_self,
      Option.bind_some, found]

theorem setKey_run (key : String) (value tree : Json) (some_part : splitString key '/' ≠ []) :
    (setKey key value).run tree =
      if Json.blocked (splitString key '/') tree then .error .typeError tree
      else .ok () (Json.graft value (splitString key '/') tree) :=
  setFrom_run value _ some_part tree

def SetsAt (value tree tree' : Json) (p : List String) : Prop :=
  (∀ q, Apart q p → tree'.lookup q = tree.lookup q) ∧
  (∀ r, tree'.lookup (p ++ r) = value.lookup r) ∧
  ∀ q, q <+: p → q ≠ p → ∃ members, tree'.lookup q = some (.object members)

theorem setKey_setsAt (key : String) (value tree tree' : Json)
    (some_part : splitString key '/' ≠ [])
    (returned : (setKey key value).run tree = .ok () tree') :
    SetsAt value tree tree' (splitString key '/') := by
  rw [setKey_run key value tree some_part] at returned
  generalize splitString key '/' = p at returned ⊢
  cases stuck : Json.blocked p tree with
  | true => simp [stuck] at returned
  | false =>
    simp only [stuck, Bool.false_eq_true, if_false, EStateM.Result.ok.injEq, true_and] at returned
    rw [← returned]
    refine ⟨fun q apart => lookup_graft_apart value p q tree apart,
      fun r => lookup_graft_below value p r tree, fun q ⟨r, whole⟩ proper => ?_⟩
    cases r with
    | nil => exact absurd (by simpa using whole) proper
    | cons part r =>
      rw [← whole]
      exact lookup_graft_above value q r part tree

def sampleTree : Json := .object [("connection", .null), ("name", .string "db")]

def sampleGame : Json :=
  .object [("connection", .object [("game", .string "localhost")]), ("name", .string "db")]

theorem setKey_setsAt_game :
    SetsAt (.string "localhost") sampleTree sampleGame (splitString "connection/game" '/') :=
  setKey_setsAt "connection/game" (.string "localhost") sampleTree sampleGame (by decide) rfl

/-! ### Where a call throws -/

/-- Neither an object nor null: nothing can be set below it. -/
def Json.IsLeaf (tree : Json) : Prop := tree ≠ .null ∧ ∀ members, tree ≠ .object members

theorem isLeaf_iff (tree : Json) : Json.IsLeaf tree ↔ tree.isLevel = false := by
  cases tree <;> simp [Json.IsLeaf, Json.isLevel]

theorem child_of_lookup (part : String) (tree element : Json)
    (found : tree.levelMembers.lookup part = some element) : tree.child part = element := by
  rw [Json.child, found, Option.getD_some]

theorem blocked_iff (p : List String) (tree : Json) :
    Json.blocked p tree = true ↔
      ∃ q, q <+: p ∧ q ≠ p ∧ ∃ found, tree.lookup q = some found ∧ Json.IsLeaf found := by
  induction p generalizing tree with
  | nil =>
    refine iff_of_false nofun fun ⟨q, before, proper, _⟩ => proper ?_
    exact List.prefix_nil.mp before
  | cons part rest ih =>
    rw [Json.blocked_cons, Bool.or_eq_true, Bool.not_eq_true', ih]
    constructor
    · rintro (leaf | ⟨q, before, proper, found, leads, leaf⟩)
      · exact ⟨[], List.nil_prefix, nofun, tree, rfl, (isLeaf_iff tree).mpr leaf⟩
      · cases present : tree.levelMembers.lookup part with
        | none =>
          have fresh : tree.child part = .object [] := by rw [Json.child, present, Option.getD_none]
          have stuck := (ih (tree.child part)).mpr ⟨q, before, proper, found, leads, leaf⟩
          rw [fresh, Json.blocked_empty] at stuck
          cases stuck
        | some element =>
          rw [child_of_lookup part tree element present] at leads
          refine ⟨part :: q, List.cons_prefix_cons.mpr ⟨rfl, before⟩, ?_, found, ?_, leaf⟩
          · exact fun same => proper (List.cons.inj same).2
          · rw [Json.lookup_cons, present, Option.bind_some, leads]
    · rintro ⟨q, before, proper, found, leads, leaf⟩
      cases q with
      | nil =>
        obtain rfl : tree = found := Option.some.inj leads
        exact .inl ((isLeaf_iff tree).mp leaf)
      | cons k q =>
        obtain ⟨rfl, inside⟩ := List.cons_prefix_cons.mp before
        rw [Json.lookup_cons, Option.bind_eq_some_iff] at leads
        obtain ⟨element, present, leads⟩ := leads
        rw [child_of_lookup k tree element present]
        exact .inr ⟨q, inside, fun same => proper (by rw [same]), found, leads, leaf⟩

theorem setKey_throws_iff (key : String) (value tree : Json) :
    ((∃ e left, (setKey key value).run tree = .error e left) ↔
      ∃ q, q <+: splitString key '/' ∧ q ≠ splitString key '/' ∧
        ∃ found, tree.lookup q = some found ∧ Json.IsLeaf found) ∧
    ∀ e left, (setKey key value).run tree = .error e left → e = .typeError ∧ left = tree := by
  rw [← blocked_iff]
  by_cases some_part : splitString key '/' = []
  · have returns : (setKey key value).run tree = .ok () tree := by
      rw [setKey, setMultilevelKey, some_part]
      rfl
    simp [returns, some_part, Json.blocked]
  · rw [setKey_run key value tree some_part]
    cases stuck : Json.blocked (splitString key '/') tree with
    | false => simp
    | true =>
      refine ⟨iff_of_true ⟨_, _, rfl⟩ rfl, fun e left threw => ?_⟩
      obtain ⟨rfl, rfl⟩ := EStateM.Result.error.inj threw
      exact ⟨rfl, rfl⟩

/-! ### Order of the calls -/

/-- A call whose exception the caller catches: whether it threw, and the tree afterwards. -/
def attempt (tree : Json) (call : String × Json) : Bool × Json :=
  match (setKey call.1 call.2).run tree with
  | .ok _ left => (false, left)
  | .error _ left => (true, left)

def setAll (calls : List (String × Json)) : JsonCall :=
  calls.forM fun call => setKey call.1 call.2

def builtText (lib : Nlohmann) (calls : List (String × Json)) : Except CppException String :=
  match (setAll calls).run .null with
  | .ok _ tree => toJson lib tree
  | .error e _ => .error e

def CallsApart (a b : String × Json) : Prop :=
  Apart (splitString a.1 '/') (splitString b.1 '/')

instance : Std.Symm CallsApart := ⟨fun _ _ => Apart.symm⟩

theorem blocked_graft (value : Json) (p q : List String) (tree : Json) (apart : Apart p q)
    (open_walk : Json.blocked q tree = false) :
    Json.blocked p (Json.graft value q tree) = Json.blocked p tree := by
  induction q generalizing p tree with
  | nil => exact absurd rfl apart.symm.ne_nil
  | cons k q ih =>
    cases p with
    | nil => exact absurd rfl apart.ne_nil
    | cons part p =>
      rw [Json.blocked_cons, Bool.or_eq_false_iff, Bool.not_eq_false'] at open_walk
      obtain ⟨level, open_below⟩ := open_walk
      rw [Json.blocked_cons part p tree, level, Json.blocked_cons part p (Json.graft _ _ _)]
      show Json.blocked p _ = Json.blocked p _
      by_cases same : part = k
      · subst same
        rw [child_graft_self]
        exact ih p _ ((apart_cons part part p q).mp apart rfl) open_below
      · rw [child_graft_ne value k part q tree same]

theorem graft_comm (v w : Json) (p q : List String) (tree : Json) (apart : Apart p q) :
    Json.graft v p (Json.graft w q tree) = Json.graft w q (Json.graft v p tree) := by
  induction p generalizing q tree with
  | nil => exact absurd rfl apart.ne_nil
  | cons part p ih =>
    cases q with
    | nil => exact absurd rfl apart.symm.ne_nil
    | cons k q =>
      rw [Json.graft_cons v part p (Json.graft _ _ _), Json.graft_cons w k q (Json.graft _ _ _),
        graft_levelMembers, graft_levelMembers]
      by_cases same : part = k
      · subst same
        rw [child_graft_self, child_graft_self, OrderedMembers.store_store_self,
          OrderedMembers.store_store_self, ih q _ ((apart_cons part part p q).mp apart rfl)]
      · rw [child_graft_ne w k part q tree same, child_graft_ne v part k p tree (Ne.symm same),
          OrderedMembers.store_comm part k _ _ _ same]

theorem attempt_eq (call : String × Json) (tree : Json) (some_part : splitString call.1 '/' ≠ []) :
    attempt tree call =
      if Json.blocked (splitString call.1 '/') tree then (true, tree)
      else (false, Json.graft call.2 (splitString call.1 '/') tree) := by
  rw [attempt, setKey_run call.1 call.2 tree some_part]
  cases Json.blocked (splitString call.1 '/') tree <;> rfl

theorem attempt_null (call : String × Json) : (attempt .null call).1 = false := by
  by_cases some_part : splitString call.1 '/' = []
  · rw [attempt, setKey, setMultilevelKey, some_part]
    rfl
  · rw [attempt_eq call .null some_part, Json.blocked_null]
    rfl

theorem attempts_commute (tree : Json) (a b : String × Json) (apart : CallsApart a b) :
    (attempt (attempt tree b).2 a).1 = (attempt tree a).1 ∧
    (attempt (attempt tree a).2 b).1 = (attempt tree b).1 ∧
    (attempt (attempt tree a).2 b).2 = (attempt (attempt tree b).2 a).2 := by
  simp only [attempt_eq a _ apart.ne_nil, attempt_eq b _ apart.symm.ne_nil]
  cases stuckA : Json.blocked (splitString a.1 '/') tree with
  | true =>
    cases stuckB : Json.blocked (splitString b.1 '/') tree with
    | true => simp [stuckA, stuckB]
    | false => simp [stuckB, blocked_graft b.2 _ _ tree apart stuckB, stuckA]
  | false =>
    cases stuckB : Json.blocked (splitString b.1 '/') tree with
    | true => simp [stuckA, blocked_graft a.2 _ _ tree apart.symm stuckA, stuckB]
    | false =>
      simp [blocked_graft a.2 _ _ tree apart.symm stuckA, stuckB,
        blocked_graft b.2 _ _ tree apart stuckB, stuckA, graft_comm a.2 b.2 _ _ tree apart]

theorem setAll_run (calls : List (String × Json)) (tree : Json)
    (returns : ∀ call ∈ calls, (attempt tree call).1 = false)
    (apart : calls.Pairwise CallsApart) :
    (setAll calls).run tree = .ok () (calls.foldl (fun tree call => (attempt tree call).2) tree) := by
  induction calls generalizing tree with
  | nil => rfl
  | cons call rest ih =>
    have ⟨fromCall, later⟩ := List.pairwise_cons.mp apart
    have first := returns call List.mem_cons_self
    have next : ∀ other ∈ rest, (attempt (attempt tree call).2 other).1 = false := by
      intro other member
      rw [(attempts_commute tree call other (fromCall other member)).2.1]
      exact returns other (List.mem_cons_of_mem call member)
    have returned : (setKey call.1 call.2).run tree = .ok () (attempt tree call).2 := by
      cases result : (setKey call.1 call.2).run tree with
      | ok _ left => rw [attempt, result]
      | error e left =>
        rw [attempt, result] at first
        cases first
    have turn : setAll (call :: rest) = (do setKey call.1 call.2; setAll rest) := rfl
    rw [turn, EStateM.run_bind, returned]
    exact ih (attempt tree call).2 next later

/-- Calls whose paths lead apart may be made in any order: two of them on any
tree, caught if they throw, and any number of them on a fresh builder. -/
theorem set_order (lib : Nlohmann) :
    (∀ tree a b, CallsApart a b →
      (attempt (attempt tree b).2 a).1 = (attempt tree a).1 ∧
      (attempt (attempt tree a).2 b).1 = (attempt tree b).1 ∧
      (attempt (attempt tree a).2 b).2 = (attempt (attempt tree b).2 a).2) ∧
    ∀ calls calls' : List (String × Json), calls.Pairwise CallsApart → calls'.Perm calls →
      (∃ tree, (setAll calls').run .null = .ok () tree) ∧
      builtText lib calls' = builtText lib calls := by
  refine ⟨attempts_commute, fun calls calls' apart reordered => ?_⟩
  have apart' : calls'.Pairwise CallsApart := reordered.symm.pairwise apart Apart.symm
  have first := setAll_run calls .null (fun call _ => attempt_null call) apart
  have second := setAll_run calls' .null (fun call _ => attempt_null call) apart'
  have swap : ∀ a ∈ calls', ∀ b ∈ calls', ∀ tree,
      (attempt (attempt tree a).2 b).2 = (attempt (attempt tree b).2 a).2 := by
    intro a inA b inB tree
    by_cases equal : a = b
    · rw [equal]
    · exact (attempts_commute tree a b (apart'.forall inA inB equal)).2.2
  have same : calls'.foldl (fun tree call => (attempt tree call).2) Json.null =
      calls.foldl (fun tree call => (attempt tree call).2) Json.null :=
    reordered.foldl_eq' swap Json.null
  exact ⟨⟨_, second⟩, by rw [builtText, builtText, second, first, same]⟩

end JsonBuilder

end NetworkDiscovery

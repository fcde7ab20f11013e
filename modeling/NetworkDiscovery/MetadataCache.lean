import NetworkDiscovery.Library.ActionRuns
import NetworkDiscovery.ServiceDiscoveryRecord

/-! The lazily parsed metadata under concurrent calls. get_metadata_json makes
four atomic steps, of which only the parse holds the mutex, and update_metadata
is one atomic step. The cache is coherent in every interleaving, yet a call may
throw or return null when an update comes between its unlocked steps. -/

namespace NetworkDiscovery.MetadataCache
open ServiceDiscoveryRecord ActionRuns

/-- The next step of a call of `get_metadata_json`, or how it ended. -/
inductive Place
  | testEmpty
  | testCache
  | parse
  | readCache
  | returned (result : Option Json)
  | threw

def Place.Ended : Place → Prop
  | .returned _ | .threw => True
  | _ => False

structure Shared (ι : Type) where
  record : ServiceDiscoveryRecord
  calls : ι → Place

inductive Action (ι : Type)
  | update (metadata : String)
  | call (i : ι)
  deriving DecidableEq

/-- One step of a call; the parse and its store are one section under the mutex. -/
def callStep (lib : Nlohmann) (record : ServiceDiscoveryRecord) :
    Place → Option (ServiceDiscoveryRecord × Place)
  | .testEmpty => some (record, if record.metadata.isEmpty then .returned none else .testCache)
  | .testCache => some (record, if record.metadataJson.isNone then .parse else .readCache)
  | .parse =>
    match lib.parse record.metadata with
    | some parsed => some ({ record with metadataJson := some parsed }, .readCache)
    | none => some (record, .threw)
  | .readCache => some (record, .returned record.metadataJson)
  | .returned _ => none
  | .threw => none

section
variable {ι : Type} [DecidableEq ι] (lib : Nlohmann)

def step (s : Shared ι) : Action ι → Option (Shared ι)
  | .update metadata => some { s with record := s.record.updateMetadata metadata }
  | .call i => (callStep lib s.record (s.calls i)).map fun (record, place) =>
      ⟨record, Function.update s.calls i place⟩

def entered (record : ServiceDiscoveryRecord) : Shared ι := ⟨record, fun _ => .testEmpty⟩

def Coherent (record : ServiceDiscoveryRecord) : Prop :=
  record.metadataJson = none ∨ record.metadataJson = lib.parse record.metadata

theorem callStep_record (record record' : ServiceDiscoveryRecord) (place place' : Place)
    (taken : callStep lib record place = some (record', place')) :
    record' = record ∨ ∃ parsed, lib.parse record.metadata = some parsed ∧
      place = .parse ∧ place' = .readCache ∧ record' = { record with metadataJson := some parsed } := by
  cases place with
  | parse =>
    cases parsed : lib.parse record.metadata with
    | none =>
      simp only [callStep, parsed, Option.some.injEq, Prod.mk.injEq] at taken
      exact .inl taken.1.symm
    | some json =>
      simp only [callStep, parsed, Option.some.injEq, Prod.mk.injEq] at taken
      exact .inr ⟨json, rfl, rfl, taken.2.symm, taken.1.symm⟩
  | returned result => cases taken
  | threw => cases taken
  | _ => exact .inl (Prod.mk.inj (Option.some.inj taken)).1.symm

theorem callStep_ready (record record' : ServiceDiscoveryRecord) (place : Place)
    (taken : callStep lib record place = some (record', .readCache)) :
    record'.metadataJson ≠ none := by
  cases place with
  | testEmpty => by_cases empty : record.metadata.isEmpty <;> simp [callStep, empty] at taken
  | testCache =>
    by_cases absent : record.metadataJson.isNone
    · simp [callStep, absent] at taken
    · simp only [callStep, absent] at taken
      rw [← (Prod.mk.inj (Option.some.inj taken)).1]
      simpa using absent
  | parse =>
    cases parsed : lib.parse record.metadata with
    | none => simp [callStep, parsed] at taken
    | some json =>
      simp only [callStep, parsed] at taken
      rw [← (Prod.mk.inj (Option.some.inj taken)).1]
      exact Option.some_ne_none json
  | _ => simp [callStep] at taken

theorem callStep_ended (record record' : ServiceDiscoveryRecord) (place place' : Place)
    (taken : callStep lib record place = some (record', place')) (ended : place'.Ended) :
    record' = record ∧
      (place = .testEmpty ∧ record.metadata = "" ∧ place' = .returned none ∨
      place = .parse ∧ lib.parse record.metadata = none ∧ place' = .threw ∨
      place = .readCache ∧ place' = .returned record.metadataJson) := by
  cases place with
  | testEmpty =>
    obtain ⟨rfl, rfl⟩ := Prod.mk.inj (Option.some.inj taken)
    split_ifs at ended ⊢ with empty
    · exact ⟨rfl, .inl ⟨rfl, String.isEmpty_iff.mp empty, rfl⟩⟩
    · cases ended
  | testCache =>
    obtain ⟨rfl, rfl⟩ := Prod.mk.inj (Option.some.inj taken)
    split_ifs at ended <;> cases ended
  | parse =>
    rw [callStep] at taken
    cases parsed : lib.parse record.metadata with
    | none =>
      rw [parsed] at taken
      obtain ⟨rfl, rfl⟩ := Prod.mk.inj (Option.some.inj taken)
      exact ⟨rfl, .inr (.inl ⟨rfl, rfl, rfl⟩)⟩
    | some json =>
      rw [parsed] at taken
      obtain ⟨rfl, rfl⟩ := Prod.mk.inj (Option.some.inj taken)
      cases ended
  | readCache =>
    obtain ⟨rfl, rfl⟩ := Prod.mk.inj (Option.some.inj taken)
    exact ⟨rfl, .inr (.inr ⟨rfl, rfl⟩)⟩
  | _ => cases taken

theorem step_call (s s' : Shared ι) (i : ι) (taken : step lib s (.call i) = some s') :
    ∃ record place, callStep lib s.record (s.calls i) = some (record, place) ∧
      s' = ⟨record, Function.update s.calls i place⟩ := by
  obtain ⟨⟨record, place⟩, made, rfl⟩ := Option.map_eq_some_iff.mp taken
  exact ⟨record, place, made, rfl⟩

theorem coherent_step (s s' : Shared ι) (a : Action ι) (coherent : Coherent lib s.record)
    (taken : step lib s a = some s') : Coherent lib s'.record := by
  cases a with
  | update metadata =>
    rw [← Option.some.inj taken]
    exact .inl rfl
  | call i =>
    obtain ⟨record, place, made, rfl⟩ := step_call lib s s' i taken
    rcases callStep_record lib _ _ _ _ made with same | ⟨parsed, parses, -, -, stored⟩
    · exact same ▸ coherent
    · rw [stored]
      exact .inr parses.symm

theorem coherent_run (record : ServiceDiscoveryRecord) (coherent : Coherent lib record)
    (actions : List (Action ι)) (s : Shared ι)
    (ran : run (step lib) (entered record) actions = some s) : Coherent lib s.record := by
  refine run_induction (step lib) ?_ ?_ actions s ran
  · exact coherent
  · exact fun _ t a t' _ ih taken => coherent_step lib t t' a ih taken

theorem step_threw (s s' : Shared ι) (i : ι) (taken : step lib s (.call i) = some s')
    (threw : s'.calls i = .threw) :
    s.calls i = .parse ∧ lib.parse s.record.metadata = none ∧ s'.record = s.record := by
  obtain ⟨record, place, made, rfl⟩ := step_call lib s s' i taken
  obtain rfl : place = .threw := by simpa using threw
  obtain ⟨same, ⟨-, -, other⟩ | ⟨parsing, refused, -⟩ | ⟨-, other⟩⟩ :=
    callStep_ended lib _ _ _ _ made trivial
  · cases other
  · exact ⟨parsing, refused, same⟩
  · cases other

theorem coherent_of_reachable (record : ServiceDiscoveryRecord) (reachable : Reachable record) :
    Coherent lib record := by
  induction reachable with
  | create => exact .inl rfl
  | updateHeartbeat _ _ _ ih => exact ih
  | updateMetadata => exact .inl rfl

end

/-! ### One call beside the updates -/

section
variable (lib : Nlohmann)

def Action.text? : Action Unit → Option String
  | .update metadata => some metadata
  | .call _ => none

def held (record : ServiceDiscoveryRecord) (actions : List (Action Unit)) : List String :=
  record.metadata :: actions.filterMap Action.text?

/-- What a caller may expect of an ended call: no exception, null only for
metadata that was empty, and otherwise the parse of metadata that was there. -/
def Honoured (texts : List String) : Place → Prop
  | .returned none => "" ∈ texts
  | .returned (some json) => ∃ text ∈ texts, lib.parse text = some json
  | .threw => False
  | _ => True

/-- The call never parses empty metadata, and no update comes between its last
step and the read of the cached pointer unless some metadata was empty. -/
structure Undisturbed (record : ServiceDiscoveryRecord) (actions : List (Action Unit)) : Prop where
  parses : Throughout (step lib)
    (fun t a => a = .call () → t.calls () = .parse → t.record.metadata ≠ "")
    (entered record) (actions ++ [.call ()])
  reads : ∀ t, run (step lib) (entered record) actions = some t → t.calls () = .readCache →
    actions.getLast? = some (.call ()) ∨ "" ∈ held record actions

theorem held_of_run (record : ServiceDiscoveryRecord) (actions : List (Action Unit))
    (s : Shared Unit) (ran : run (step lib) (entered record) actions = some s) :
    s.record.metadata ∈ held record actions := by
  refine run_induction (step lib) ?_ ?_ actions s ran
  · exact List.mem_cons_self
  · intro actions t a t' _ ih taken
    have kept : held record actions ⊆ held record (actions ++ [a]) := by
      rw [held, held, List.filterMap_append]
      exact List.cons_subset_cons _ (List.subset_append_left _ _)
    cases a with
    | update metadata =>
      rw [← Option.some.inj taken]
      simp [held, updateMetadata, Action.text?]
    | call i =>
      obtain ⟨record', place, made, rfl⟩ := step_call lib t t' i taken
      rcases callStep_record lib _ _ _ _ made with same | ⟨parsed, -, -, -, stored⟩
      · exact kept (same ▸ ih)
      · rw [stored]
        exact kept ih

theorem cached_iff_own (record : ServiceDiscoveryRecord) (actions : List (Action Unit))
    (s : Shared Unit) (ran : run (step lib) (entered record) actions = some s)
    (ready : s.calls () = .readCache) :
    s.record.metadataJson ≠ none ↔ actions.getLast? = some (.call ()) := by
  revert ready
  refine run_induction (step lib) ?_ ?_ actions s ran
  · simp [entered]
  · intro actions t a t' _ _ taken ready
    rw [List.getLast?_concat]
    cases a with
    | update metadata =>
      rw [← Option.some.inj taken]
      simp [updateMetadata]
    | call i =>
      obtain ⟨record', place, made, rfl⟩ := step_call lib t t' i taken
      obtain rfl : place = .readCache := by simpa using ready
      exact iff_of_true (callStep_ready lib _ _ _ made) rfl

theorem threw_stays (s t : Shared Unit) (actions : List (Action Unit))
    (threw : s.calls () = .threw) (ran : run (step lib) s actions = some t) :
    t.calls () = .threw := by
  refine run_induction (step lib) ?_ ?_ actions t ran
  · exact threw
  · intro _ u a u' _ ih taken
    cases a with
    | update metadata =>
      rw [← Option.some.inj taken]
      exact ih
    | call i =>
      obtain ⟨record, place, made, -⟩ := step_call lib u u' i taken
      rw [ih] at made
      cases made

theorem threw_iff (record : ServiceDiscoveryRecord) (actions : List (Action Unit)) (s : Shared Unit)
    (empty : lib.parse "" = none)
    (valid : ∀ text ∈ held record actions, text = "" ∨ (lib.parse text).isSome)
    (ran : run (step lib) (entered record) (actions ++ [.call ()]) = some s) :
    s.calls () ≠ .threw ↔ Throughout (step lib)
      (fun t a => a = .call () → t.calls () = .parse → t.record.metadata ≠ "")
      (entered record) (actions ++ [.call ()]) := by
  constructor
  · intro returned before a after t split reached own parsing cleared
    rw [split] at ran
    obtain ⟨u, v, first, taken, last⟩ := run_split (step lib) (entered record) s before after a ran
    obtain rfl : u = t := Option.some.inj (first.symm.trans reached)
    rw [own, step, parsing, callStep, cleared, empty] at taken
    have threw : v.calls () = .threw := by
      rw [← Option.some.inj taken]
      simp
    exact returned (threw_stays lib v s after threw last)
  · intro parses threw
    rw [run_concat, Option.bind_eq_some_iff] at ran
    obtain ⟨t, reached, taken⟩ := ran
    obtain ⟨parsing, refused, -⟩ := step_threw lib t s () taken threw
    rcases valid _ (held_of_run lib record actions t reached) with cleared | parsed
    · exact parses actions (.call ()) [] t rfl reached rfl parsing cleared
    · rw [refused] at parsed
      cases parsed

theorem honoured_iff_undisturbed (record : ServiceDiscoveryRecord) (actions : List (Action Unit))
    (s : Shared Unit) (coherent : Coherent lib record) (empty : lib.parse "" = none)
    (valid : ∀ text ∈ held record actions, text = "" ∨ (lib.parse text).isSome)
    (ran : run (step lib) (entered record) (actions ++ [.call ()]) = some s)
    (ended : (s.calls ()).Ended) :
    Honoured lib (held record actions) (s.calls ()) ↔ Undisturbed lib record actions := by
  have throws := threw_iff lib record actions s empty valid ran
  rw [run_concat, Option.bind_eq_some_iff] at ran
  obtain ⟨t, reached, taken⟩ := ran
  have present := held_of_run lib record actions t reached
  have coherentThen := coherent_run lib record coherent actions t reached
  obtain ⟨record', place, made, rfl⟩ := step_call lib t s () taken
  simp only [Function.update_self] at throws ended ⊢
  -- the last step of the call is the test of the metadata, a parse that fails or the read
  obtain ⟨-, ⟨-, cleared, rfl⟩ | ⟨-, -, rfl⟩ | ⟨reading, rfl⟩⟩ :=
    callStep_ended lib _ _ _ _ made ended
  · have none_there : "" ∈ held record actions := cleared ▸ present
    exact iff_of_true none_there ⟨throws.mp nofun, fun _ _ _ => .inr none_there⟩
  · exact iff_of_false id fun calm => throws.mpr calm.parses rfl
  · have own := cached_iff_own lib record actions t reached reading
    cases cache : t.record.metadataJson with
    | none =>
      have others : actions.getLast? ≠ some (.call ()) := fun last => own.mpr last cache
      constructor
      · exact fun cleared => ⟨throws.mp nofun, fun _ _ _ => .inr cleared⟩
      · exact fun calm => (calm.reads t reached reading).resolve_left others
    | some json =>
      have parses : lib.parse t.record.metadata = some json := by
        rcases coherentThen with absent | equal
        · rw [absent] at cache
          cases cache
        · rw [← equal, cache]
      have last := own.mp (by simp [cache])
      exact iff_of_true ⟨_, present, parses⟩ ⟨throws.mp nofun, fun _ _ _ => .inl last⟩

def outcome : EStateM.Result CppException ServiceDiscoveryRecord (Option Json) → Shared Unit
  | .ok result left => ⟨left, fun _ => .returned result⟩
  | .error _ left => ⟨left, fun _ => .threw⟩

/-- Without updates in between, the steps make the function of the record. -/
theorem uninterrupted (record : ServiceDiscoveryRecord) :
    ∃ n, run (step lib) (entered record) (List.replicate n (.call ())) =
      some (outcome ((getMetadataJson lib).run record)) := by
  have own (place place' : Place) : Function.update (fun _ : Unit => place) () place' =
      fun _ => place' := by
    funext i
    simp
  rw [getMetadataJson_run]
  by_cases empty : record.metadata = ""
  · refine ⟨1, ?_⟩
    simp [run, step, entered, callStep, outcome, empty, own, List.replicate]
  · cases cache : record.metadataJson with
    | some json =>
      refine ⟨3, ?_⟩
      simp [run, step, entered, callStep, outcome, empty, cache, own, List.replicate]
    | none =>
      refine ⟨if (lib.parse record.metadata).isSome then 4 else 3, ?_⟩
      cases parsed : lib.parse record.metadata <;>
        simp [run, step, entered, callStep, outcome, empty, cache, parsed, own, List.replicate]

end

def emptyTexts : Nlohmann where
  parse text := if text = "\x7b\x7d" then some (.object []) else
    if text = "[]" then some (.array []) else none
  dump _ _ := none
  castOutOfRange _ := 0

def sampleRecord : ServiceDiscoveryRecord :=
  (create "a" "A" 120 1000 false).updateMetadata "\x7b\x7d"

/-- Two calls that both find the cache missing, the second parsing after an update. -/
def overlapped : List (Action Bool) :=
  [.call true, .call false, .call true, .call false, .call true, .update "[]", .call false]

def updatedBefore : List (Action Unit) := [.call (), .update "[]", .call (), .call ()]

/-- The metadata is emptied between the two tests. -/
def clearedBetween : List (Action Unit) := [.call (), .update "", .call ()]

/-- The metadata is replaced between the store and the read of the cached pointer. -/
def replacedBetween : List (Action Unit) := [.call (), .call (), .call (), .update "[]"]

theorem undisturbed_updatedBefore : Undisturbed emptyTexts sampleRecord updatedBefore := by
  refine ⟨?_, fun _ _ _ => .inl rfl⟩
  refine throughout_cons _ _ _ _ _ (fun _ parsing => nomatch parsing) fun t taken => ?_
  obtain rfl := Option.some.inj taken
  refine throughout_cons _ _ _ _ _ nofun fun t taken => ?_
  obtain rfl := Option.some.inj taken
  refine throughout_cons _ _ _ _ _ (fun _ parsing => nomatch parsing) fun t taken => ?_
  obtain rfl := Option.some.inj taken
  refine throughout_cons _ _ _ _ _ (fun _ _ => by decide) fun t taken => ?_
  obtain rfl := Option.some.inj taken
  refine throughout_cons _ _ _ _ _ (fun _ parsing => nomatch parsing) fun t taken => ?_
  exact throughout_nil _ _ t

theorem honoured_updatedBefore : ∃ s,
    run (step emptyTexts) (entered sampleRecord) (updatedBefore ++ [.call ()]) = some s ∧
      (s.calls ()).Ended ∧ Honoured emptyTexts (held sampleRecord updatedBefore) (s.calls ()) := by
  have valid : ∀ text ∈ held sampleRecord updatedBefore,
      text = "" ∨ (emptyTexts.parse text).isSome := by
    intro text member
    have known : text = "\x7b\x7d" ∨ "[]" = text := by
      simpa [held, updatedBefore, sampleRecord, updateMetadata, Action.text?] using member
    rcases known with rfl | rfl <;> exact .inr rfl
  exact ⟨_, rfl, trivial, (honoured_iff_undisturbed emptyTexts sampleRecord updatedBefore _ (.inl rfl)
    rfl valid rfl trivial).mpr undisturbed_updatedBefore⟩

theorem call_disturbed :
    (∃ s, run (step emptyTexts) (entered sampleRecord) (clearedBetween ++ [.call ()]) = some s ∧
      (s.calls ()).Ended ∧ ¬ Honoured emptyTexts (held sampleRecord clearedBetween) (s.calls ())) ∧
    ∃ s, run (step emptyTexts) (entered sampleRecord) (replacedBetween ++ [.call ()]) = some s ∧
      (s.calls ()).Ended ∧ ¬ Honoured emptyTexts (held sampleRecord replacedBetween) (s.calls ()) := by
  refine ⟨⟨_, rfl, trivial, id⟩, _, rfl, trivial, fun cleared => ?_⟩
  have absent : "" ∉ held sampleRecord replacedBetween := by decide
  exact absent cleared

end NetworkDiscovery.MetadataCache

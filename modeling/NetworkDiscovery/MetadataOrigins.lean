import NetworkDiscovery.BuilderHistory
import NetworkDiscovery.RegistryOrigins

/-! Where the metadata of a record come from. A client builds its metadata call by
call while its heartbeat thread prints them; what a peer parses of its record is
the tree that the calls before one heartbeat have built, that of the record's time. -/

namespace NetworkDiscovery.DiscoveryNetwork
open ActionRuns ServiceDiscoveryClient RegistryHistory

section
variable {ι : Type*} [DecidableEq ι]

def metadataCall? (i : ι) : Action ι → Option MetadataCall
  | .addMetadata k c => if k = i then some c else none
  | _ => none

def metadataCalls (i : ι) (actions : List (Action ι)) : List MetadataCall :=
  actions.filterMap (metadataCall? i)

variable (lib : Nlohmann) (settings : ι → Settings)

/-- The tree that the calls of a client have built, those that threw included. -/
def built (i : ι) (actions : List (Action ι)) : Json :=
  JsonBuilder.attemptAll ((metadataCalls i actions).map MetadataCall.setting)
    (settings i).client.metadata

theorem built_concat (i : ι) (actions : List (Action ι)) (a : Action ι) :
    built settings i (actions ++ [a]) = match metadataCall? i a with
      | some c => JsonBuilder.attemptNext (built settings i actions) c.setting
      | none => built settings i actions := by
  rw [built, metadataCalls, List.filterMap_append]
  cases call : metadataCall? i a with
  | none => simp [call, built, metadataCalls]
  | some c => simp [call, built, metadataCalls, JsonBuilder.attemptAll]

/-- The library is relied on to restore the metadata that a client could print in the run. -/
def MetadataRestored (actions : List (Action ι)) : Prop :=
  ∀ i before, before <+: actions → (lib.dump (built settings i before) (some 4)).isSome →
    Json.Restores lib (built settings i before) (some 4)

variable {lib settings} {actions : List (Action ι)} {s : Network ι}

theorem metadata_setNode (s : Network ι) (i j : ι) (node : Node)
    (kept : node.metadata = (s.nodes i).metadata) :
    ((s.setNode i node).nodes j).metadata = (s.nodes j).metadata := by
  rw [setNode_nodes]
  split_ifs with same
  · rw [same, kept]
  · rfl

theorem metadata_heartbeat (s s' : Network ι) (i j : ι) (reading : Int64)
    (taken : step lib settings s (.heartbeat i reading) = some s') :
    (s'.nodes j).metadata = (s.nodes j).metadata := by
  rw [step] at taken
  split_ifs at taken
  · cases sent : (s.nodes i).sendPresence lib (settings i) reading with
    | error e =>
      rw [sent] at taken
      cases taken
    | ok result =>
      rw [sent] at taken
      obtain rfl := Option.some.inj taken
      exact metadata_setNode s i j _ rfl
  · obtain rfl := Option.some.inj taken
    exact metadata_setNode s i j _ rfl

theorem step_metadata (s s' : Network ι) (a : Action ι) (j : ι)
    (taken : step lib settings s a = some s') :
    (s'.nodes j).metadata = match metadataCall? j a with
      | some c => JsonBuilder.attemptNext (s.nodes j).metadata c.setting
      | none => (s.nodes j).metadata := by
  cases a with
  | wait duration =>
    obtain rfl := Option.some.inj taken
    rfl
  | addMetadata i c =>
    obtain rfl := Option.some.inj taken
    rw [setNode_nodes, metadataCall?]
    by_cases same : i = j
    · subst same
      rw [if_pos rfl, if_pos rfl, ClientMembers.afterCall_eq]
      rfl
    · rw [if_neg same, if_neg (Ne.symm same)]
  | heartbeat i reading => exact metadata_heartbeat s s' i j reading taken
  | checkServices i clock =>
    rw [step] at taken
    split_ifs at taken
    obtain rfl := Option.some.inj taken
    exact metadata_setNode s i j _ rfl
  | connection i | enableHeartbeat i | disableHeartbeat i | processMessage i =>
    obtain rfl := Option.some.inj taken
    exact metadata_setNode s i j _ rfl

theorem run_metadata (ran : run (step lib settings) (start settings) actions = some s) (j : ι) :
    (s.nodes j).metadata = built settings j actions := by
  refine run_induction (step lib settings) rfl ?_ actions s ran
  intro actions t a t' _ ih taken
  rw [step_metadata t t' a j taken, built_concat, ih]

theorem unparsed (debug : Bool) (t : Traced) (tracks : Tracks debug t) (x : String)
    (record : ServiceDiscoveryRecord) (found : t.services.find? x = some record) :
    record.metadataJson = none := by
  rw [tracks x] at found
  cases split : sinceRemoval x t.log with
  | nil =>
    rw [split] at found
    cases found
  | cons first rest =>
    have final := List.getLast?_eq_some_getLast (List.cons_ne_nil first rest)
    rw [split, foldl_recordOne debug none first _ rest final] at found
    obtain rfl := Option.some.inj found
    rfl

end

section
open ClientMembers

theorem renewed_ran : ∃ s, run (step loadLib pairSettings) (start pairSettings)
    (pairActions [true, true]) = some s ∧ s.published = [pairPresence] :=
  ⟨_, rfl, rfl⟩

theorem renewed_readable (listeners : List Bool) :
    MetadataRestored loadLib pairSettings (pairActions listeners) := by
  intro i before inside some_text
  have whole : metadataCalls i (pairActions listeners) = metadataCalls i (pairActions []) := by
    have silent : (listeners.flatMap heardActions).filterMap (metadataCall? i) = [] := by
      rw [List.filterMap_flatMap]
      exact List.flatMap_eq_nil_iff.mpr fun _ _ => rfl
    rw [metadataCalls, pairActions, List.filterMap_append, silent, List.append_nil]
    rfl
  have calls : metadataCalls i before <+: metadataCalls i (pairActions listeners) :=
    inside.filterMap _
  have unbuilt (none : metadataCalls i before = []) :
      Json.Restores loadLib (built pairSettings i before) (some 4) := by
    rw [built, none] at some_text
    cases i <;> cases some_text
  rw [whole] at calls
  cases i with
  | true => exact unbuilt (List.prefix_nil.mp calls)
  | false =>
    rcases List.prefix_cons_iff.mp calls with none | ⟨rest, one, nothing⟩
    · exact unbuilt none
    · rw [built, one, List.prefix_nil.mp nothing]
      exact load_metadata_restored

end

end NetworkDiscovery.DiscoveryNetwork

import NetworkDiscovery.Library.ActionRuns
import NetworkDiscovery.PresenceRelay
import NetworkDiscovery.RegistryHistory

/-! The clients of one broker. Each has its heartbeat and monitor threads and a
registry of its own. The controller, which is not in this repository, makes
broadcasts out of published presences; it may send them late, twice, in any
order or not at all, and each client may receive any of them at any time.

Messages, sweeps, add_metadata calls and heartbeats are whole steps. This
leaves out runs in which calls of one client overlap: process_message and the
metadata builder take no lock, and RegistryInterleaving says what may come of it. -/

namespace NetworkDiscovery.DiscoveryNetwork
open ActionRuns ServiceDiscoveryClient RegistryHistory

structure Settings where
  client : ClientMembers
  heartbeatInterval : Int32
  serviceCheckInterval : Int32
  debug : Bool

/-- What the threads of a client change. `connected` is what the heartbeat thread
finds of its channel, and the two times are those at which a sleep ends. -/
structure Node where
  metadata : Json
  services : Services
  connected : Bool
  heartbeatEnabled : Bool
  nextHeartbeat : ℤ
  nextCheck : ℤ

/-- A presence at the broker, with the time and the clock reading of its sender
and the text of the metadata that it carries. -/
structure Presence (ι : Type*) where
  sender : ι
  sentAt : ℤ
  reading : Int64
  metadata : String
  body : String

/-- Times are in nanoseconds. -/
structure Network (ι : Type*) where
  now : ℤ
  nodes : ι → Node
  published : List (Presence ι)

inductive Action (ι : Type*)
  | wait (duration : ℕ)
  | connection (i : ι) (connected : Bool)
  | enableHeartbeat (i : ι)
  | disableHeartbeat (i : ι)
  | addMetadata (i : ι) (c : MetadataCall)
  | heartbeat (i : ι) (reading : Int64)
  | checkServices (i : ι) (clock : String → Int64)
  | processMessage (i : ι) (order : Order) (message : Message)

/-- The end of a sleep: `sleep_for` returns at once when the time is not positive. -/
def sleepUntil (now : ℤ) (seconds : Int32) : ℤ := now + max 0 (seconds.toInt * 10 ^ 9)

def Node.members (node : Node) (settings : Settings) : ClientMembers :=
  { settings.client with metadata := node.metadata }

def startNode (settings : Settings) : Node where
  metadata := settings.client.metadata
  services := .empty
  connected := false
  heartbeatEnabled := true
  nextHeartbeat := 0
  nextCheck := 0

def Node.sendPresence (lib : Nlohmann) (node : Node) (settings : Settings) (reading : Int64) :
    Except CppException (String × Publication) := do
  let metadata ← lib.dumped node.metadata (some 4)
  let publication ← (node.members settings).sendPresence lib reading
  return (metadata, publication)

section
variable {ι : Type*} (lib : Nlohmann) (settings : ι → Settings)

/-- The entry that a peer reads of a presence, its time cut to 32 bits. -/
def announcement (p : Presence ι) : Entry :=
  (settings p.sender).client.announced (Int32.ofInt (p.reading / 1000000000).toInt) p.metadata

def CopiesPresence (p : Presence ι) (doc : Json) : Prop :=
  ∃ members entry, lib.parse p.body = some (.object members) ∧ doc = .object entry ∧
    ClientMembers.Relays entry members

/-- The well-formed elements of every broadcast copy presences that were published before. -/
def RelaysPublished (s : Network ι) : Action ι → Prop
  | .processMessage _ _ message => ∀ docs, Broadcasts lib message docs →
      ∀ doc ∈ docs, WellFormedElement doc → ∃ p ∈ s.published, CopiesPresence lib p doc
  | _ => True

/-- The library is relied on to restore the presences from their texts. -/
def Restored (s : Network ι) : Prop :=
  ∀ p ∈ s.published,
    Json.Restores lib ((settings p.sender).client.presence p.reading p.metadata) none

variable {lib settings}

theorem asEntry_copied (p : Presence ι) (doc : Json)
    (printed : lib.dump ((settings p.sender).client.presence p.reading p.metadata) none =
      some p.body)
    (restored : Json.Restores lib ((settings p.sender).client.presence p.reading p.metadata) none)
    (copied : CopiesPresence lib p doc) : doc.asEntry lib = some (announcement settings p) := by
  obtain ⟨text, dumped, -, back, parsed, sent⟩ := restored
  obtain ⟨members, entry, received, rfl, relays⟩ := copied
  obtain rfl : p.body = text := Option.some.inj (printed.symm.trans dumped)
  obtain rfl : .object members = back := Option.some.inj (received.symm.trans parsed)
  exact ClientMembers.asEntry_relayed lib _ p.reading p.metadata entry members sent relays

theorem mem_messageEntries (message : Message) (e : Entry) (member : e ∈ messageEntries lib message) :
    ∃ docs, Broadcasts lib message docs ∧ ∃ doc ∈ docs, WellFormedElement doc ∧
      doc.asEntry lib = some e := by
  unfold messageEntries at member
  split_ifs at member with route
  · split at member
    case h_1 docs parsed =>
      have ⟨doc, inside, carries⟩ := mem_applied lib docs e member
      have well : wellFormed lib doc = true := by rw [wellFormed, carries]; rfl
      exact ⟨docs, ⟨route, parsed⟩, doc, inside, (wellFormed_iff lib doc).mp well, carries⟩
    case h_2 => cases member
  · cases member

end

section
variable {ι : Type*} [DecidableEq ι]

def Network.setNode (s : Network ι) (i : ι) (node : Node) : Network ι :=
  { s with nodes := Function.update s.nodes i node }

@[simp] theorem setNode_nodes (s : Network ι) (i j : ι) (node : Node) :
    (s.setNode i node).nodes j = if j = i then node else s.nodes j :=
  Function.update_apply s.nodes i node j

@[simp] theorem setNode_now (s : Network ι) (i : ι) (node : Node) : (s.setNode i node).now = s.now :=
  rfl

@[simp] theorem setNode_published (s : Network ι) (i : ι) (node : Node) :
    (s.setNode i node).published = s.published := rfl

variable (lib : Nlohmann) (settings : ι → Settings)

def start : Network ι := ⟨0, fun i => startNode (settings i), []⟩

/-- A turn of the heartbeat thread publishes if the channel is connected and the
heartbeat enabled; an exception of `send_presence` ends the program. -/
def step (s : Network ι) : Action ι → Option (Network ι)
  | .wait duration => some { s with now := s.now + duration }
  | .connection i connected => some (s.setNode i { s.nodes i with connected := connected })
  | .enableHeartbeat i => some (s.setNode i { s.nodes i with heartbeatEnabled := true })
  | .disableHeartbeat i => some (s.setNode i { s.nodes i with heartbeatEnabled := false })
  | .addMetadata i c => some (s.setNode i { s.nodes i with
      metadata := (((s.nodes i).members (settings i)).afterCall c).metadata })
  | .heartbeat i reading =>
    let slept := { s.nodes i with
      nextHeartbeat := sleepUntil s.now (settings i).heartbeatInterval }
    if s.now < (s.nodes i).nextHeartbeat then none
    else if (s.nodes i).connected && (s.nodes i).heartbeatEnabled then
      match (s.nodes i).sendPresence lib (settings i) reading with
      | .ok (metadata, publication) => some { s.setNode i slept with
          published := s.published ++ [⟨i, s.now, reading, metadata, publication.body⟩] }
      | .error _ => none
    else some (s.setNode i slept)
  | .checkServices i clock =>
    if s.now < (s.nodes i).nextCheck then none
    else some (s.setNode i { s.nodes i with
      services := checkServices clock (s.nodes i).services
      nextCheck := sleepUntil s.now (settings i).serviceCheckInterval })
  | .processMessage i order message => some (s.setNode i { s.nodes i with
      services := servicesAfter (processMessage lib (settings i).debug order message)
        (s.nodes i).services })

def eventOf (j : ι) : Action ι → Option Event
  | .checkServices i clock => if i = j then some (.sweep clock) else none
  | .processMessage i order message => if i = j then some (.message order message) else none
  | _ => none

def Publishes (s : Network ι) (i : ι) (reading : Int64) (p : Presence ι) : Prop :=
  p.sender = i ∧ p.sentAt = s.now ∧ p.reading = reading ∧
    lib.dump (s.nodes i).metadata (some 4) = some p.metadata ∧
    lib.dump ((settings i).client.presence reading p.metadata) none = some p.body

structure Effect (s : Network ι) (a : Action ι) (s' : Network ι) : Prop where
  now : s'.now = match a with
    | .wait duration => s.now + duration
    | _ => s.now
  services : ∀ j, (s'.nodes j).services = match eventOf j a with
    | some event => RegistryHistory.step lib (settings j).debug (s.nodes j).services event
    | none => (s.nodes j).services
  silent : (∀ i reading, a ≠ .heartbeat i reading) → s'.published = s.published
  heartbeat : ∀ i reading, a = .heartbeat i reading →
    (s.nodes i).nextHeartbeat ≤ s.now ∧
    (s'.nodes i).nextHeartbeat = sleepUntil s.now (settings i).heartbeatInterval ∧
    if (s.nodes i).connected && (s.nodes i).heartbeatEnabled then
      ∃ p, Publishes lib settings s i reading p ∧ s'.published = s.published ++ [p]
    else s'.published = s.published
  nextHeartbeat : ∀ i, (∀ reading, a ≠ .heartbeat i reading) →
    (s'.nodes i).nextHeartbeat = (s.nodes i).nextHeartbeat
  checks : ∀ i clock, a = .checkServices i clock →
    (s.nodes i).nextCheck ≤ s.now ∧
    (s'.nodes i).nextCheck = sleepUntil s.now (settings i).serviceCheckInterval
  nextCheck : ∀ i, (∀ clock, a ≠ .checkServices i clock) →
    (s'.nodes i).nextCheck = (s.nodes i).nextCheck

theorem sendPresence_ok (node : Node) (settings : Settings) (reading : Int64) (metadata : String)
    (publication : Publication)
    (sent : node.sendPresence lib settings reading = .ok (metadata, publication)) :
    lib.dump node.metadata (some 4) = some metadata ∧
      lib.dump (settings.client.presence reading metadata) none = some publication.body := by
  have printed : (node.members settings).metadata = node.metadata := rfl
  have same (text : String) : (node.members settings).presence reading text =
      settings.client.presence reading text := rfl
  simp only [Node.sendPresence, ClientMembers.sendPresence, Nlohmann.dumped, printed, same] at sent
  cases dumped : lib.dump node.metadata (some 4) with
  | none => simp [dumped, bind, Except.bind] at sent
  | some text =>
    cases data : lib.dump (settings.client.presence reading text) none with
    | none => simp [dumped, data, bind, Except.bind] at sent
    | some body =>
      simp only [dumped, data, bind, Except.bind, pure, Except.pure, Except.ok.injEq,
        Prod.mk.injEq] at sent
      obtain ⟨rfl, rfl⟩ := sent
      exact ⟨rfl, data⟩

theorem effect_setNode (s : Network ι) (a : Action ι) (i : ι) (node : Node)
    (timeless : ∀ duration, a ≠ .wait duration) (uneventful : ∀ j, eventOf j a = none)
    (unpublished : ∀ j reading, a ≠ .heartbeat j reading)
    (services : node.services = (s.nodes i).services)
    (nextHeartbeat : node.nextHeartbeat = (s.nodes i).nextHeartbeat)
    (nextCheck : node.nextCheck = (s.nodes i).nextCheck) :
    Effect lib settings s a (s.setNode i node) where
  now := by
    cases a with
    | wait duration => exact absurd rfl (timeless duration)
    | _ => rfl
  services j := by
    rw [uneventful j, setNode_nodes]
    split_ifs with same
    · rw [same, services]
    · rfl
  silent _ := rfl
  heartbeat j reading is := absurd is (unpublished j reading)
  nextHeartbeat j _ := by
    rw [setNode_nodes]
    split_ifs with same
    · rw [same, nextHeartbeat]
    · rfl
  checks j clock is := by
    have none := uneventful j
    rw [is, eventOf, if_pos rfl] at none
    cases none
  nextCheck j _ := by
    rw [setNode_nodes]
    split_ifs with same
    · rw [same, nextCheck]
    · rfl

theorem effect_slept (s : Network ι) (i : ι) (reading : Int64) (published : List (Presence ι))
    (due : (s.nodes i).nextHeartbeat ≤ s.now)
    (added : if (s.nodes i).connected && (s.nodes i).heartbeatEnabled then
      ∃ p, Publishes lib settings s i reading p ∧ published = s.published ++ [p]
      else published = s.published) :
    Effect lib settings s (.heartbeat i reading) { s.setNode i { s.nodes i with
      nextHeartbeat := sleepUntil s.now (settings i).heartbeatInterval } with
        published := published } where
  now := rfl
  services j := by
    by_cases same : j = i <;> simp [eventOf, same]
  silent quiet := absurd rfl (quiet i reading)
  heartbeat := by
    rintro j other ⟨⟩
    exact ⟨due, by simp, added⟩
  nextHeartbeat j asleep := by
    have other : j ≠ i := fun same => asleep reading (by rw [same])
    simp [other]
  checks := nofun
  nextCheck j _ := by
    by_cases same : j = i <;> simp [same]

theorem effect_heartbeat (s s' : Network ι) (i : ι) (reading : Int64)
    (taken : step lib settings s (.heartbeat i reading) = some s') :
    Effect lib settings s (.heartbeat i reading) s' := by
  rw [step] at taken
  split_ifs at taken with early publishes
  · cases sent : (s.nodes i).sendPresence lib (settings i) reading with
    | error e =>
      rw [sent] at taken
      cases taken
    | ok result =>
      obtain ⟨metadata, publication⟩ := result
      rw [sent] at taken
      obtain rfl := Option.some.inj taken
      have ⟨dumped, printed⟩ := sendPresence_ok lib _ _ reading metadata publication sent
      refine effect_slept lib settings s i reading _ (not_lt.mp early) ?_
      rw [if_pos publishes]
      exact ⟨_, ⟨rfl, rfl, rfl, dumped, printed⟩, rfl⟩
  · obtain rfl := Option.some.inj taken
    refine effect_slept lib settings s i reading s.published (not_lt.mp early) ?_
    rw [if_neg publishes]

theorem effect_checkServices (s s' : Network ι) (i : ι) (clock : String → Int64)
    (taken : step lib settings s (.checkServices i clock) = some s') :
    Effect lib settings s (.checkServices i clock) s' := by
  rw [step] at taken
  split_ifs at taken with early
  obtain rfl := Option.some.inj taken
  constructor
  · rfl
  · intro j
    by_cases same : i = j
    · subst same
      simp [eventOf, RegistryHistory.step]
    · simp [eventOf, same, Ne.symm same]
  · exact fun _ => rfl
  · exact nofun
  · intro j _
    by_cases same : j = i <;> simp [same]
  · rintro j other ⟨⟩
    exact ⟨not_lt.mp early, by simp⟩
  · intro j asleep
    have other : j ≠ i := fun same => asleep clock (by rw [same])
    simp [other]

theorem effect_processMessage (s s' : Network ι) (i : ι) (order : Order) (message : Message)
    (taken : step lib settings s (.processMessage i order message) = some s') :
    Effect lib settings s (.processMessage i order message) s' := by
  obtain rfl := Option.some.inj taken
  constructor
  · rfl
  · intro j
    by_cases same : i = j
    · subst same
      simp [eventOf, RegistryHistory.step]
    · simp [eventOf, same, Ne.symm same]
  · exact fun _ => rfl
  · exact nofun
  · intro j _
    by_cases same : j = i <;> simp [same]
  · exact nofun
  · intro j _
    by_cases same : j = i <;> simp [same]

theorem step_effect (s s' : Network ι) (a : Action ι) (taken : step lib settings s a = some s') :
    Effect lib settings s a s' := by
  cases a with
  | wait duration =>
    obtain rfl := Option.some.inj taken
    exact ⟨rfl, fun _ => rfl, fun _ => rfl, nofun, fun _ _ => rfl, nofun, fun _ _ => rfl⟩
  | heartbeat i reading => exact effect_heartbeat lib settings s s' i reading taken
  | checkServices i clock => exact effect_checkServices lib settings s s' i clock taken
  | processMessage i order message =>
    exact effect_processMessage lib settings s s' i order message taken
  | connection | enableHeartbeat | disableHeartbeat | addMetadata =>
    obtain rfl := Option.some.inj taken
    exact effect_setNode lib settings s _ _ _ nofun (fun _ => rfl) nofun rfl rfl rfl

/-! ### Whole runs -/

def history (j : ι) (actions : List (Action ι)) : Traced :=
  trace lib (settings j).debug (actions.filterMap (eventOf j))

theorem history_concat (j : ι) (actions : List (Action ι)) (a : Action ι) :
    history lib settings j (actions ++ [a]) = match eventOf j a with
      | some event => next lib (settings j).debug (history lib settings j actions) event
      | none => history lib settings j actions := by
  rw [history, List.filterMap_append]
  cases event : eventOf j a with
  | none => simp [event, history]
  | some event => simp [event, history, trace]

variable {lib settings} {actions : List (Action ι)} {s : Network ι}

/-- Each client's registry is that of its own serial run. -/
theorem run_services (ran : run (step lib settings) (start settings) actions = some s) (j : ι) :
    (s.nodes j).services = (history lib settings j actions).services := by
  refine run_induction (step lib settings) ?_ ?_ actions s ran
  · rfl
  · intro actions t a t' _ ih taken
    rw [(step_effect lib settings t t' a taken).services j, history_concat, ih]
    cases eventOf j a <;> rfl

theorem published_grows (t t' : Network ι) (a : Action ι)
    (taken : step lib settings t a = some t') : t.published <+: t'.published := by
  have effect := step_effect lib settings t t' a taken
  by_cases beat : ∃ i reading, a = .heartbeat i reading
  · have ⟨i, reading, is⟩ := beat
    have ⟨_, _, published⟩ := effect.heartbeat i reading is
    split_ifs at published
    · have ⟨p, _, grown⟩ := published
      exact ⟨[p], grown.symm⟩
    · simp only [published, List.prefix_rfl]
  · simp only [effect.silent fun i reading is => beat ⟨i, reading, is⟩, List.prefix_rfl]

theorem run_published (ran : run (step lib settings) (start settings) actions = some s) :
    ∀ p ∈ s.published, p.sentAt ≤ s.now ∧
      lib.dump ((settings p.sender).client.presence p.reading p.metadata) none = some p.body := by
  refine run_induction (step lib settings) ?_ ?_ actions s ran
  · exact nofun
  · intro actions t a t' _ ih taken p member
    have effect := step_effect lib settings t t' a taken
    have later : t.now ≤ t'.now := by
      rw [effect.now]
      cases a <;> simp
    have old (q : Presence ι) (known : q ∈ t.published) :=
      And.imp_left (le_trans · later) (ih q known)
    by_cases beat : ∃ i reading, a = .heartbeat i reading
    · have ⟨i, reading, is⟩ := beat
      have ⟨_, _, published⟩ := effect.heartbeat i reading is
      split_ifs at published
      · obtain ⟨fresh, ⟨rfl, sentAt, rfl, _, printed⟩, grown⟩ := published
        rw [grown, List.mem_append, List.mem_singleton] at member
        rcases member with known | rfl
        · exact old p known
        · exact ⟨sentAt.le.trans later, printed⟩
      · exact old p (published ▸ member)
    · exact old p (effect.silent (fun i reading is => beat ⟨i, reading, is⟩) ▸ member)

theorem applied_announcement (ran : run (step lib settings) (start settings) actions = some s)
    (relayed : Throughout (step lib settings) (RelaysPublished lib) (start settings) actions)
    (restored : Restored lib settings s) (j : ι) (e : Entry)
    (applied : .applied e ∈ (history lib settings j actions).log) :
    ∃ p ∈ s.published, e = announcement settings p := by
  revert relayed restored applied
  refine run_induction (step lib settings) ?_ ?_ actions s ran
  · intro _ _ applied
    cases applied
  · intro actions t a t' reached ih taken relayed restored applied
    have earlier := (throughout_append (step lib settings) _ _ t actions [a] reached relayed).1
    have kept := (published_grows t t' a taken).subset
    have known (old : .applied e ∈ (history lib settings j actions).log) :
        ∃ p ∈ t'.published, e = announcement settings p := by
      have ⟨p, member, same⟩ := ih earlier (fun p member => restored p (kept member)) old
      exact ⟨p, kept member, same⟩
    rw [history_concat] at applied
    cases event : eventOf j a with
    | none =>
      rw [event] at applied
      exact known applied
    | some event' =>
      rw [event] at applied
      rcases List.mem_append.mp applied with old | fresh
      · exact known old
      · cases a with
        | checkServices i clock =>
          rw [eventOf] at event
          split_ifs at event
          obtain rfl := Option.some.inj event
          obtain ⟨id, _, impossible⟩ := List.mem_map.mp fresh
          cases impossible
        | processMessage i order message =>
          rw [eventOf] at event
          split_ifs at event
          obtain rfl := Option.some.inj event
          obtain ⟨_, member, ⟨⟩⟩ := List.mem_map.mp fresh
          have ⟨docs, broadcasts, doc, inside, well, carries⟩ := mem_messageEntries message e member
          have ⟨p, published, copies⟩ := relayed actions _ [] t rfl reached docs broadcasts doc inside well
          have printed := (run_published reached p published).2
          have read := asEntry_copied p doc printed (restored p (kept published)) copies
          exact ⟨p, kept published, Option.some.inj (carries.symm.trans read)⟩
        | _ => cases event

end

end NetworkDiscovery.DiscoveryNetwork

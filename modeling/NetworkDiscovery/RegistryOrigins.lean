import NetworkDiscovery.DiscoveryNetwork

/-! Where the records of a registry come from, whatever the broker and the
controller do to the broadcasts. A record is made by one heartbeat of its
service and renewed by another, so clients that have heard the same heartbeat
last agree on the service. -/

namespace NetworkDiscovery.DiscoveryNetwork
open ActionRuns ServiceDiscoveryClient RegistryHistory

structure MadeOf (x : String) (log : List Happening) (first last : Entry)
    (record : ServiceDiscoveryRecord) : Prop where
  firstApplied : .applied first ∈ log
  lastApplied : .applied last ∈ log
  firstId : first.serviceId = x
  lastId : last.serviceId = x
  recent : mostRecent x log = some last
  uid : record.getServiceUid = x
  type : record.getServiceType = first.service
  timeout : record.getHeartbeatTimeout = first.heartbeatTimeout
  heartbeat : record.lastHeartbeat = last.lastHeartbeat.toInt64
  metadata : record.getMetadata = "" ∨ record.getMetadata = last.metadata

theorem exists_madeOf (debug : Bool) (t : Traced) (tracks : Tracks debug t) (x : String)
    (record : ServiceDiscoveryRecord) (found : t.services.find? x = some record) :
    ∃ first last, MadeOf x t.log first last record := by
  rw [tracks x] at found
  cases split : sinceRemoval x t.log with
  | nil =>
    rw [split] at found
    cases found
  | cons first rest =>
    have final := List.getLast?_eq_some_getLast (List.cons_ne_nil first rest)
    generalize (first :: rest).getLast _ = last at final
    rw [split, foldl_recordOne debug none first last rest final] at found
    obtain rfl := Option.some.inj found
    have recent : mostRecent x t.log = some last := by
      rw [← getLast?_sinceRemoval x t.log (by simp [split]), split, final]
    have ⟨firstApplied, firstId⟩ := mem_sinceRemoval x t.log first (by simp [split])
    have ⟨lastApplied, lastId⟩ := mem_sinceRemoval x t.log last (by
      rw [split]
      exact List.mem_of_getLast? final)
    refine ⟨first, last, firstApplied, lastApplied, firstId, lastId, recent, firstId, rfl, rfl, rfl, ?_⟩
    by_cases alone : rest = []
    · exact .inl (by simp [ServiceDiscoveryRecord.getMetadata, alone])
    · exact .inr (by simp [ServiceDiscoveryRecord.getMetadata, alone])

section
variable {ι : Type*} [DecidableEq ι] (lib : Nlohmann) (settings : ι → Settings)

/-- The presence was sent by a turn of its sender's heartbeat thread in the run,
connected and with the heartbeat enabled. -/
def SentIn (actions : List (Action ι)) (p : Presence ι) : Prop :=
  ∃ before after t, actions = before ++ .heartbeat p.sender p.reading :: after ∧
    run (step lib settings) (start settings) before = some t ∧
    (t.nodes p.sender).connected = true ∧ (t.nodes p.sender).heartbeatEnabled = true ∧
    Publishes lib settings t p.sender p.reading p

variable {lib settings} {actions : List (Action ι)} {s : Network ι}

theorem run_sentIn (ran : run (step lib settings) (start settings) actions = some s) :
    ∀ p ∈ s.published, SentIn lib settings actions p := by
  refine run_induction (step lib settings) ?_ ?_ actions s ran
  · exact nofun
  · intro actions t a t' reached ih taken p member
    have effect := step_effect lib settings t t' a taken
    have old (known : p ∈ t.published) : SentIn lib settings (actions ++ [a]) p := by
      have ⟨before, after, u, split, rest⟩ := ih p known
      exact ⟨before, after ++ [a], u, by rw [split, List.append_assoc, List.cons_append], rest⟩
    by_cases beat : ∃ i reading, a = .heartbeat i reading
    · have ⟨i, reading, is⟩ := beat
      have ⟨_, _, published⟩ := effect.heartbeat i reading is
      split_ifs at published with publishes
      · have ⟨fresh, sent, grown⟩ := published
        rw [grown, List.mem_append, List.mem_singleton] at member
        rcases member with known | rfl
        · exact old known
        · obtain ⟨rfl, sentAt, rfl, printed⟩ := sent
          have ⟨connected, enabled⟩ := Bool.and_eq_true_iff.mp publishes
          exact ⟨actions, [], t, by rw [is], reached, connected, enabled, rfl, sentAt, rfl, printed⟩
      · exact old (published ▸ member)
    · exact old (effect.silent (fun i reading is => beat ⟨i, reading, is⟩) ▸ member)

variable (settings)

/-- The record repeats what two presences of the service have announced: its fixed
members the first, its heartbeat and metadata the last. -/
structure Repeats (x : String) (first last : Presence ι) (record : ServiceDiscoveryRecord) :
    Prop where
  firstId : (settings first.sender).client.serviceId = x
  lastId : (settings last.sender).client.serviceId = x
  uid : record.getServiceUid = x
  type : record.getServiceType = (settings first.sender).client.serviceName
  timeout : record.getHeartbeatTimeout = (settings first.sender).client.heartbeatTimeout
  heartbeat : record.lastHeartbeat = (Int32.ofInt (last.reading / 1000000000).toInt).toInt64
  metadata : record.getMetadata = "" ∨ record.getMetadata = last.metadata

variable {settings}

theorem exists_repeats (ran : run (step lib settings) (start settings) actions = some s)
    (relayed : Throughout (step lib settings) (RelaysPublished lib) (start settings) actions)
    (restored : Restored lib settings s) (j : ι) (x : String) (record : ServiceDiscoveryRecord)
    (found : (s.nodes j).services.find? x = some record) :
    ∃ first ∈ s.published, ∃ last ∈ s.published, Repeats settings x first last record ∧
      mostRecent x (history lib settings j actions).log = some (announcement settings last) := by
  rw [run_services ran j] at found
  have ⟨e, e', made⟩ := exists_madeOf _ _ (tracks_trace lib _ _) x record found
  have ⟨first, firstSent, same⟩ := applied_announcement ran relayed restored j e made.firstApplied
  have ⟨last, lastSent, same'⟩ := applied_announcement ran relayed restored j e' made.lastApplied
  subst same same'
  exact ⟨first, firstSent, last, lastSent, ⟨made.firstId, made.lastId, made.uid, made.type,
    made.timeout, made.heartbeat, made.metadata⟩, made.recent⟩

/-- Whatever is lost, repeated, delayed or reordered on the way, every record of
every client repeats heartbeats that its service has sent. -/
theorem records_sent (ran : run (step lib settings) (start settings) actions = some s)
    (relayed : Throughout (step lib settings) (RelaysPublished lib) (start settings) actions)
    (restored : Restored lib settings s) (j : ι) (x : String) (record : ServiceDiscoveryRecord)
    (found : (s.nodes j).services.find? x = some record) :
    ∃ first last, SentIn lib settings actions first ∧ SentIn lib settings actions last ∧
      Repeats settings x first last record := by
  have ⟨first, firstSent, last, lastSent, repeats, _⟩ :=
    exists_repeats ran relayed restored j x record found
  exact ⟨first, last, run_sentIn ran first firstSent, run_sentIn ran last lastSent, repeats⟩

structure Agree (r r' : ServiceDiscoveryRecord) : Prop where
  uid : r.getServiceUid = r'.getServiceUid
  type : r.getServiceType = r'.getServiceType
  timeout : r.getHeartbeatTimeout = r'.getHeartbeatTimeout
  heartbeat : r.lastHeartbeat = r'.lastHeartbeat
  metadata : r.getMetadata = r'.getMetadata ∨ r.getMetadata = "" ∨ r'.getMetadata = ""

/-- Clients that have heard the same of a service last agree on it, although they
may have registered it at different times and dropped it in between. -/
theorem records_agree (ran : run (step lib settings) (start settings) actions = some s)
    (relayed : Throughout (step lib settings) (RelaysPublished lib) (start settings) actions)
    (restored : Restored lib settings s)
    (unique : Function.Injective fun i => (settings i).client.serviceId) (j k : ι) (x : String)
    (r r' : ServiceDiscoveryRecord) (found : (s.nodes j).services.find? x = some r)
    (found' : (s.nodes k).services.find? x = some r')
    (heard : mostRecent x (history lib settings j actions).log =
      mostRecent x (history lib settings k actions).log) : Agree r r' := by
  have ⟨first, _, last, _, repeats, recent⟩ := exists_repeats ran relayed restored j x r found
  have ⟨first', _, last', _, repeats', recent'⟩ := exists_repeats ran relayed restored k x r' found'
  have sender : first.sender = first'.sender := unique (repeats.firstId.trans repeats'.firstId.symm)
  have announced : announcement settings last = announcement settings last' := by
    rw [recent, recent'] at heard
    exact Option.some.inj heard
  refine ⟨repeats.uid.trans repeats'.uid.symm, ?_, ?_, ?_, ?_⟩
  · rw [repeats.type, repeats'.type, sender]
  · rw [repeats.timeout, repeats'.timeout, sender]
  · rw [repeats.heartbeat, repeats'.heartbeat]
    exact congrArg Int32.toInt64 (congrArg Entry.lastHeartbeat announced)
  · rcases repeats.metadata with none | text
    · exact .inr (.inl none)
    · rcases repeats'.metadata with none' | text'
      · exact .inr (.inr none')
      · rw [text, text']
        exact .inl (congrArg Entry.metadata announced)

end

section
open ClientMembers

def pairSettings : Bool → Settings
  | false => ⟨.create "A" "service-discovery" "service-answer" 120 "a"
      (repeatedUuid 32 'c' rfl), 10, 5, false⟩
  | true => ⟨.create "B" "service-discovery" "service-answer" 120 "b"
      (repeatedUuid 32 'd' rfl), 10, 5, false⟩

def pairPresence : Presence Bool := ⟨false, 0, 5000000000, loadText, loadPresenceText⟩

theorem loadBroadcast_copies : ∀ docs, Broadcasts loadLib loadBroadcast docs →
    ∀ doc ∈ docs, CopiesPresence loadLib pairPresence doc := by
  rintro docs ⟨_, parsed⟩ doc member
  rw [load_broadcasts.2, Option.some_inj, Json.array.injEq] at parsed
  rw [← parsed, List.mem_singleton] at member
  refine ⟨loadPresence, loadEntry, rfl, member, ?_, ⟨_, _, rfl, rfl, rfl⟩⟩
  simp only [List.forall_mem_cons]
  exact ⟨⟨_, _, rfl, rfl, rfl⟩, ⟨_, _, rfl, rfl, rfl⟩, ⟨_, _, rfl, rfl, rfl⟩,
    ⟨_, _, rfl, rfl, rfl⟩, nofun⟩

def heardActions (j : Bool) : List (Action Bool) :=
  [.wait 1000000000, .processMessage j .atEnd loadBroadcast]

theorem heard_relayed (listeners : List Bool) (t : Network Bool)
    (published : pairPresence ∈ t.published) :
    Throughout (step loadLib pairSettings) (RelaysPublished loadLib) t
      (listeners.flatMap heardActions) := by
  induction listeners generalizing t with
  | nil => exact throughout_nil _ _ t
  | cons j rest ih =>
    refine throughout_cons _ _ t _ _ trivial fun u taken => ?_
    obtain rfl := Option.some.inj taken
    refine throughout_cons _ _ _ _ _ (fun docs broadcasts doc member _ =>
      ⟨pairPresence, published, loadBroadcast_copies docs broadcasts doc member⟩) fun u taken => ?_
    obtain rfl := Option.some.inj taken
    exact ih _ published

def pairActions (listeners : List Bool) : List (Action Bool) :=
  [.addMetadata false (.int "load" 7), .connection false true, .heartbeat false 5000000000] ++
    listeners.flatMap heardActions

theorem pair_relayed (listeners : List Bool) :
    Throughout (step loadLib pairSettings) (RelaysPublished loadLib) (start pairSettings)
      (pairActions listeners) := by
  refine throughout_cons _ _ _ _ _ trivial fun t taken => ?_
  obtain rfl := Option.some.inj taken
  refine throughout_cons _ _ _ _ _ trivial fun t taken => ?_
  obtain rfl := Option.some.inj taken
  refine throughout_cons _ _ _ _ _ trivial fun t taken => ?_
  obtain rfl := Option.some.inj taken
  exact heard_relayed listeners _ List.mem_cons_self

def pairRecord : ServiceDiscoveryRecord := .create "a" "A" 120 5 false

def renewedRecord : ServiceDiscoveryRecord := (pairRecord.updateHeartbeat 5).updateMetadata loadText

theorem pair_entries : messageEntries loadLib loadBroadcast =
    [announcement pairSettings pairPresence] := by
  rw [messageEntries_array loadLib loadBroadcast _ rfl load_broadcasts.2]
  rfl

section
variable {actions : List (Action Bool)} {s : Network Bool}
  (ran : run (step loadLib pairSettings) (start pairSettings) actions = some s) (j : Bool)
include ran

theorem found_once (heard : history loadLib pairSettings j actions =
    trace loadLib false [.message .atEnd loadBroadcast]) :
    (s.nodes j).services.find? "a" = some pairRecord := by
  rw [run_services ran, heard]
  simp only [trace, List.foldl_cons, List.foldl_nil, next, RegistryHistory.step]
  rw [servicesAfter_processMessage, pair_entries, find?_recordAll]
  rfl

theorem found_twice (heard : history loadLib pairSettings j actions =
    trace loadLib false [.message .atEnd loadBroadcast, .message .atEnd loadBroadcast]) :
    (s.nodes j).services.find? "a" = some renewedRecord := by
  rw [run_services ran, heard]
  simp only [trace, List.foldl_cons, List.foldl_nil, next, RegistryHistory.step]
  rw [servicesAfter_processMessage, servicesAfter_processMessage, pair_entries, find?_recordAll,
    find?_recordAll]
  rfl

end

theorem pair_restored {s : Network Bool} (published : s.published = [pairPresence]) :
    Restored loadLib pairSettings s := by
  rw [Restored, published]
  intro p member
  obtain rfl := List.mem_singleton.mp member
  exact load_presence_restored

theorem pair_unique : Function.Injective fun i => (pairSettings i).client.serviceId := by
  intro i k same
  cases i <;> cases k <;> first | rfl | exact absurd same (by decide)

/-- Both clients hear of the first, which has registered itself by then and hears
of itself once more. -/
theorem pair_ran : ∃ s, run (step loadLib pairSettings) (start pairSettings)
    (pairActions [false, true, false]) = some s ∧ s.published = [pairPresence] :=
  ⟨_, rfl, rfl⟩

theorem records_sent_pair : ∃ first last,
    SentIn loadLib pairSettings (pairActions [false, true, false]) first ∧
    SentIn loadLib pairSettings (pairActions [false, true, false]) last ∧
    Repeats pairSettings "a" first last renewedRecord := by
  have ⟨s, ran, published⟩ := pair_ran
  exact records_sent ran (pair_relayed _) (pair_restored published) false "a" renewedRecord
    (found_twice ran false rfl)

theorem records_agree_pair : Agree renewedRecord pairRecord := by
  have ⟨s, ran, published⟩ := pair_ran
  refine records_agree ran (pair_relayed _) (pair_restored published) pair_unique false true "a"
    renewedRecord pairRecord (found_twice ran false rfl) (found_once ran true rfl) ?_
  have twice : history loadLib pairSettings false (pairActions [false, true, false]) =
      trace loadLib false [.message .atEnd loadBroadcast, .message .atEnd loadBroadcast] := rfl
  have once : history loadLib pairSettings true (pairActions [false, true, false]) =
      trace loadLib false [.message .atEnd loadBroadcast] := rfl
  rw [twice, once]
  simp only [trace, List.foldl_cons, List.foldl_nil, next, happened, pair_entries]
  rfl

end

end NetworkDiscovery.DiscoveryNetwork

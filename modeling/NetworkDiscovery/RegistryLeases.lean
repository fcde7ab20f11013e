import NetworkDiscovery.Library.LeaseTable
import NetworkDiscovery.ExpirySweep
import NetworkDiscovery.RegistryHistory

/-! The registry as a table of leases. An entry of a service renews its lease
up to the time at which the record expires, and a sweep ends the leases that
have run out. So the messages and the clock readings alone tell which services
are registered, whatever was removed or announced again in between. -/

namespace NetworkDiscovery.RegistryLeases
open ServiceDiscoveryClient ServiceDiscoveryRecord RegistryHistory

/-- The nanosecond at which a record expires. -/
def leaseEnd (last timeout : ℤ) : ℤ :=
  last * 10 ^ 9 + if 0 ≤ timeout then (timeout + 1) * 10 ^ 9 else timeout * 10 ^ 9 + 1

theorem overdue_iff_leaseEnd (now last timeout : ℤ) :
    Overdue now last timeout ↔ leaseEnd last timeout ≤ now := by
  have ⟨positive, negative⟩ := overdue_iff now last timeout
  rw [leaseEnd]
  by_cases sign : 0 ≤ timeout
  · rw [positive sign, if_pos sign]
    omega
  · rw [negative (by omega), if_neg sign]
    omega

def recordLease (r : ServiceDiscoveryRecord) : ℤ :=
  leaseEnd r.lastHeartbeat.toInt r.heartbeatTimeout.toInt

theorem InClockRange.fits {now : Int64} (range : InClockRange now) (heartbeat : Int32) :
    DifferenceFits now heartbeat := by
  have low := heartbeat.le_toInt
  have high := heartbeat.toInt_lt
  have ⟨early, late⟩ := range
  constructor <;> omega

theorem isExpired_iff_recordLease (r : ServiceDiscoveryRecord) (now : Int64) (heartbeat : Int32)
    (announced : r.lastHeartbeat = heartbeat.toInt64) (range : InClockRange now) :
    r.isExpired now = true ↔ recordLease r ≤ now.toInt := by
  rw [isExpired_of_fits r now heartbeat announced (InClockRange.fits range heartbeat),
    overdue_iff_leaseEnd, recordLease, announced, Int32.toInt_toInt64]

section
variable (lib : Nlohmann) (debug : Bool) (timeouts : String → Int32)

def renewal (e : Entry) : LeaseTable.Event String ℤ :=
  .renew e.serviceId (leaseEnd e.lastHeartbeat.toInt (timeouts e.serviceId).toInt)

def leaseEvents : Event → List (LeaseTable.Event String ℤ)
  | .message _ message => (messageEntries lib message).map (renewal timeouts)
  | .sweep clock => [.sweep fun x => (clock x).toInt]

def KeepsTimeout (x : String) (events : List Event) : Prop :=
  ∀ order message, .message order message ∈ events →
    ∀ e ∈ messageEntries lib message, e.serviceId = x → e.heartbeatTimeout = timeouts x

structure Mirrors (x : String) (services : Services) (table : String → Option ℤ) : Prop where
  lease : (services.find? x).map recordLease = table x
  timeout : ∀ record ∈ services.find? x, record.heartbeatTimeout = timeouts x
  heartbeat : ∀ record ∈ services.find? x, ∃ last : Int32, record.lastHeartbeat = last.toInt64

variable {timeouts} {x : String} {services : Services} {table : String → Option ℤ}

theorem Mirrors.recordEntry (mirrors : Mirrors timeouts x services table) (order : Order) (e : Entry)
    (keeps : e.serviceId = x → e.heartbeatTimeout = timeouts x) :
    Mirrors timeouts x (recordEntry debug order services e)
      (LeaseTable.step table (renewal timeouts e)) := by
  have found := find?_recordEntry debug order services e x
  by_cases own : e.serviceId = x
  · rw [if_pos own] at found
    have renewed : LeaseTable.step table (renewal timeouts e) x =
        some (leaseEnd e.lastHeartbeat.toInt (timeouts x).toInt) := by
      rw [renewal, own]
      exact Function.update_self ..
    have made : ∃ record, recordOne debug (services.find? x) e = some record ∧
        record.heartbeatTimeout = timeouts x ∧ record.lastHeartbeat = e.lastHeartbeat.toInt64 := by
      cases known : services.find? x with
      | none => exact ⟨_, rfl, keeps own, rfl⟩
      | some record => exact ⟨_, rfl, mirrors.timeout record known, rfl⟩
    obtain ⟨record, made, timeout, heartbeat⟩ := made
    rw [made] at found
    refine ⟨?_, ?_, ?_⟩
    · rw [found, renewed, Option.map_some, recordLease, heartbeat, timeout, Int32.toInt_toInt64]
    · rw [found]
      rintro _ ⟨⟩
      exact timeout
    · rw [found]
      rintro _ ⟨⟩
      exact ⟨_, heartbeat⟩
  · rw [if_neg own] at found
    have other : LeaseTable.step table (renewal timeouts e) x = table x :=
      Function.update_of_ne (Ne.symm own) _ _
    exact ⟨by rw [found, other]; exact mirrors.lease, by rw [found]; exact mirrors.timeout,
      by rw [found]; exact mirrors.heartbeat⟩

theorem Mirrors.recordAll (mirrors : Mirrors timeouts x services table) (order : Order)
    (es : List Entry) (keeps : ∀ e ∈ es, e.serviceId = x → e.heartbeatTimeout = timeouts x) :
    Mirrors timeouts x (es.foldl (ServiceDiscoveryClient.recordEntry debug order) services)
      ((es.map (renewal timeouts)).foldl LeaseTable.step table) := by
  induction es generalizing services table with
  | nil => exact mirrors
  | cons e rest ih =>
    have ⟨first, later⟩ := List.forall_mem_cons.mp keeps
    exact ih (mirrors.recordEntry debug order e first) later

theorem Mirrors.checkServices (mirrors : Mirrors timeouts x services table)
    (clock : String → Int64) (range : InClockRange (clock x)) :
    Mirrors timeouts x (checkServices clock services)
      (LeaseTable.step table (.sweep fun y => (clock y).toInt)) := by
  have found := find?_checkServices clock services x
  have kept : ∀ record ∈ (ServiceDiscoveryClient.checkServices clock services).find? x,
      record ∈ services.find? x := by
    rw [found]
    exact fun record member => (Option.filter_eq_some_iff.mp member).1
  refine ⟨?_, fun record member => mirrors.timeout record (kept record member),
    fun record member => mirrors.heartbeat record (kept record member)⟩
  rw [found]
  show _ = Option.filter _ (table x)
  rw [← mirrors.lease]
  cases known : services.find? x with
  | none => rfl
  | some record =>
    have ⟨last, announced⟩ := mirrors.heartbeat record known
    have expired := isExpired_iff_recordLease record (clock x) last announced range
    by_cases ended : recordLease record ≤ (clock x).toInt
    · rw [Option.filter_some, Option.map_some, Option.filter_some]
      simp [expired.mpr ended, ended]
    · have live : record.isExpired (clock x) = false := by
        rw [← Bool.not_eq_true, expired]
        exact ended
      rw [Option.filter_some, Option.map_some, Option.filter_some]
      simp [live, not_le.mp ended]

theorem mirrors_trace (events : List Event) (keeps : KeepsTimeout lib timeouts x events)
    (range : ∀ clock, .sweep clock ∈ events → InClockRange (clock x)) :
    Mirrors timeouts x (trace lib debug events).services
      (LeaseTable.run (events.flatMap (leaseEvents lib timeouts))) := by
  induction events using List.reverseRecOn with
  | nil => exact ⟨rfl, nofun, nofun⟩
  | append_singleton events event ih =>
    have before := ih (fun order message member => keeps order message (by simp [member]))
      (fun clock member => range clock (by simp [member]))
    have taken : (trace lib debug (events ++ [event])).services =
        step lib debug (trace lib debug events).services event := by
      rw [trace, List.foldl_concat]
      rfl
    have renewed : LeaseTable.run ((events ++ [event]).flatMap (leaseEvents lib timeouts)) =
        (leaseEvents lib timeouts event).foldl LeaseTable.step
          (LeaseTable.run (events.flatMap (leaseEvents lib timeouts))) := by
      rw [LeaseTable.run, List.flatMap_append, List.foldl_append, List.flatMap_singleton]
      rfl
    rw [taken, renewed]
    cases event with
    | message order message =>
      rw [RegistryHistory.step, servicesAfter_processMessage]
      exact before.recordAll debug order _ (keeps order message (by simp))
    | sweep clock => exact before.checkServices clock (range clock (by simp))

variable (timeouts x)

theorem spares_message (deadline : ℤ) (es : List Entry) :
    LeaseTable.Spares x deadline (es.map (renewal timeouts)) ↔ x ∉ es.map Entry.serviceId := by
  constructor
  · intro spared announced
    obtain ⟨e, member, rfl⟩ := List.mem_map.mp announced
    exact spared.1 _ (List.mem_map_of_mem member)
  · refine fun absent => ⟨fun other member => ?_, fun clock member => ?_⟩
    · obtain ⟨e, present, same⟩ := List.mem_map.mp member
      exact absent (List.mem_map.mpr ⟨e, present, (LeaseTable.Event.renew.inj same).1⟩)
    · obtain ⟨e, _, same⟩ := List.mem_map.mp member
      cases same

theorem spares_sweep (deadline : ℤ) (clock : String → Int64) :
    LeaseTable.Spares x deadline [.sweep fun y => (clock y).toInt] ↔ (clock x).toInt < deadline := by
  simp [LeaseTable.Spares]

theorem outlives_message (deadline : ℤ) (es : List Entry) :
    LeaseTable.Outlives x deadline (es.map (renewal timeouts)) ↔
      ∃ e, (entriesFor x es).getLast? = some e ∧
        leaseEnd e.lastHeartbeat.toInt (timeouts x).toInt = deadline := by
  induction es using List.reverseRecOn with
  | nil => simp [LeaseTable.not_outlives_nil, entriesFor]
  | append_singleton es e ih =>
    have spared : LeaseTable.Spares x deadline ([e].map (renewal timeouts)) ↔ e.serviceId ≠ x := by
      rw [spares_message]
      simp [eq_comm]
    have renewed : LeaseTable.Outlives x deadline ([e].map (renewal timeouts)) ↔ e.serviceId = x ∧
        leaseEnd e.lastHeartbeat.toInt (timeouts e.serviceId).toInt = deadline :=
      LeaseTable.outlives_renew_iff x deadline _ _
    rw [List.map_append, LeaseTable.outlives_append_iff, spared, renewed, ih, entriesFor_append,
      List.getLast?_append]
    by_cases own : e.serviceId = x
    · simp [own, entriesFor]
    · simp [own, entriesFor]

def LastEntryOutlives (events : List Event) : Prop :=
  ∃ before order message after e, events = before ++ .message order message :: after ∧
    (entriesFor x (messageEntries lib message)).getLast? = some e ∧
    (∀ order other, .message order other ∈ after →
      x ∉ (messageEntries lib other).map Entry.serviceId) ∧
    ∀ clock, .sweep clock ∈ after →
      (clock x).toInt < leaseEnd e.lastHeartbeat.toInt (timeouts x).toInt

theorem spares_leaseEvents (deadline : ℤ) (events : List Event) :
    (∀ event ∈ events, LeaseTable.Spares x deadline (leaseEvents lib timeouts event)) ↔
      (∀ order other, .message order other ∈ events →
        x ∉ (messageEntries lib other).map Entry.serviceId) ∧
      ∀ clock, .sweep clock ∈ events → (clock x).toInt < deadline := by
  constructor
  · refine fun spared => ⟨fun order other member => ?_, fun clock member => ?_⟩
    · exact (spares_message timeouts x deadline _).mp (spared _ member)
    · exact (spares_sweep x deadline clock).mp (spared _ member)
  · rintro ⟨messages, sweeps⟩ event member
    cases event with
    | message order other => exact (spares_message timeouts x deadline _).mpr (messages order other member)
    | sweep clock => exact (spares_sweep x deadline clock).mpr (sweeps clock member)

theorem registered_iff_lastEntryOutlives (events : List Event)
    (keeps : KeepsTimeout lib timeouts x events)
    (range : ∀ clock, .sweep clock ∈ events → InClockRange (clock x)) :
    ((trace lib debug events).services.find? x).isSome ↔
      LastEntryOutlives lib timeouts x events := by
  rw [← Option.isSome_map, (mirrors_trace lib debug events keeps range).lease,
    LeaseTable.run_isSome_iff]
  simp only [LeaseTable.outlives_flatMap_iff, spares_leaseEvents]
  constructor
  · rintro ⟨deadline, before, event, after, split, own, silent, swept⟩
    cases event with
    | message order message =>
      obtain ⟨e, last, rfl⟩ := (outlives_message timeouts x deadline _).mp own
      exact ⟨before, order, message, after, e, split, last, silent, swept⟩
    | sweep clock => exact absurd own (LeaseTable.not_outlives_sweep x deadline _)
  · rintro ⟨before, order, message, after, e, split, last, silent, swept⟩
    have own := (outlives_message timeouts x _ (messageEntries lib message)).mpr ⟨e, last, rfl⟩
    exact ⟨_, before, .message order message, after, split, own, silent, swept⟩

end

def timelyRun : List Event := [.message .atEnd sampleAnswer, .sweep fun _ => 1100000000000]

theorem sampleAnswer_entries : messageEntries sampleLib sampleAnswer = [sampleEntry "up"] := by
  rw [messageEntries_array sampleLib sampleAnswer [sampleDoc "up"] rfl sampleLib_answer]
  exact applied_of_announces _ _ _ (.cons (sampleDoc_announces "up") .nil)

theorem registered_timelyRun :
    ((trace sampleLib false timelyRun).services.find? "a").isSome := by
  refine (registered_iff_lastEntryOutlives sampleLib false (fun _ => 120) "a" timelyRun ?_ ?_).mpr
    ⟨[], .atEnd, sampleAnswer, [.sweep fun _ => 1100000000000], sampleEntry "up", rfl, ?_, ?_, ?_⟩
  · intro order message member e carried _
    obtain ⟨rfl, rfl⟩ : order = .atEnd ∧ message = sampleAnswer := by simpa [timelyRun] using member
    rw [sampleAnswer_entries] at carried
    rw [List.mem_singleton.mp carried]
    rfl
  · intro clock member
    obtain rfl : clock = fun _ => 1100000000000 := by simpa [timelyRun] using member
    constructor <;> decide
  · rw [sampleAnswer_entries]
    rfl
  · intro order other member
    simp at member
  · intro clock member
    obtain rfl : clock = fun _ => 1100000000000 := by simpa using member
    decide

end NetworkDiscovery.RegistryLeases

import NetworkDiscovery.HeartbeatPacing
import NetworkDiscovery.RegistryLeases

/-! The registry as a failure detector. Under bounds on the delays of the threads,
on the age of what a client has heard and on the errors of the clocks, a service
that keeps publishing is never dropped if its timeout covers its interval and the
bounds, and a service that has stopped is forgotten within a bounded time. -/

namespace NetworkDiscovery.DiscoveryNetwork
open ActionRuns ServiceDiscoveryClient ServiceDiscoveryRecord RegistryHistory RegistryLeases
open PeriodicTimes

/-- Bounds in nanoseconds, and what the system clock shows at the start. -/
structure Bounds where
  epoch : ℤ
  oversleep : ℕ
  latency : ℕ
  skew : ℕ

def Bounds.Shows (bounds : Bounds) (now : ℤ) (reading : Int64) : Prop :=
  bounds.epoch + now - bounds.skew ≤ reading.toInt ∧
    reading.toInt ≤ bounds.epoch + now + bounds.skew

def InHeartbeatRange (reading : Int64) : Prop :=
  0 ≤ reading.toInt ∧ reading.toInt < 2 ^ 31 * 10 ^ 9

theorem toInt_seconds (reading : Int64) (range : InHeartbeatRange reading) :
    (Int32.ofInt (reading / 1000000000).toInt).toInt = reading.toInt / 10 ^ 9 := by
  have ⟨nonneg, small⟩ := range
  have billion : (1000000000 : Int64).toInt = 1000000000 := by decide
  have quotient : (reading / 1000000000).toInt = reading.toInt / 10 ^ 9 := by
    rw [Int64.toInt_div_of_ne_right _ _ (by decide), billion, Int.tdiv_eq_ediv_of_nonneg nonneg]
    norm_num
  rw [Int32.toInt_ofInt_of_le] <;> omega

theorem leaseEnd_of_nonneg (last timeout : ℤ) (nonneg : 0 ≤ timeout) :
    leaseEnd last timeout = last * 10 ^ 9 + (timeout + 1) * 10 ^ 9 := by
  rw [leaseEnd, if_pos nonneg]

theorem leaseEnd_le (last timeout : ℤ) :
    leaseEnd last timeout ≤ last * 10 ^ 9 + (timeout + 1) * 10 ^ 9 := by
  rw [leaseEnd]
  split_ifs <;> omega

theorem expired_iff {ι : Type*} {settings : ι → Settings} {i : ι} (record : ServiceDiscoveryRecord)
    (p : Presence ι) (reading : Int64)
    (timeout : record.heartbeatTimeout = (settings i).client.heartbeatTimeout)
    (heartbeat : record.lastHeartbeat = (announcement settings p).lastHeartbeat.toInt64)
    (range : InClockRange reading) :
    record.isExpired reading = true ↔ leaseEnd (announcement settings p).lastHeartbeat.toInt
      (settings i).client.heartbeatTimeout.toInt ≤ reading.toInt := by
  rw [isExpired_iff_recordLease record reading _ heartbeat range, recordLease, heartbeat, timeout,
    Int32.toInt_toInt64]

def RelaysFresh {ι : Type*} (lib : Nlohmann) (bounds : Bounds) (s : Network ι) : Action ι → Prop
  | .processMessage _ _ message => ∀ docs, Broadcasts lib message docs →
      ∀ doc ∈ docs, WellFormedElement doc →
        ∃ p ∈ s.published, CopiesPresence lib p doc ∧ s.now ≤ p.sentAt + bounds.latency
  | _ => True

theorem relaysPublished_of_fresh {ι : Type*} {lib : Nlohmann} {bounds : Bounds} (t : Network ι)
    (a : Action ι) (relays : RelaysFresh lib bounds t a) :
    RelaysPublished lib t a := by
  cases a with
  | processMessage k order message =>
    intro docs broadcasts doc member well
    have ⟨p, published, copies, _⟩ := relays docs broadcasts doc member well
    exact ⟨p, published, copies⟩
  | _ => trivial

section
variable {ι : Type*} [DecidableEq ι] (lib : Nlohmann) (settings : ι → Settings) (bounds : Bounds)
  (i j : ι)

def ClocksAgree (s : Network ι) : Action ι → Prop
  | .heartbeat k reading => k = i → bounds.Shows s.now reading ∧ InHeartbeatRange reading
  | .checkServices k clock => k = j →
      bounds.Shows s.now (clock (settings i).client.serviceId) ∧
        InClockRange (clock (settings i).client.serviceId)
  | _ => True

/-- The peer has last heard of the service what is no older than the presences
that the service has sent before the latency. -/
def Heard (actions : List (Action ι)) (s : Network ι) : Prop :=
  ∀ p ∈ s.published, p.sender = i → p.sentAt + bounds.latency ≤ s.now →
    ∃ e, mostRecent (settings i).client.serviceId (history lib settings j actions).log = some e ∧
      (announcement settings p).lastHeartbeat.toInt ≤ e.lastHeartbeat.toInt

def Watchful (s : Network ι) : Prop :=
  s.now ≤ (s.nodes j).nextCheck + bounds.oversleep

instance (bounds : Bounds) (j : ι) (s : Network ι) : Decidable (Watchful bounds j s) :=
  inferInstanceAs (Decidable (_ ≤ _))

variable {lib settings bounds i j} {actions : List (Action ι)} {s : Network ι}

theorem run_shows (ran : run (step lib settings) (start settings) actions = some s)
    (clocks : Throughout (step lib settings) (ClocksAgree settings bounds i j) (start settings)
      actions) :
    ∀ p ∈ s.published, p.sender = i → bounds.Shows p.sentAt p.reading ∧ InHeartbeatRange p.reading := by
  intro p published own
  have ⟨before, after, t, split, reached, _, _, _, sentAt, _⟩ := run_sentIn ran p published
  have agree := clocks before (.heartbeat p.sender p.reading) after t split reached own
  rwa [sentAt]

theorem exists_leased (ran : run (step lib settings) (start settings) actions = some s)
    (relayed : Throughout (step lib settings) (RelaysPublished lib) (start settings) actions)
    (restored : Restored lib settings s)
    (unique : Function.Injective fun k => (settings k).client.serviceId)
    (record : ServiceDiscoveryRecord)
    (found : (s.nodes j).services.find? (settings i).client.serviceId = some record) :
    ∃ p ∈ s.published, p.sender = i ∧ record.heartbeatTimeout = (settings i).client.heartbeatTimeout ∧
      record.lastHeartbeat = (announcement settings p).lastHeartbeat.toInt64 ∧
      mostRecent (settings i).client.serviceId (history lib settings j actions).log =
        some (announcement settings p) := by
  have ⟨first, _, last, published, repeats, recent⟩ :=
    exists_repeats ran relayed restored j _ record found
  have sender : first.sender = i := unique repeats.firstId
  exact ⟨last, published, unique repeats.lastId, sender ▸ repeats.timeout, repeats.heartbeat, recent⟩

/-! ### Accuracy -/

def Covered (settings : ι → Settings) (bounds : Bounds) (i : ι) : Prop :=
  period (settings i).heartbeatInterval + bounds.oversleep + bounds.latency + 2 * bounds.skew ≤
    (settings i).client.heartbeatTimeout.toInt * 10 ^ 9

instance (settings : ι → Settings) (bounds : Bounds) (i : ι) :
    Decidable (Covered settings bounds i) :=
  inferInstanceAs (Decidable (_ ≤ _))

theorem lease_covers (ran : run (step lib settings) (start settings) actions = some s)
    (clocks : Throughout (step lib settings) (ClocksAgree settings bounds i j) (start settings)
      actions)
    (covers : Covers (period (settings i).heartbeatInterval + bounds.oversleep) s.now (beats s i))
    (heard : Heard lib settings bounds i j actions s) (covered : Covered settings bounds i)
    (p : Presence ι) (published : p ∈ s.published) (own : p.sender = i)
    (recent : mostRecent (settings i).client.serviceId (history lib settings j actions).log =
      some (announcement settings p)) (reading : Int64) (shows : bounds.Shows s.now reading) :
    reading.toInt < leaseEnd (announcement settings p).lastHeartbeat.toInt
      (settings i).client.heartbeatTimeout.toInt := by
  have sent := run_shows ran clocks
  have seconds (q : Presence ι) (member : q ∈ s.published) (mine : q.sender = i) :
      (announcement settings q).lastHeartbeat.toInt = q.reading.toInt / 10 ^ 9 :=
    toInt_seconds q.reading (sent q member mine).2
  -- a presence that is not older than the last entry and not too old for the timeout
  obtain ⟨q, member, mine, not_older, young⟩ : ∃ q ∈ s.published, q.sender = i ∧
      (announcement settings q).lastHeartbeat.toInt ≤ (announcement settings p).lastHeartbeat.toInt ∧
      s.now ≤ q.sentAt + period (settings i).heartbeatInterval + bounds.oversleep +
        bounds.latency := by
    by_cases old : p.sentAt + bounds.latency ≤ s.now
    · have since : ∃ t ∈ beats s i, t ≤ s.now - bounds.latency :=
        ⟨p.sentAt, (mem_beats s i _).mpr ⟨p, published, own, rfl⟩, by omega⟩
      have ⟨t, beat, past, close⟩ := covers (s.now - bounds.latency) (by omega) since
      obtain ⟨q, member, mine, rfl⟩ := (mem_beats s i t).mp beat
      have ⟨e, last, later⟩ := heard q member mine (by omega)
      rw [recent, Option.some_inj] at last
      exact ⟨q, member, mine, last ▸ later, by omega⟩
    · have nonneg := period_nonneg (settings i).heartbeatInterval
      exact ⟨p, published, own, le_rfl, by omega⟩
  have nonneg := period_nonneg (settings i).heartbeatInterval
  have ⟨⟨low, _⟩, _⟩ := sent q member mine
  have ⟨_, high⟩ := shows
  rw [Covered] at covered
  rw [seconds q member mine] at not_older
  rw [leaseEnd_of_nonneg _ _ (by omega)]
  omega

theorem sinceRemoval_of_kept (x : String) (log : List Happening) (kept : .removed x ∉ log) :
    sinceRemoval x log = log.filterMap (Happening.entryFor x) := by
  have whole : log.reverse.takeWhile (· ≠ .removed x) = log.reverse := by
    refine List.takeWhile_eq_self_iff.mpr fun happening member => ?_
    rw [decide_eq_true_iff]
    rintro rfl
    exact kept (List.mem_reverse.mp member)
  rw [sinceRemoval, whole, List.reverse_reverse]

theorem removed_by_sweep (lib : Nlohmann) (services : Services) (clock : String → Int64) (x : String)
    (removed : .removed x ∈ happened lib services (.sweep clock)) :
    ∃ record, services.find? x = some record ∧ record.isExpired (clock x) = true := by
  rw [happened, List.mem_map] at removed
  obtain ⟨y, gone, same⟩ := removed
  obtain rfl := Happening.removed.inj same
  obtain ⟨registered, dropped⟩ := List.mem_filter.mp gone
  rw [UnorderedMap.mem_keys] at registered
  obtain ⟨record, found⟩ := Option.isSome_iff_exists.mp registered
  refine ⟨record, found, ?_⟩
  by_contra live
  have kept : (checkServices clock services).find? y = some record := by
    rw [find?_checkServices, found, Option.filter_some, if_pos (by simpa using live)]
  rw [kept] at dropped
  cases dropped

theorem kept_by_sweep (ran : run (step lib settings) (start settings) actions = some s)
    (undisturbed : Always (step lib settings) (fun before t => (Steady i t ∧
      Prompt i bounds.oversleep t) ∧ Heard lib settings bounds i j before t) (start settings) actions)
    (relayed : Throughout (step lib settings) (RelaysPublished lib) (start settings) actions)
    (clocks : Throughout (step lib settings) (ClocksAgree settings bounds i j) (start settings)
      actions) (restored : Restored lib settings s)
    (unique : Function.Injective fun k => (settings k).client.serviceId)
    (covered : Covered settings bounds i) (clock : String → Int64)
    (shows : bounds.Shows s.now (clock (settings i).client.serviceId))
    (range : InClockRange (clock (settings i).client.serviceId)) :
    .removed (settings i).client.serviceId ∉ happened lib (history lib settings j actions).services
      (.sweep clock) := by
  intro removed
  have ⟨record, found, expired⟩ := removed_by_sweep lib _ clock _ removed
  rw [← run_services ran] at found
  have ⟨p, published, own, timeout, heartbeat, recent⟩ :=
    exists_leased ran relayed restored unique record found
  have covers := heartbeats_regular lib settings i bounds.oversleep actions s ran
    fun before after t split reached => (undisturbed before after t split reached).1
  have heard := (always_last _ undisturbed ran).2
  have live := lease_covers ran clocks covers heard covered p published own recent _ shows
  exact absurd ((expired_iff record p _ timeout heartbeat range).mp expired) (not_le.mpr live)

theorem never_removed (actions : List (Action ι)) (s : Network ι)
    (ran : run (step lib settings) (start settings) actions = some s)
    (undisturbed : Always (step lib settings) (fun before t => (Steady i t ∧
      Prompt i bounds.oversleep t) ∧ Heard lib settings bounds i j before t) (start settings) actions)
    (proper : Throughout (step lib settings) (fun t a => RelaysPublished lib t a ∧
      ClocksAgree settings bounds i j t a) (start settings) actions)
    (restored : Restored lib settings s)
    (unique : Function.Injective fun k => (settings k).client.serviceId)
    (covered : Covered settings bounds i) :
    .removed (settings i).client.serviceId ∉ (history lib settings j actions).log := by
  revert restored
  refine run_induction_under (step lib settings) ?_ ?_ actions s ran undisturbed proper
  · exact fun _ => List.not_mem_nil
  · intro actions t a t' reached undisturbed proper ih taken restored removed
    have earlier (p : Presence ι) (known : p ∈ t.published) :=
      restored p ((published_grows t t' a taken).subset known)
    have before := always_left _ undisturbed
    have proper' := (throughout_append _ _ _ t actions [a] reached proper).1
    obtain ⟨_, agree⟩ := proper actions a [] t rfl reached
    rw [history_concat] at removed
    cases event : eventOf j a with
    | none =>
      rw [event] at removed
      exact ih earlier removed
    | some event' =>
      rw [event] at removed
      have fresh := (List.mem_append.mp removed).resolve_left (ih earlier)
      cases a with
      | checkServices k clock =>
        rw [eventOf] at event
        split_ifs at event with same
        obtain rfl := Option.some.inj event
        obtain ⟨shows, range⟩ := agree same
        exact kept_by_sweep reached before (throughout_mono _ (fun _ _ both => both.1) proper')
          (throughout_mono _ (fun _ _ both => both.2) proper') earlier unique covered clock shows
          range fresh
      | processMessage k order message =>
        rw [eventOf] at event
        split_ifs at event
        obtain rfl := Option.some.inj event
        obtain ⟨_, _, impossible⟩ := List.mem_map.mp fresh
        cases impossible
      | _ => cases event

theorem registered_of_kept (debug : Bool) (t : Traced) (tracks : Tracks debug t) (x : String)
    (kept : .removed x ∉ t.log) :
    (t.services.find? x).isSome ↔ ∃ e, .applied e ∈ t.log ∧ e.serviceId = x := by
  rw [registered_iff debug t tracks, sinceRemoval_of_kept _ _ kept]
  constructor
  · intro some
    obtain ⟨e, member⟩ := List.exists_mem_of_ne_nil _ some
    rw [← sinceRemoval_of_kept _ _ kept] at member
    exact ⟨e, mem_sinceRemoval _ _ e member⟩
  · rintro ⟨e, applied, own⟩
    refine List.ne_nil_of_mem (a := e) (List.mem_filterMap.mpr ⟨_, applied, ?_⟩)
    rw [Happening.entryFor, if_pos own]

variable (lib settings bounds i j)

variable {lib settings bounds i j}

theorem fresh_entry (ran : run (step lib settings) (start settings) actions = some s)
    (restored : Restored lib settings s)
    (unique : Function.Injective fun k => (settings k).client.serviceId) (k : ι) (order : Order)
    (message : Message) (relays : RelaysFresh lib bounds s (.processMessage k order message))
    (announced : (settings i).client.serviceId ∈ (messageEntries lib message).map Entry.serviceId) :
    ∃ p ∈ s.published, p.sender = i ∧ s.now ≤ p.sentAt + bounds.latency := by
  have ⟨e, member, own⟩ := List.mem_map.mp announced
  have ⟨docs, broadcasts, doc, inside, well, carries⟩ := mem_messageEntries message e member
  have ⟨p, published, copies, young⟩ := relays docs broadcasts doc inside well
  have printed := (run_published ran p published).2
  have read := asEntry_copied p doc printed (restored p published) copies
  obtain rfl := Option.some.inj (carries.symm.trans read)
  exact ⟨p, published, unique own, young⟩

theorem fresh_survivor (ran : run (step lib settings) (start settings) actions = some s)
    (relayed : Throughout (step lib settings) (RelaysPublished lib) (start settings) actions)
    (clocks : Throughout (step lib settings) (ClocksAgree settings bounds i j) (start settings)
      actions) (restored : Restored lib settings s)
    (unique : Function.Injective fun k => (settings k).client.serviceId) (clock : String → Int64)
    (shows : bounds.Shows s.now (clock (settings i).client.serviceId))
    (range : InClockRange (clock (settings i).client.serviceId))
    (survives : ((checkServices clock (s.nodes j).services).find?
      (settings i).client.serviceId).isSome) :
    ∃ p ∈ s.published, p.sender = i ∧ s.now < p.sentAt +
      (((settings i).client.heartbeatTimeout.toInt + 1) * 10 ^ 9 + 2 * bounds.skew) := by
  have ⟨record, kept⟩ := Option.isSome_iff_exists.mp survives
  rw [find?_checkServices, Option.filter_eq_some_iff] at kept
  have ⟨found, live⟩ := kept
  have ⟨p, published, own, timeout, heartbeat, _⟩ :=
    exists_leased ran relayed restored unique record found
  have ⟨⟨_, high⟩, small⟩ := run_shows ran clocks p published own
  have unexpired : ¬record.isExpired (clock (settings i).client.serviceId) = true := by
    simpa using live
  rw [expired_iff record p _ timeout heartbeat range, not_le] at unexpired
  have ended := leaseEnd_le (announcement settings p).lastHeartbeat.toInt
    (settings i).client.heartbeatTimeout.toInt
  have seconds : (announcement settings p).lastHeartbeat.toInt = p.reading.toInt / 10 ^ 9 :=
    toInt_seconds p.reading small
  have ⟨low, _⟩ := shows
  rw [seconds] at ended unexpired
  exact ⟨p, published, own, by omega⟩

variable (settings bounds i j)

def remembered : ℤ :=
  max bounds.latency (((settings i).client.heartbeatTimeout.toInt + 1) * 10 ^ 9 + 2 * bounds.skew)

structure Detecting (s : Network ι) : Prop where
  asleep : (s.nodes j).nextCheck ≤ s.now + period (settings j).serviceCheckInterval
  fresh : ((s.nodes j).services.find? (settings i).client.serviceId).isSome →
    ∃ p ∈ s.published, p.sender = i ∧ (s.nodes j).nextCheck ≤
      p.sentAt + remembered settings bounds i + period (settings j).serviceCheckInterval

variable {settings bounds i j}

theorem registered_from (t t' : Network ι) (a : Action ι)
    (taken : step lib settings t a = some t') (unswept : ∀ clock, a ≠ .checkServices j clock)
    (x : String) (registered : ((t'.nodes j).services.find? x).isSome) :
    ((t.nodes j).services.find? x).isSome ∨ ∃ order message, a = .processMessage j order message ∧
      x ∈ (messageEntries lib message).map Entry.serviceId := by
  have services := (step_effect lib settings t t' a taken).services j
  by_cases received : ∃ order message, a = .processMessage j order message
  · obtain ⟨order, message, rfl⟩ := received
    rw [eventOf, if_pos rfl] at services
    have applied : (t'.nodes j).services = servicesAfter
        (processMessage lib (settings j).debug order message) (t.nodes j).services := services
    by_cases announced : x ∈ (messageEntries lib message).map Entry.serviceId
    · exact .inr ⟨order, message, rfl, announced⟩
    · rw [applied, servicesAfter_processMessage, find?_recordAll,
        (entriesFor_eq_nil _ _).mpr announced] at registered
      exact .inl registered
  · have uneventful : eventOf j a = none := by
      cases a with
      | checkServices k clock => exact if_neg fun own => unswept clock (by rw [own])
      | processMessage k order message =>
        exact if_neg fun own => received ⟨order, message, by rw [own]⟩
      | _ => rfl
    rw [uneventful] at services
    have unchanged : (t'.nodes j).services = (t.nodes j).services := services
    exact .inl (unchanged ▸ registered)

theorem detecting_sweep (t t' : Network ι) (clock : String → Int64)
    (reached : run (step lib settings) (start settings) actions = some t)
    (taken : step lib settings t (.checkServices j clock) = some t')
    (relayed : Throughout (step lib settings) (RelaysPublished lib) (start settings) actions)
    (clocks : Throughout (step lib settings) (ClocksAgree settings bounds i j) (start settings)
      actions) (restored : Restored lib settings t)
    (unique : Function.Injective fun k => (settings k).client.serviceId)
    (agree : ClocksAgree settings bounds i j t (.checkServices j clock)) :
    Detecting settings bounds i j t' := by
  have effect := step_effect lib settings t t' _ taken
  have later := later_step t t' _ taken
  have grown := (published_grows t t' _ taken).subset
  have services := effect.services j
  have slept := (effect.checks j clock rfl).2
  have shows := (agree rfl).1
  have range := (agree rfl).2
  rw [eventOf, if_pos rfl] at services
  rw [sleepUntil_eq] at slept
  refine ⟨by omega, fun survives => ?_⟩
  rw [services] at survives
  obtain ⟨p, published, own, young⟩ :=
    fresh_survivor reached relayed clocks restored unique clock shows range survives
  have longer := le_max_right (bounds.latency : ℤ)
    (((settings i).client.heartbeatTimeout.toInt + 1) * 10 ^ 9 + 2 * bounds.skew)
  exact ⟨p, grown published, own, by rw [slept, remembered]; omega⟩

theorem detecting_step (t t' : Network ι) (a : Action ι)
    (reached : run (step lib settings) (start settings) actions = some t)
    (taken : step lib settings t a = some t') (detecting : Detecting settings bounds i j t)
    (relayed : Throughout (step lib settings) (RelaysPublished lib) (start settings) actions)
    (clocks : Throughout (step lib settings) (ClocksAgree settings bounds i j) (start settings)
      actions) (restored : Restored lib settings t)
    (unique : Function.Injective fun k => (settings k).client.serviceId)
    (relays : RelaysFresh lib bounds t a) (agree : ClocksAgree settings bounds i j t a) :
    Detecting settings bounds i j t' := by
  by_cases sweep : ∃ clock, a = .checkServices j clock
  · obtain ⟨clock, rfl⟩ := sweep
    exact detecting_sweep t t' clock reached taken relayed clocks restored unique agree
  · have unswept (clock : String → Int64) : a ≠ .checkServices j clock :=
      fun is => sweep ⟨clock, is⟩
    have same := (step_effect lib settings t t' a taken).nextCheck j unswept
    have later := later_step t t' a taken
    have grown := (published_grows t t' a taken).subset
    have asleep := detecting.asleep
    refine ⟨by omega, fun registered => ?_⟩
    rcases registered_from t t' a taken unswept _ registered with
      before | ⟨order, message, rfl, announced⟩
    · obtain ⟨p, published, own, young⟩ := detecting.fresh before
      exact ⟨p, grown published, own, same ▸ young⟩
    · obtain ⟨p, published, own, young⟩ :=
        fresh_entry reached restored unique j order message relays announced
      have longer := le_max_left (bounds.latency : ℤ)
        (((settings i).client.heartbeatTimeout.toInt + 1) * 10 ^ 9 + 2 * bounds.skew)
      exact ⟨p, grown published, own, by rw [same, remembered]; omega⟩

variable (lib settings bounds i j)

/-- A registered service has published recently: within the longer of the latency
and its timeout, a sleep of the monitor thread and the errors of clocks and threads. -/
theorem silence_detected (actions : List (Action ι)) (s : Network ι)
    (ran : run (step lib settings) (start settings) actions = some s)
    (watchful : Always (step lib settings) (fun _ t => Watchful bounds j t) (start settings) actions)
    (proper : Throughout (step lib settings) (fun t a => RelaysFresh lib bounds t a ∧
      ClocksAgree settings bounds i j t a) (start settings) actions)
    (restored : Restored lib settings s)
    (unique : Function.Injective fun k => (settings k).client.serviceId)
    (registered : ((s.nodes j).services.find? (settings i).client.serviceId).isSome) :
    ∃ p ∈ s.published, p.sender = i ∧ s.now ≤ p.sentAt + (remembered settings bounds i +
      period (settings j).serviceCheckInterval + bounds.oversleep) := by
  have detecting : Detecting settings bounds i j s := by
    clear registered
    revert restored
    refine run_induction_under (step lib settings) ?_ ?_ actions s ran watchful proper
    · refine fun _ => ⟨?_, nofun⟩
      have nonneg := period_nonneg (settings j).serviceCheckInterval
      exact nonneg.trans (zero_add _).ge
    · intro actions t a t' reached _ proper ih taken restored
      have earlier (p : Presence ι) (known : p ∈ t.published) :=
        restored p ((published_grows t t' a taken).subset known)
      have proper' := (throughout_append _ _ _ t actions [a] reached proper).1
      have ⟨relays, agree⟩ := proper actions a [] t rfl reached
      exact detecting_step t t' a reached taken (ih earlier)
        (throughout_mono _ (fun _ _ both => relaysPublished_of_fresh _ _ both.1) proper')
        (throughout_mono _ (fun _ _ both => both.2) proper') earlier unique relays agree
  have ⟨p, published, own, young⟩ := detecting.fresh registered
  have awake := always_last _ watchful ran
  rw [Watchful] at awake
  exact ⟨p, published, own, by omega⟩

end

section
open ClientMembers

/-- A heartbeat of the first client, heard by the second at once and swept twice. -/
def watchedActions : List (Action Bool) :=
  [.addMetadata false (.int "load" 7), .connection false true, .heartbeat false 5000000000,
    .processMessage true .atEnd loadBroadcast, .checkServices true fun _ => 5000000000,
    .wait 5000000000, .checkServices true fun _ => 10000000000]

def watchedBounds : Bounds := ⟨5000000000, 0, 1000000000, 0⟩

theorem watched_ran : ∃ s, run (step loadLib pairSettings) (start pairSettings) watchedActions =
    some s ∧ s.now = 5000000000 ∧ s.published = [pairPresence] :=
  ⟨_, rfl, rfl, rfl⟩

theorem mostRecent_sweep (lib : Nlohmann) (debug : Bool) (t : Traced) (clock : String → Int64)
    (x : String) : mostRecent x (next lib debug t (.sweep clock)).log = mostRecent x t.log := by
  have unheard (ids : List String) :
      (ids.map Happening.removed).filterMap (Happening.entryFor x) = [] := by
    simp [Happening.entryFor]
  rw [next, happened, mostRecent, List.filterMap_append, unheard, List.append_nil, mostRecent]

theorem watched_recent (clocks : List (String → Int64)) :
    mostRecent "a" (trace loadLib false (.message .atEnd loadBroadcast :: clocks.map .sweep)).log =
      some (announcement pairSettings pairPresence) := by
  induction clocks using List.reverseRecOn with
  | nil =>
    simp only [List.map_nil, trace, List.foldl_cons, List.foldl_nil, next, happened, pair_entries]
    rfl
  | append_singleton clocks clock ih =>
    have last : trace loadLib false (.message .atEnd loadBroadcast :: (clocks ++ [clock]).map .sweep) =
        next loadLib false (trace loadLib false (.message .atEnd loadBroadcast :: clocks.map .sweep))
          (.sweep clock) := by
      rw [List.map_append, ← List.cons_append, trace, List.foldl_append]
      rfl
    rw [last, mostRecent_sweep, ih]

theorem watched_proper : Throughout (step loadLib pairSettings) (fun t a =>
    RelaysFresh loadLib watchedBounds t a ∧ ClocksAgree pairSettings watchedBounds false true t a)
      (start pairSettings) watchedActions := by
  refine throughout_cons _ _ _ _ _ ⟨trivial, trivial⟩ fun t taken => ?_
  obtain rfl := Option.some.inj taken
  refine throughout_cons _ _ _ _ _ ⟨trivial, trivial⟩ fun t taken => ?_
  obtain rfl := Option.some.inj taken
  refine throughout_cons _ _ _ _ _ ⟨trivial, fun _ => ?_⟩ fun t taken => ?_
  · exact ⟨by constructor <;> decide, by constructor <;> decide⟩
  obtain rfl := Option.some.inj taken
  refine throughout_cons _ _ _ _ _ ⟨fun docs broadcasts doc member _ => ?_, trivial⟩ fun t taken => ?_
  · exact ⟨pairPresence, List.mem_cons_self, loadBroadcast_copies docs broadcasts doc member, by decide⟩
  obtain rfl := Option.some.inj taken
  refine throughout_cons _ _ _ _ _ ⟨trivial, fun _ => ?_⟩ fun t taken => ?_
  · exact ⟨by constructor <;> decide, by constructor <;> decide⟩
  obtain rfl := Option.some.inj taken
  refine throughout_cons _ _ _ _ _ ⟨trivial, trivial⟩ fun t taken => ?_
  obtain rfl := Option.some.inj taken
  refine throughout_cons _ _ _ _ _ ⟨trivial, fun _ => ?_⟩ fun t taken => throughout_nil _ _ _
  exact ⟨by constructor <;> decide, by constructor <;> decide⟩

theorem watched_heard (before : List (Action Bool)) (t : Network Bool)
    (only : ∀ p ∈ t.published, p = pairPresence)
    (recent : 1000000000 ≤ t.now → mostRecent "a" (history loadLib pairSettings true before).log =
      some (announcement pairSettings pairPresence)) :
    Heard loadLib pairSettings watchedBounds false true before t := by
  intro p member _ late
  obtain rfl := only p member
  exact ⟨_, recent ((zero_add _).ge.trans late), le_rfl⟩

theorem watched_undisturbed : Always (step loadLib pairSettings) (fun before t =>
    (Steady false t ∧ Prompt false watchedBounds.oversleep t) ∧
      Heard loadLib pairSettings watchedBounds false true before t)
      (start pairSettings) watchedActions := by
  have none (before : List (Action Bool)) (t : Network Bool) (empty : t.published = []) :=
    watched_heard before t (by simp [empty])
  have one (before : List (Action Bool)) (t : Network Bool) (alone : t.published = [pairPresence]) :=
    watched_heard before t (by simp [alone])
  have early {P : Prop} {now : ℤ} (zero : now = 0) (late : 1000000000 ≤ now) : P := by omega
  refine always_cons _ ⟨⟨absurd rfl, by decide⟩, none _ _ rfl (early rfl)⟩ fun t taken => ?_
  obtain rfl := Option.some.inj taken
  refine always_cons _ ⟨⟨absurd rfl, by decide⟩, none _ _ rfl (early rfl)⟩ fun t taken => ?_
  obtain rfl := Option.some.inj taken
  refine always_cons _ ⟨⟨absurd rfl, by decide⟩, none _ _ rfl (early rfl)⟩ fun t taken => ?_
  obtain rfl := Option.some.inj taken
  refine always_cons _ ⟨⟨fun _ => ⟨rfl, rfl⟩, by decide⟩, one _ _ rfl (early rfl)⟩ fun t taken => ?_
  obtain rfl := Option.some.inj taken
  refine always_cons _ ⟨⟨fun _ => ⟨rfl, rfl⟩, by decide⟩, one _ _ rfl (early rfl)⟩ fun t taken => ?_
  obtain rfl := Option.some.inj taken
  refine always_cons _ ⟨⟨fun _ => ⟨rfl, rfl⟩, by decide⟩, one _ _ rfl (early rfl)⟩ fun t taken => ?_
  obtain rfl := Option.some.inj taken
  have swept := watched_recent [fun _ => 5000000000]
  refine always_cons _ ⟨⟨fun _ => ⟨rfl, rfl⟩, by decide⟩, one _ _ rfl fun _ => swept⟩ fun t taken => ?_
  obtain rfl := Option.some.inj taken
  have swept := watched_recent [fun _ => 5000000000, fun _ => 10000000000]
  exact always_nil _ ⟨⟨fun _ => ⟨rfl, rfl⟩, by decide⟩, one _ _ rfl fun _ => swept⟩

theorem watched_found {s : Network Bool}
    (ran : run (step loadLib pairSettings) (start pairSettings) watchedActions = some s) :
    (s.nodes true).services.find? "a" = some pairRecord := by
  have same : history loadLib pairSettings true watchedActions = trace loadLib false
      [.message .atEnd loadBroadcast, .sweep fun _ => 5000000000, .sweep fun _ => 10000000000] := rfl
  rw [run_services ran, same]
  simp only [trace, List.foldl_cons, List.foldl_nil, next, RegistryHistory.step]
  rw [find?_checkServices, find?_checkServices, servicesAfter_processMessage, pair_entries,
    find?_recordAll]
  rfl

theorem silence_detected_watched : ∃ p ∈ [pairPresence], p.sender = false ∧ 5000000000 ≤ p.sentAt +
    (remembered pairSettings watchedBounds false + period 5 + 0) := by
  have ⟨s, ran, now, published⟩ := watched_ran
  have detected := silence_detected loadLib pairSettings watchedBounds false true watchedActions s ran
    ?_ watched_proper (pair_restored published) pair_unique
    (Option.isSome_iff_exists.mpr ⟨_, watched_found ran⟩)
  · rw [now, published] at detected
    exact detected
  · refine always_cons _ (by decide) fun t taken => ?_
    obtain rfl := Option.some.inj taken
    refine always_cons _ (by decide) fun t taken => ?_
    obtain rfl := Option.some.inj taken
    refine always_cons _ (by decide) fun t taken => ?_
    obtain rfl := Option.some.inj taken
    refine always_cons _ (by decide) fun t taken => ?_
    obtain rfl := Option.some.inj taken
    refine always_cons _ (by decide) fun t taken => ?_
    obtain rfl := Option.some.inj taken
    refine always_cons _ (by decide) fun t taken => ?_
    obtain rfl := Option.some.inj taken
    refine always_cons _ (by decide) fun t taken => ?_
    obtain rfl := Option.some.inj taken
    exact always_nil _ (by decide)

end

end NetworkDiscovery.DiscoveryNetwork

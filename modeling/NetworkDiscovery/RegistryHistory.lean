import NetworkDiscovery.MessageEffects

/-! Serial runs of messages and sweeps from the empty registry. A run leaves a
log of the entries it applied and the ids its sweeps removed, and the record of
an id is at all times what its entries since its last removal make of nothing.
The state of the registry, the verdicts of a sweep and the agreement of the
views are read off that one invariant. -/

namespace NetworkDiscovery.RegistryHistory
open ServiceDiscoveryClient

/-- A call of the run. The order says where the insertions of a message put
their records, the clock what a sweep reads when it examines the record of an id. -/
inductive Event
  | message (order : Order) (message : Message)
  | sweep (clock : String → Int64)

inductive Happening
  | applied (e : Entry)
  | removed (id : String)
  deriving DecidableEq

structure Traced where
  services : Services
  log : List Happening

section
variable (lib : Nlohmann) (debug : Bool)

def step (services : Services) : Event → Services
  | .message order message => servicesAfter (processMessage lib debug order message) services
  | .sweep clock => checkServices clock services

def happened (services : Services) : Event → List Happening
  | .message _ message => (messageEntries lib message).map .applied
  | .sweep clock => (services.keys.filter fun id =>
      ((checkServices clock services).find? id).isNone).map .removed

def next (t : Traced) (event : Event) : Traced :=
  ⟨step lib debug t.services event, t.log ++ happened lib t.services event⟩

def trace (events : List Event) : Traced :=
  events.foldl (next lib debug) ⟨.empty, []⟩

end

def Happening.entryFor (x : String) : Happening → Option Entry
  | .applied e => if e.serviceId = x then some e else none
  | .removed _ => none

def sinceRemoval (x : String) (log : List Happening) : List Entry :=
  (log.reverse.takeWhile (· ≠ .removed x)).reverse.filterMap (Happening.entryFor x)

def mostRecent (x : String) (log : List Happening) : Option Entry :=
  (log.filterMap (Happening.entryFor x)).getLast?

theorem sinceRemoval_removed (x y : String) (log : List Happening) :
    sinceRemoval x (log ++ [.removed y]) = if y = x then [] else sinceRemoval x log := by
  by_cases same : y = x
  · subst same
    simp [sinceRemoval]
  · simp [sinceRemoval, same, Happening.entryFor]

theorem sinceRemoval_applied (x : String) (log : List Happening) (es : List Entry) :
    sinceRemoval x (log ++ es.map .applied) = sinceRemoval x log ++ entriesFor x es := by
  induction es generalizing log with
  | nil => simp [entriesFor]
  | cons e rest ih =>
    have one : sinceRemoval x (log ++ [.applied e]) = sinceRemoval x log ++ entriesFor x [e] := by
      by_cases same : e.serviceId = x <;>
        simp [sinceRemoval, Happening.entryFor, entriesFor, same]
    rw [List.map_cons, List.append_cons, ih, one, List.append_assoc, ← entriesFor_append]
    rfl

theorem sinceRemoval_swept (x : String) (log : List Happening) (ids : List String) :
    sinceRemoval x (log ++ ids.map .removed) =
      if x ∈ ids then [] else sinceRemoval x log := by
  induction ids generalizing log with
  | nil => simp
  | cons y rest ih =>
    rw [List.map_cons, List.append_cons, ih, sinceRemoval_removed]
    by_cases same : y = x
    · simp [same]
    · simp [same, Ne.symm same]

theorem getLast?_sinceRemoval (x : String) (log : List Happening) (h : sinceRemoval x log ≠ []) :
    (sinceRemoval x log).getLast? = mostRecent x log := by
  have split : log = (log.reverse.dropWhile (· ≠ .removed x)).reverse ++
      (log.reverse.takeWhile (· ≠ .removed x)).reverse := by
    rw [← List.reverse_append, List.takeWhile_append_dropWhile, List.reverse_reverse]
  rw [mostRecent]
  conv_rhs => rw [split]
  rw [List.filterMap_append, List.getLast?_append]
  obtain ⟨last, final⟩ := Option.isSome_iff_exists.mp (List.getLast?_isSome.mpr h)
  rw [sinceRemoval] at final ⊢
  rw [final]
  rfl

theorem find?_checkServices (clock : String → Int64) (services : Services) (x : String) :
    (checkServices clock services).find? x =
      (services.find? x).filter fun record => !record.isExpired (clock x) := by
  have same : (checkServices clock services).entries =
      (services.filter fun it => !it.2.isExpired (clock it.1)).entries := by
    show checkFrom clock [] services.entries = _
    rw [checkFrom_eq, List.nil_append]
    rfl
  rw [UnorderedMap.find?, same]
  exact services.find?_filter _ x

section
variable (lib : Nlohmann) (debug : Bool)

/-- Every record is what its entries since its last removal make of nothing. -/
def Tracks (t : Traced) : Prop :=
  ∀ x, t.services.find? x = (sinceRemoval x t.log).foldl (recordOne debug) none

theorem tracks_message (t : Traced) (order : Order) (message : Message)
    (h : Tracks debug t) : Tracks debug (next lib debug t (.message order message)) := by
  intro x
  show (servicesAfter _ _).find? x = _
  rw [servicesAfter_processMessage, find?_recordAll, h x, ← List.foldl_append,
    ← sinceRemoval_applied]
  rfl

theorem tracks_sweep (t : Traced) (clock : String → Int64) (h : Tracks debug t) :
    Tracks debug (next lib debug t (.sweep clock)) := by
  intro x
  show (checkServices clock t.services).find? x =
    (sinceRemoval x (t.log ++ happened lib t.services (.sweep clock))).foldl _ none
  rw [happened, sinceRemoval_swept]
  have gone : x ∈ t.services.keys.filter
      (fun id => ((checkServices clock t.services).find? id).isNone) ↔
      (t.services.find? x).isSome ∧ (checkServices clock t.services).find? x = none := by
    rw [List.mem_filter, UnorderedMap.mem_keys, Option.isNone_iff_eq_none]
  split_ifs with removed
  · exact (gone.mp removed).2
  · rw [← h x, find?_checkServices]
    rw [gone, find?_checkServices] at removed
    cases found : t.services.find? x with
    | none => rfl
    | some record =>
      have live : record.isExpired (clock x) = false := by simpa [found] using removed
      simp [live]

theorem tracks_trace (events : List Event) : Tracks debug (trace lib debug events) := by
  have start : Tracks debug ⟨.empty, []⟩ := fun _ => rfl
  rw [trace]
  generalize (⟨.empty, []⟩ : Traced) = t at start
  induction events generalizing t with
  | nil => exact start
  | cons event rest ih =>
    cases event with
    | message order message => exact ih _ (tracks_message lib debug t order message start)
    | sweep clock => exact ih _ (tracks_sweep lib debug t clock start)

theorem mem_sinceRemoval (x : String) (log : List Happening) (e : Entry)
    (h : e ∈ sinceRemoval x log) : .applied e ∈ log ∧ e.serviceId = x := by
  obtain ⟨happening, member, carried⟩ := List.mem_filterMap.mp h
  have inside := List.takeWhile_subset _ (List.mem_reverse.mp member)
  cases happening with
  | removed y => cases carried
  | applied e' =>
    by_cases same : e'.serviceId = x
    · obtain rfl : e' = e := by simpa [Happening.entryFor, same] using carried
      exact ⟨List.mem_reverse.mp inside, same⟩
    · simp [Happening.entryFor, same] at carried

theorem tracked_record (t : Traced) (h : Tracks debug t) (x : String)
    (record : ServiceDiscoveryRecord) (found : t.services.find? x = some record) :
    ∃ first rest last, sinceRemoval x t.log = first :: rest ∧
      (first :: rest).getLast? = some last ∧ record.serviceUid = x ∧
      record.serviceType = first.service ∧ record.heartbeatTimeout = first.heartbeatTimeout ∧
      record.lastHeartbeatSeconds = last.lastHeartbeat.toInt64 := by
  rw [h x] at found
  cases split : sinceRemoval x t.log with
  | nil =>
    rw [split] at found
    cases found
  | cons first rest =>
    have final := List.getLast?_eq_some_getLast (List.cons_ne_nil first rest)
    rw [split, foldl_recordOne debug none first _ rest final] at found
    have own := (mem_sinceRemoval x t.log first (by simp [split])).2
    refine ⟨first, rest, _, rfl, final, ?_⟩
    rw [← Option.some.inj found]
    exact ⟨own, rfl, rfl, rfl⟩

theorem registered_iff (t : Traced) (h : Tracks debug t) (x : String) :
    (t.services.find? x).isSome ↔ sinceRemoval x t.log ≠ [] := by
  rw [h x]
  cases split : sinceRemoval x t.log with
  | nil => simp
  | cons first rest =>
    have final := List.getLast?_eq_some_getLast (List.cons_ne_nil first rest)
    simp [foldl_recordOne debug none first _ rest final]

theorem uids_eq_keys (t : Traced) (h : Tracks debug t) :
    (getServices t.services).map (·.getServiceUid) = getExistingServices t.services := by
  rw [getServices, getExistingServices, List.map_map]
  refine List.map_congr_left fun it member => ?_
  have found := (t.services.find?_eq_some it.1 it.2).mpr member
  obtain ⟨_, _, _, _, _, uid, _⟩ := tracked_record debug t h it.1 it.2 found
  exact uid

theorem applied_announced (events : List Event) (e : Entry)
    (h : .applied e ∈ (trace lib debug events).log) :
    ∃ order message, .message order message ∈ events ∧ e ∈ messageEntries lib message := by
  have start : (.applied e : Happening) ∉ (⟨.empty, []⟩ : Traced).log := by simp
  rw [trace] at h
  generalize (⟨.empty, []⟩ : Traced) = t at h start
  induction events generalizing t with
  | nil => exact absurd h start
  | cons event rest ih =>
    by_cases now : (.applied e : Happening) ∈ (next lib debug t event).log
    · have fresh := (List.mem_append.mp now).resolve_left start
      cases event with
      | message order message =>
        obtain ⟨e', member, same⟩ := List.mem_map.mp fresh
        cases same
        exact ⟨order, message, List.mem_cons_self, member⟩
      | sweep clock =>
        obtain ⟨id, _, impossible⟩ := List.mem_map.mp fresh
        cases impossible
    · obtain ⟨order, message, member, carried⟩ := ih _ h now
      exact ⟨order, message, List.mem_cons_of_mem _ member, carried⟩

theorem registry_of_history (events : List Event) (x : String) :
    ((trace lib debug events).services.find? x = none ↔
      sinceRemoval x (trace lib debug events).log = []) ∧
    (∀ record, (trace lib debug events).services.find? x = some record →
      record.getServiceUid = x ∧
      (sinceRemoval x (trace lib debug events).log).head?.map Entry.service =
        some record.getServiceType ∧
      (mostRecent x (trace lib debug events).log).map (·.lastHeartbeat.toInt64) =
        some record.lastHeartbeat) ∧
    ((getServices (trace lib debug events).services).filter
      (fun record => record.getServiceUid = x)).length ≤ 1 ∧
    ((trace lib debug events).services.find? x ≠ none →
      ∃ order message, .message order message ∈ events ∧
        x ∈ (messageEntries lib message).map Entry.serviceId) := by
  have tracks := tracks_trace lib debug events
  generalize traced : trace lib debug events = t at tracks ⊢
  have registered := registered_iff debug t tracks x
  refine ⟨?_, ?_, ?_, ?_⟩
  · rw [← Option.not_isSome_iff_eq_none, registered, not_not]
  · intro record found
    obtain ⟨first, rest, last, split, final, uid, type, _, heartbeat⟩ :=
      tracked_record debug t tracks x record found
    refine ⟨uid, by rw [split]; exact congrArg some type.symm, ?_⟩
    rw [← getLast?_sinceRemoval x t.log (by simp [split]), split, final]
    exact congrArg some heartbeat.symm
  · have distinct : (getExistingServices t.services).Nodup := t.services.nodup
    rw [← uids_eq_keys debug t tracks] at distinct
    have once := List.nodup_iff_count_le_one.mp distinct x
    rw [List.count, List.countP_map, List.countP_eq_length_filter] at once
    exact once
  · intro present
    have some := registered.mp (Option.isSome_iff_ne_none.mpr present)
    obtain ⟨first, rest, split⟩ := List.exists_cons_of_ne_nil some
    obtain ⟨applied, own⟩ := mem_sinceRemoval x t.log first (by simp [split])
    obtain ⟨order, message, member, carried⟩ :=
      applied_announced lib debug events first (traced ▸ applied)
    exact ⟨order, message, member, List.mem_map.mpr ⟨first, carried, own⟩⟩

theorem views_agree (events : List Event) :
    (getExistingServices (trace lib debug events).services).Nodup ∧
    getExistingServices (trace lib debug events).services =
      (getServices (trace lib debug events).services).map (·.getServiceUid) ∧
    (getServices (trace lib debug events).services).Nodup ∧
    (∀ type, getServicesOfType (trace lib debug events).services type =
      (getServices (trace lib debug events).services).filter (·.getServiceType = type)) ∧
    (∀ a b, a ≠ b → (getServicesOfType (trace lib debug events).services a).Disjoint
      (getServicesOfType (trace lib debug events).services b)) ∧
    ∀ types : List String, types.Nodup →
      (∀ record ∈ getServices (trace lib debug events).services,
        record.getServiceType ∈ types) →
      (types.flatMap (getServicesOfType (trace lib debug events).services)).Perm
        (getServices (trace lib debug events).services) := by
  have tracks := tracks_trace lib debug events
  generalize trace lib debug events = t at tracks ⊢
  have uids := uids_eq_keys debug t tracks
  have distinct : (getExistingServices t.services).Nodup := t.services.nodup
  have ofType (type : String) : getServicesOfType t.services type =
      (getServices t.services).filter (·.getServiceType = type) := by
    rw [getServicesOfType]
    exact List.filter_congr fun record _ => by simp [bne, beq_eq_decide]
  refine ⟨distinct, uids.symm, (uids ▸ distinct).of_map _, ofType, ?_, ?_⟩
  · intro a b different record inA inB
    rw [ofType, List.mem_filter, decide_eq_true_iff] at inA inB
    exact different (inA.2.symm.trans inB.2)
  · intro types apart cover
    rw [funext ofType]
    exact UnorderedMap.groups_perm _ types apart _ cover

/-! ### The timeout a sweep judges by -/

def AnnouncedOverdue (log : List Happening) (now : Int64) (x : String) : Prop :=
  ∃ e, mostRecent x log = some e ∧ ServiceDiscoveryRecord.Overdue now.toInt
    e.lastHeartbeat.toInt e.heartbeatTimeout.toInt

def JudgedByLastAnnounced (t : Traced) (clock : String → Int64) (x : String) : Prop :=
  (checkServices clock t.services).find? x = none ↔ AnnouncedOverdue t.log (clock x) x

/-- The timeout of the entry that created the record and the one last announced
give the same verdict on the last heartbeat. -/
def TimeoutsAgree (log : List Happening) (now : Int64) (x : String) : Prop :=
  ∀ first ∈ (sinceRemoval x log).head?, ∀ last ∈ mostRecent x log,
    (ServiceDiscoveryRecord.Overdue now.toInt last.lastHeartbeat.toInt
        first.heartbeatTimeout.toInt ↔
      ServiceDiscoveryRecord.Overdue now.toInt last.lastHeartbeat.toInt
        last.heartbeatTimeout.toInt)

theorem judged_iff (t : Traced) (tracks : Tracks debug t) (clock : String → Int64) (x : String)
    (registered : t.services.find? x ≠ none)
    (fits : ∀ last ∈ mostRecent x t.log,
      ServiceDiscoveryRecord.DifferenceFits (clock x) last.lastHeartbeat) :
    JudgedByLastAnnounced t clock x ↔ TimeoutsAgree t.log (clock x) x := by
  obtain ⟨record, found⟩ := Option.ne_none_iff_exists'.mp registered
  obtain ⟨first, rest, last, split, final, _, _, timeout, heartbeat⟩ :=
    tracked_record debug t tracks x record found
  have recent : mostRecent x t.log = some last := by
    rw [← getLast?_sinceRemoval x t.log (by simp [split]), split, final]
  have verdict : (checkServices clock t.services).find? x = none ↔
      ServiceDiscoveryRecord.Overdue (clock x).toInt last.lastHeartbeat.toInt
        first.heartbeatTimeout.toInt := by
    rw [← timeout, ← ServiceDiscoveryRecord.isExpired_of_fits record (clock x)
      last.lastHeartbeat heartbeat (fits last recent), find?_checkServices, found]
    simp
  rw [JudgedByLastAnnounced, verdict, AnnouncedOverdue, TimeoutsAgree, split, recent]
  simp

def SweptAt (events pre : List Event) (clock : String → Int64) : Prop :=
  ∃ post, events = pre ++ .sweep clock :: post

def SweepsJudge (events : List Event) : Prop :=
  ∀ pre clock, SweptAt events pre clock → ∀ x,
    (trace lib debug pre).services.find? x ≠ none →
      JudgedByLastAnnounced (trace lib debug pre) clock x

def SweepsAgree (events : List Event) : Prop :=
  ∀ pre clock, SweptAt events pre clock → ∀ x,
    (trace lib debug pre).services.find? x ≠ none →
      TimeoutsAgree (trace lib debug pre).log (clock x) x

theorem sweeps_judge_iff (events : List Event)
    (fits : ∀ pre clock, SweptAt events pre clock → ∀ x,
      ∀ last ∈ mostRecent x (trace lib debug pre).log,
        ServiceDiscoveryRecord.DifferenceFits (clock x) last.lastHeartbeat) :
    SweepsJudge lib debug events ↔ SweepsAgree lib debug events := by
  refine forall₃_congr fun pre clock swept => forall₂_congr fun x registered => ?_
  exact judged_iff debug _ (tracks_trace lib debug pre) clock x registered (fits pre clock swept x)

end

def sampleRun : List Event := [.message .atEnd sampleAnswer, .sweep fun _ => 1600000000000]

theorem sweptAt_pair (order : Order) (message : Message) (clock clock' : String → Int64)
    (pre : List Event) (h : SweptAt [.message order message, .sweep clock] pre clock') :
    pre = [.message order message] ∧ clock' = clock := by
  obtain ⟨post, split⟩ := h
  match pre, split with
  | [], split => exact nomatch (List.cons.inj split).1
  | [first], split =>
    obtain ⟨same, tail⟩ := List.cons.inj split
    have swept := Event.sweep.inj (List.cons.inj tail).1
    exact ⟨by rw [same], swept.symm⟩
  | _ :: _ :: _, split => simp at split

theorem sampleRun_log : (trace sampleLib false [.message .atEnd sampleAnswer]).log =
    [.applied (sampleEntry "up")] := by
  simp [trace, next, happened, messageEntries_array sampleLib sampleAnswer _ rfl
    sampleLib_answer, applied_of_announces _ _ _ (.cons (sampleDoc_announces "up") .nil)]

theorem mostRecent_one (x : String) (e last : Entry) (h : last ∈ mostRecent x [.applied e]) :
    last = e := by
  by_cases own : e.serviceId = x <;> simp_all [mostRecent, Happening.entryFor]

theorem sinceRemoval_one (x : String) (e first : Entry)
    (h : first ∈ (sinceRemoval x [.applied e]).head?) : first = e := by
  by_cases own : e.serviceId = x <;> simp_all [sinceRemoval, Happening.entryFor]

theorem sweeps_judge_once : SweepsJudge sampleLib false sampleRun := by
  refine (sweeps_judge_iff sampleLib false sampleRun ?_).mpr ?_
  · intro pre clock swept x last isLast
    obtain ⟨rfl, rfl⟩ := sweptAt_pair _ _ _ _ pre swept
    rw [sampleRun_log] at isLast
    rw [mostRecent_one x _ last isLast]
    exact (by decide : ServiceDiscoveryRecord.DifferenceFits 1600000000000
      (sampleEntry "up").lastHeartbeat)
  · intro pre clock swept x _ first isFirst last isLast
    obtain ⟨rfl, rfl⟩ := sweptAt_pair _ _ _ _ pre swept
    rw [sampleRun_log] at isFirst isLast
    rw [sinceRemoval_one x _ first isFirst, mostRecent_one x _ last isLast]

/-- A broadcast in which a service raises its timeout from two minutes to an hour. -/
def raisingAnswer : Message := .answer ("[" ++ sampleText ++ ",\x7b\"service\":\"A\",\"service_id\":\"a\",\"heartbeat_timeout\":3600,\"last_heartbeat\":1000,\"metadata\":\"up\"\x7d]")

def raisedDoc : Json := .object
  [("heartbeat_timeout", .numberUnsigned 3600), ("last_heartbeat", .numberUnsigned 1000),
    ("metadata", .string "up"), ("service", .string "A"), ("service_id", .string "a")]

def raisedEntry : Entry := ⟨"A", "a", 3600, 1000, "up"⟩

def raisingLib : Nlohmann := .reading [(raisingAnswer, .array [sampleDoc "up", raisedDoc])]

theorem sweeps_judge_raised : ¬ SweepsJudge raisingLib false
    [.message .atEnd raisingAnswer, .sweep fun _ => 1600000000000] := by
  intro judged
  have entries : messageEntries raisingLib raisingAnswer = [sampleEntry "up", raisedEntry] := by
    rw [messageEntries_array raisingLib raisingAnswer [sampleDoc "up", raisedDoc] rfl
      (by simp [raisingLib, Nlohmann.reading])]
    exact applied_of_announces _ _ _
      (.cons (sampleDoc_announces "up") (.cons ⟨_, rfl, rfl, rfl, rfl, rfl, rfl⟩ .nil))
  have log : (trace raisingLib false [.message .atEnd raisingAnswer]).log =
      [.applied (sampleEntry "up"), .applied raisedEntry] := by
    simp [trace, next, happened, entries]
  have tracks := tracks_trace raisingLib false [.message .atEnd raisingAnswer]
  have registered : (trace raisingLib false [.message .atEnd raisingAnswer]).services.find? "a" ≠
      none := by
    rw [← Option.isSome_iff_ne_none, registered_iff false _ tracks, log]
    decide
  have recent : mostRecent "a" (trace raisingLib false [.message .atEnd raisingAnswer]).log =
      some raisedEntry := by rw [log]; decide
  have fits : ServiceDiscoveryRecord.DifferenceFits 1600000000000 raisedEntry.lastHeartbeat := by
    decide
  have agree := (judged_iff false _ tracks _ "a" registered
    fun last isLast => Option.some.inj (recent.symm.trans isLast) ▸ fits).mp
    (judged _ _ ⟨[], rfl⟩ "a" registered)
  rw [log] at agree
  exact absurd (agree (sampleEntry "up") (by decide) raisedEntry (by decide)) (by decide)

end NetworkDiscovery.RegistryHistory

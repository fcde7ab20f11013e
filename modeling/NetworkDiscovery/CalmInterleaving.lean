import Mathlib.Data.List.Permutation
import NetworkDiscovery.RegistryInterleaving

/-! When the unlocked message does no harm. A run is calm while a locked call
finds every service that the message still has to record in the map, and a
sweep finds none of them expired. No message then inserts beside an iteration.
A calm run has the result of the whole calls in the order of their returns, the
message among them where it began. -/

namespace NetworkDiscovery.RegistryInterleaving
open ServiceDiscoveryClient

def Worker.remaining : Worker → List Job
  | .waiting _ => []
  | .counting jobs => jobs
  | .heartbeat j rest => j :: rest
  | .metadata j rest => j :: rest
  | .emplacing j rest => j :: rest
  | .aborted _ _ => []

def Registered (registry : Registry) (jobs : List Job) : Prop :=
  ∀ x ∈ jobs.map Job.id, (registry x).isSome

/-- No service of the jobs is expired by its last heartbeat among them. -/
def KeptAlive (clock : String → Int64) (registry : Registry) (jobs : List Job) : Prop :=
  ∀ x shared last, registry x = some shared →
    (entriesFor x (jobs.map Job.entry)).getLast? = some last →
    ¬ shared.record.heartbeatTimeout.toInt <
      (ServiceDiscoveryRecord.timeDifference (clock x) last.lastHeartbeat.toInt64).toInt

def Undisturbed (registry : Registry) (jobs : List Job) : Option Locked → Prop
  | none => True
  | some (.testing clock _ _) => Registered registry jobs ∧ KeptAlive clock registry jobs
  | some (.erasing clock id _ _) =>
    Registered registry jobs ∧ KeptAlive clock registry jobs ∧ id ∉ jobs.map Job.id
  | some (.copying _ _) => Registered registry jobs

def Calm (s : State) : Prop := Undisturbed s.registry s.worker.remaining s.mutex

/-- How far a locked call that found `before` has come, seen as if the message
were complete: `now` is what it has left. -/
def Within : Option Locked → Registry → Registry → Prop
  | none, before, now => now = before
  | some (.testing clock todo erased), before, now =>
    todo.Nodup ∧ (∀ x ∈ todo, x ∉ erased) ∧ (∀ x ∈ erased, now x = none) ∧
      (∀ x, x ∉ erased → now x = before x) ∧ ∀ x, x ∉ todo → now x = swept clock before x
  | some (.erasing clock id todo erased), before, now =>
    (id :: todo).Nodup ∧ (∀ x ∈ id :: todo, x ∉ erased) ∧ (∀ x ∈ erased, now x = none) ∧
      (∀ x, x ∉ erased → now x = before x) ∧
      (∀ x, x ∉ id :: todo → now x = swept clock before x) ∧ swept clock before id = none
  | some (.copying todo copied), before, now =>
    now = before ∧ (copied.map Prod.fst ++ todo).Nodup ∧
      (∀ x, x ∈ copied.map Prod.fst ++ todo ↔ (before x).isSome) ∧
      ∀ it ∈ copied, (before it.1).map Shared.address = some it.2

theorem mem_jobs (jobs : List Job) (x : String) :
    x ∈ jobs.map Job.id ↔ x ∈ (jobs.map Job.entry).map Entry.serviceId := by
  rw [List.map_map]
  rfl

theorem swept_of_live (clock : String → Int64) (registry : Registry) (x : String)
    (shared : Shared) (found : registry x = some shared)
    (live : shared.record.isExpired (clock x) = false) : swept clock registry x = registry x := by
  rw [swept, found]
  simp [Option.filter, live]

theorem swept_of_expired (clock : String → Int64) (registry : Registry) (x : String)
    (shared : Shared) (found : registry x = some shared)
    (expired : shared.record.isExpired (clock x) = true) : swept clock registry x = none := by
  rw [swept, found]
  simp [Option.filter, expired]

theorem swept_none (clock : String → Int64) (registry : Registry) (x : String)
    (absent : registry x = none) : swept clock registry x = none := by
  rw [swept, absent]
  rfl

theorem swept_local (clock : String → Int64) (registry other : Registry) (x : String)
    (same : registry x = other x) : swept clock registry x = swept clock other x := by
  rw [swept, swept, same]

section
variable (debug : Bool)

theorem swept_process (clock : String → Int64) (registry : Registry) (jobs : List Job)
    (registered : Registered registry jobs) (alive : KeptAlive clock registry jobs) (x : String)
    (named : x ∈ jobs.map Job.id) :
    swept clock (process debug jobs registry) x = process debug jobs registry x := by
  have ⟨first, rest, last, split, final⟩ :=
    exists_entriesFor x (jobs.map Job.entry) ((mem_jobs jobs x).mp named)
  have ⟨earlier, here⟩ := Option.isSome_iff_exists.mp (registered x named)
  have kept := alive x earlier last here (by rw [split]; exact final)
  have record := process_record debug jobs registry x
  rw [split, here, foldl_recordOne debug _ first last rest final] at record
  have ⟨shared, found, same⟩ := Option.map_eq_some_iff.mp record
  apply swept_of_live clock _ x shared found
  rw [ServiceDiscoveryRecord.isExpired, same, decide_eq_false_iff_not]
  exact kept

variable (jobs : List Job) (registry before : Registry)

theorem within_lockSweep (clock : String → Int64) (todo : List String)
    (all : Iterates todo registry)
    (calm : Undisturbed registry jobs (some (.testing clock todo []))) :
    Within (some (.testing clock todo [])) (process debug jobs registry)
      (process debug jobs registry) := by
  refine ⟨all.1, fun _ _ => List.not_mem_nil, fun _ absent => absurd absent List.not_mem_nil,
    fun _ _ => rfl, fun x passed => ?_⟩
  by_cases named : x ∈ jobs.map Job.id
  · exact (swept_process debug clock registry jobs calm.1 calm.2 x named).symm
  · have absent : process debug jobs registry x = none := by
      rw [process_unnamed debug jobs registry x named]
      simpa [all.2] using passed
    rw [absent, swept_none clock _ x absent]

theorem within_testExpired (clock : String → Int64) (id : String) (todo erased : List String)
    (shared : Shared) (found : registry id = some shared)
    (expired : shared.record.isExpired (clock id) = true) (unnamed : id ∉ jobs.map Job.id)
    (within : Within (some (.testing clock (id :: todo) erased)) before
      (process debug jobs registry)) :
    Within (some (.erasing clock id todo erased)) before (process debug jobs registry) := by
  have ⟨distinct, kept, gone, same, passed⟩ := within
  refine ⟨distinct, kept, gone, same, passed, ?_⟩
  have here : before id = some shared := by
    rw [← same id (kept id List.mem_cons_self), process_unnamed debug jobs registry id unnamed, found]
  exact swept_of_expired clock before id shared here expired

theorem within_testLive (clock : String → Int64) (id : String) (todo erased : List String)
    (shared : Shared) (found : registry id = some shared)
    (live : shared.record.isExpired (clock id) = false)
    (calm : Undisturbed registry jobs (some (.testing clock todo erased)))
    (within : Within (some (.testing clock (id :: todo) erased)) before
      (process debug jobs registry)) :
    Within (some (.testing clock todo erased)) before (process debug jobs registry) := by
  have ⟨distinct, kept, gone, same, passed⟩ := within
  refine ⟨(List.nodup_cons.mp distinct).2, fun x ahead => kept x (List.mem_cons_of_mem id ahead),
    gone, same, fun x ahead => ?_⟩
  by_cases tested : x = id
  · have here := same x (tested ▸ kept id List.mem_cons_self)
    rw [← swept_local clock _ before x here]
    by_cases named : x ∈ jobs.map Job.id
    · exact (swept_process debug clock registry jobs calm.1 calm.2 x named).symm
    · have stays := process_unnamed debug jobs registry x named
      subst tested
      rw [swept_of_live clock _ x shared (stays.trans found) live]
  · exact passed x (by simp [tested, ahead])

theorem within_erase (clock : String → Int64) (id : String) (todo erased : List String)
    (unnamed : id ∉ jobs.map Job.id)
    (within : Within (some (.erasing clock id todo erased)) before
      (process debug jobs registry)) :
    Within (some (.testing clock todo (id :: erased))) before
      (process debug jobs (Function.update registry id none)) := by
  have ⟨distinct, kept, gone, same, passed, expired⟩ := within
  have ⟨fresh, apart⟩ := List.nodup_cons.mp distinct
  have erasedNow : process debug jobs (Function.update registry id none) id = none := by
    rw [process_unnamed debug jobs _ id unnamed, Function.update_self]
  have others (x : String) (other : x ≠ id) :
      process debug jobs (Function.update registry id none) x = process debug jobs registry x :=
    process_local debug jobs _ registry x (Function.update_of_ne other _ _)
  refine ⟨apart, fun x ahead => ?_, fun x absent => ?_, fun x rest => ?_, fun x behind => ?_⟩
  · have other : x ≠ id := fun equal => fresh (equal ▸ ahead)
    simp [other, kept x (List.mem_cons_of_mem id ahead)]
  · rcases List.mem_cons.mp absent with here | earlier
    · exact here ▸ erasedNow
    · have other : x ≠ id := fun equal => kept id List.mem_cons_self (equal ▸ earlier)
      rw [others x other]
      exact gone x earlier
  · rw [List.mem_cons, not_or] at rest
    rw [others x rest.1]
    exact same x rest.2
  · by_cases here : x = id
    · rw [here, erasedNow, expired]
    · rw [others x here]
      exact passed x (by simp [here, behind])

theorem within_unlockSweep (clock : String → Int64) (erased : List String) (now : Registry)
    (within : Within (some (.testing clock [] erased)) before now) : now = swept clock before := by
  funext x
  exact within.2.2.2.2 x List.not_mem_nil

theorem unnamed_of_absent (registered : Registered registry jobs) (x : String)
    (absent : registry x = none) : x ∉ jobs.map Job.id := by
  intro named
  have present := registered x named
  rw [absent] at present
  cases present

theorem process_addresses (registered : Registered registry jobs) (x : String) :
    (process debug jobs registry x).map Shared.address = (registry x).map Shared.address := by
  cases found : registry x with
  | some shared => exact process_address debug jobs registry x shared found
  | none =>
    have unnamed := unnamed_of_absent jobs registry registered x found
    rw [process_unnamed debug jobs registry x unnamed, found]

theorem isSome_of_addresses (found found' : Option Shared)
    (same : found.map Shared.address = found'.map Shared.address) :
    found.isSome ↔ found'.isSome := by
  have both := congrArg Option.isSome same
  rw [Option.isSome_map, Option.isSome_map] at both
  rw [both]

theorem within_lockSnapshot (todo : List String) (all : Iterates todo registry)
    (calm : Registered registry jobs) :
    Within (some (.copying todo [])) (process debug jobs registry)
      (process debug jobs registry) := by
  refine ⟨rfl, all.1, fun x => ?_, fun _ impossible => nomatch impossible⟩
  rw [List.map_nil, List.nil_append, all.2]
  exact (isSome_of_addresses _ _ (process_addresses debug jobs registry calm x)).symm

theorem within_copy (id : String) (todo : List String) (copied : List (String × ℕ))
    (shared : Shared) (found : registry id = some shared)
    (within : Within (some (.copying (id :: todo) copied)) before
      (process debug jobs registry)) :
    Within (some (.copying todo (copied ++ [(id, shared.address)]))) before
      (process debug jobs registry) := by
  have ⟨same, distinct, all, addresses⟩ := within
  have listed : (copied ++ [(id, shared.address)]).map Prod.fst ++ todo =
      copied.map Prod.fst ++ id :: todo := by simp
  refine ⟨same, listed ▸ distinct, fun x => listed ▸ all x, fun it member => ?_⟩
  rcases List.mem_append.mp member with earlier | last
  · exact addresses it earlier
  · rw [List.mem_singleton.mp last, ← same]
    exact process_address debug jobs registry id shared found

theorem within_unlockSnapshot (copied : List (String × ℕ)) (now : Registry)
    (within : Within (some (.copying [] copied)) before now) : Copies before copied := by
  have ⟨_, distinct, all, addresses⟩ := within
  rw [List.append_nil] at distinct
  refine ⟨distinct, fun id address => ⟨fun member => addresses _ member, fun found => ?_⟩⟩
  have registered : (before id).isSome := by
    have ⟨shared, here, _⟩ := Option.map_eq_some_iff.mp found
    simp [here]
  have listed := (all id).mpr registered
  rw [List.append_nil] at listed
  have ⟨it, member, own⟩ := List.mem_map.mp listed
  have same := addresses it member
  rw [own, found] at same
  have whole : (id, address) = it := by
    rw [← own, Option.some.inj same]
  exact whole ▸ member

theorem follows_silently (returned : List Invocation) (mutex : Option Locked) (now : Registry)
    (within : Within mutex before now) :
    ∃ calls after, returned = returned ++ calls ∧ Serial debug before calls after ∧
      Within mutex after now :=
  ⟨[], before, (List.append_nil _).symm, .nil _, within⟩

theorem locked_follows (s t : State) (step : LockedStep s t)
    (calm : Undisturbed s.registry jobs s.mutex) (calm' : Undisturbed t.registry jobs t.mutex)
    (within : Within s.mutex before (process debug jobs s.registry)) :
    ∃ calls after, t.returned = s.returned ++ calls ∧ Serial debug before calls after ∧
      Within t.mutex after (process debug jobs t.registry) := by
  cases step with
  | lockSweep clock todo free all =>
    rw [free] at within
    have now : process debug jobs s.registry = before := within
    have locked := within_lockSweep debug jobs s.registry clock todo all calm'
    exact follows_silently debug before s.returned _ _ (now ▸ locked)
  | testExpired clock id todo erased shared place found expired =>
    rw [place] at within
    have tested := within_testExpired debug jobs s.registry before clock id todo erased shared
      found expired calm'.2.2 within
    exact follows_silently debug before s.returned _ _ tested
  | testLive clock id todo erased shared place found live =>
    rw [place] at within
    have tested := within_testLive debug jobs s.registry before clock id todo erased shared found
      live calm' within
    exact follows_silently debug before s.returned _ _ tested
  | erase clock id todo erased place =>
    rw [place] at within calm
    have gone := within_erase debug jobs s.registry before clock id todo erased calm.2.2 within
    exact follows_silently debug before s.returned _ _ gone
  | unlockSweep clock erased place =>
    rw [place] at within
    have now := within_unlockSweep before clock erased _ within
    refine ⟨[.sweep clock], swept clock before, rfl, .sweep _ _ _ _ (.nil _), now⟩
  | lockSnapshot todo free all =>
    rw [free] at within
    have now : process debug jobs s.registry = before := within
    have locked := within_lockSnapshot debug jobs s.registry todo all calm'
    exact follows_silently debug before s.returned _ _ (now ▸ locked)
  | copy id todo copied shared place found =>
    rw [place] at within
    have more := within_copy debug jobs s.registry before id todo copied shared found within
    exact follows_silently debug before s.returned _ _ more
  | unlockSnapshot copied place =>
    rw [place] at within
    have copies := within_unlockSnapshot before copied _ within
    exact ⟨[.snapshot copied], before, rfl, .snapshot _ _ _ _ copies (.nil _), within.1⟩

/-- What process_message has read is still so. -/
def Ready (registry : Registry) : Worker → Prop
  | .waiting _ => False
  | .counting _ => True
  | .heartbeat j _ => (registry j.id).isSome
  | .metadata j _ => ∃ shared, registry j.id = some shared ∧
      shared.record.lastHeartbeatSeconds = j.entry.lastHeartbeat.toInt64
  | .emplacing j _ => registry j.id = none
  | .aborted _ _ => False

theorem ready_locked (s t : State) (step : LockedStep s t) (calm : Calm s)
    (ready : Ready s.registry s.worker) : Ready t.registry t.worker := by
  cases step with
  | erase clock id todo erased place =>
    rw [Calm, place] at calm
    have unnamed := calm.2.2
    have kept (j : Job) (rest : List Job) (remaining : s.worker.remaining = j :: rest) :
        Function.update s.registry id none j.id = s.registry j.id := by
      apply Function.update_of_ne
      intro same
      exact unnamed (by simp [remaining, same])
    show Ready (Function.update s.registry id none) s.worker
    cases stage : s.worker with
    | waiting jobs => rwa [stage] at ready
    | counting jobs => trivial
    | heartbeat j rest | metadata j rest | emplacing j rest =>
      rw [stage] at ready
      rw [Ready, kept j rest (by rw [stage, Worker.remaining])]
      exact ready
    | aborted j rest => rwa [stage] at ready
  | _ => exact ready

theorem touch_self (id : String) (call : ServiceDiscoveryRecord → ServiceDiscoveryRecord) :
    registry.touch id call id =
      (registry id).map fun shared => { shared with record := call shared.record } :=
  Function.update_self _ _ _

theorem processOne_touch_heartbeat (j : Job) :
    processOne debug (registry.touch j.id (·.updateHeartbeat j.entry.lastHeartbeat)) j =
      processOne debug registry j := by
  funext x
  by_cases own : x = j.id
  · subst own
    rw [processOne, processOne, Function.update_self, Function.update_self, Registry.touch,
      Function.update_self]
    cases registry j.id <;> rfl
  · rw [processOne, processOne, Function.update_of_ne own, Function.update_of_ne own,
      Registry.touch, Function.update_of_ne own]

theorem touch_metadata (j : Job) (shared : Shared) (found : registry j.id = some shared)
    (updated : shared.record.lastHeartbeatSeconds = j.entry.lastHeartbeat.toInt64) :
    registry.touch j.id (·.updateMetadata j.entry.metadata) = processOne debug registry j := by
  rw [Registry.touch, processOne, found, Job.recorded, ServiceDiscoveryRecord.updateHeartbeat,
    ← updated]
  rfl

theorem emplaced (j : Job) (absent : registry j.id = none) :
    Function.update registry j.id (some ((registry j.id).getD (j.created debug))) =
      processOne debug registry j := by
  rw [processOne, absent]
  rfl

/-- In a calm run no locked call is under way when the message inserts. -/
theorem unlocked_of_inserted (j : Job) (rest : List Job) (mutex mutex' : Option Locked)
    (inserted : Inserted registry j.id mutex mutex') (calm : Undisturbed registry (j :: rest) mutex)
    (absent : registry j.id = none) : mutex = none ∧ mutex' = none := by
  have missing : ¬ Registered registry (j :: rest) := fun registered =>
    unnamed_of_absent (j :: rest) registry registered j.id absent List.mem_cons_self
  cases inserted with
  | free => exact ⟨rfl, rfl⟩
  | existing _ present =>
    rw [absent] at present
    cases present
  | testing => exact absurd calm.1 missing
  | erasing => exact absurd calm.1 missing
  | copying => exact absurd calm missing

theorem worker_follows (s t : State) (step : WorkerStep debug s t) (calm : Calm s)
    (ready : Ready s.registry s.worker)
    (within : Within s.mutex before (process debug s.worker.remaining s.registry)) :
    t.returned = s.returned ∧ Ready t.registry t.worker ∧
      Within t.mutex before (process debug t.worker.remaining t.registry) := by
  cases step with
  | enter jobs place =>
    rw [place] at ready
    cases ready
  | countPresent j rest place present =>
    rw [place] at within
    exact ⟨rfl, present, within⟩
  | countAbsent j rest place absent =>
    rw [place] at within
    exact ⟨rfl, absent, within⟩
  | updateHeartbeat j rest place present =>
    rw [place] at within
    have ⟨shared, found⟩ := Option.isSome_iff_exists.mp present
    have touched := touch_self s.registry j.id (·.updateHeartbeat j.entry.lastHeartbeat)
    rw [found] at touched
    refine ⟨rfl, ⟨_, touched, rfl⟩, ?_⟩
    · show Within s.mutex before (process debug (j :: rest) _)
      rw [process_cons, processOne_touch_heartbeat]
      exact within
  | heartbeatThrows j rest place absent =>
    rw [place, Ready, absent] at ready
    cases ready
  | updateMetadata j rest place present =>
    rw [place] at within ready
    have ⟨shared, found, updated⟩ := ready
    refine ⟨rfl, trivial, ?_⟩
    show Within s.mutex before (process debug rest _)
    rw [touch_metadata debug s.registry j shared found updated]
    exact within
  | metadataThrows j rest place absent =>
    rw [place] at ready
    have ⟨shared, found, _⟩ := ready
    rw [absent] at found
    cases found
  | emplace j rest mutex place inserted =>
    rw [place] at within ready
    rw [Calm, place] at calm
    refine ⟨rfl, trivial, ?_⟩
    show Within mutex before (process debug rest _)
    have ⟨free, free'⟩ := unlocked_of_inserted s.registry j rest s.mutex mutex inserted calm ready
    rw [emplaced debug s.registry j ready, free']
    rw [free] at within
    exact within

theorem process_gone (erased : List String) (registered : Registered registry jobs)
    (gone : ∀ x ∈ erased, registry x = none) (x : String) (absent : x ∈ erased) :
    process debug jobs registry x = none := by
  have unnamed := unnamed_of_absent jobs registry registered x (gone x absent)
  rw [process_unnamed debug jobs registry x unnamed, gone x absent]

theorem swept_entered (clock : String → Int64) (erased : List String)
    (registered : Registered registry jobs) (alive : KeptAlive clock registry jobs)
    (gone : ∀ x ∈ erased, registry x = none) (same : ∀ x, x ∉ erased → registry x = before x)
    (x : String) (passed : registry x = swept clock before x) :
    process debug jobs registry x = swept clock (process debug jobs before) x := by
  by_cases named : x ∈ jobs.map Job.id
  · have spared : x ∉ erased := fun absent =>
      unnamed_of_absent jobs registry registered x (gone x absent) named
    have equal := process_local debug jobs registry before x (same x spared)
    rw [← swept_local clock _ _ x equal,
      swept_process debug clock registry jobs registered alive x named]
  · have unnamed := process_unnamed debug jobs before x named
    rw [process_unnamed debug jobs registry x named, passed, swept_local clock _ _ x unnamed]

/-- A message that begins beside a locked call takes effect before that call. -/
theorem within_entered (mutex : Option Locked) (calm : Undisturbed registry jobs mutex)
    (within : Within mutex before registry) :
    Within mutex (process debug jobs before) (process debug jobs registry) := by
  cases mutex with
  | none =>
    have same : registry = before := within
    exact congrArg (process debug jobs) same
  | some locked =>
    cases locked with
    | testing clock todo erased =>
      have ⟨distinct, kept, gone, same, passed⟩ := within
      refine ⟨distinct, kept, process_gone debug jobs registry erased calm.1 gone,
        fun x rest => process_local debug jobs _ _ x (same x rest), fun x behind => ?_⟩
      exact swept_entered debug jobs registry before clock erased calm.1 calm.2 gone same x
        (passed x behind)
    | erasing clock id todo erased =>
      have ⟨distinct, kept, gone, same, passed, expired⟩ := within
      have unnamed := process_unnamed debug jobs before id calm.2.2
      refine ⟨distinct, kept, process_gone debug jobs registry erased calm.1 gone,
        fun x rest => process_local debug jobs _ _ x (same x rest), fun x behind => ?_, ?_⟩
      · exact swept_entered debug jobs registry before clock erased calm.1 calm.2.1 gone same x
          (passed x behind)
      · rw [swept_local clock _ _ id unnamed, expired]
    | copying todo copied =>
      have ⟨same, distinct, all, addresses⟩ := within
      subst same
      have kept := process_addresses debug jobs registry calm
      refine ⟨rfl, distinct, fun x => ?_, fun it member => ?_⟩
      · rw [all]
        exact (isSome_of_addresses _ _ (kept x)).symm
      · rw [kept]
        exact addresses it member

/-- The serial order so far: the calls that returned before the message began,
the message, and those that returned later. -/
inductive InOrder (s : State) : Prop
  | ahead (now : Registry) (place : s.worker = .waiting jobs)
      (serial : Serial debug before s.returned now) (within : Within s.mutex now s.registry)
  | begun (first second : List Invocation) (found left : Registry)
      (split : s.returned = first ++ second) (head : Serial debug before first found)
      (tail : Serial debug (process debug jobs found) second left)
      (ready : Ready s.registry s.worker)
      (within : Within s.mutex left (process debug s.worker.remaining s.registry))

theorem inOrder_locked (s t : State) (step : LockedStep s t) (calm : Calm s) (calm' : Calm t)
    (order : InOrder debug jobs before s) : InOrder debug jobs before t := by
  have same : t.worker = s.worker := by cases step <;> rfl
  rw [Calm, same] at calm'
  cases order with
  | ahead now place serial within =>
    rw [Calm, place] at calm
    rw [place] at calm' same
    have ⟨calls, after, returned, more, within'⟩ :=
      locked_follows debug [] now s t step calm calm' within
    refine .ahead after same ?_ within'
    rw [returned]
    exact serial_append debug before now after _ calls serial more
  | begun first second found left split head tail ready within =>
    have ⟨calls, after, returned, more, within'⟩ :=
      locked_follows debug s.worker.remaining left s t step calm calm' within
    refine .begun first (second ++ calls) found after ?_ head
      (serial_append debug _ left after second calls tail more) (ready_locked s t step calm ready) ?_
    · rw [returned, split, List.append_assoc]
    · rw [same]
      exact within'

theorem inOrder_worker (s t : State) (step : WorkerStep debug s t) (calm : Calm s) (calm' : Calm t)
    (order : InOrder debug jobs before s) : InOrder debug jobs before t := by
  cases order with
  | ahead now place serial within =>
    cases step with
    | enter jobs' place' =>
      have same : jobs' = jobs := by simpa [place] using place'.symm
      subst same
      exact .begun s.returned [] now _ (List.append_nil _).symm serial (.nil _) trivial
        (within_entered debug jobs' s.registry now s.mutex calm' within)
    | countPresent _ _ place' | countAbsent _ _ place' | updateHeartbeat _ _ place'
    | heartbeatThrows _ _ place' | updateMetadata _ _ place' | metadataThrows _ _ place'
    | emplace _ _ _ place' => simp [place] at place'
  | begun first second found left split head tail ready within =>
    have ⟨returned, ready', within'⟩ := worker_follows debug left s t step calm ready within
    exact .begun first second found left (returned.trans split) head tail ready' within'

def EvictsExpired (s : State) : Prop :=
  ∀ clock id todo erased, s.mutex = some (.erasing clock id todo erased) →
    ∃ shared, s.registry id = some shared ∧ shared.record.isExpired (clock id) = true

theorem worker_untouched (s t : State) (step : WorkerStep debug s t) (x : String)
    (unnamed : x ∉ s.worker.remaining.map Job.id) : t.registry x = s.registry x := by
  have other (j : Job) (rest : List Job) (remaining : s.worker.remaining = j :: rest) :
      x ≠ j.id := by
    intro same
    exact unnamed (by simp [remaining, same])
  cases step with
  | updateHeartbeat j rest place =>
    exact Function.update_of_ne (other j rest (by rw [place, Worker.remaining])) _ _
  | updateMetadata j rest place =>
    exact Function.update_of_ne (other j rest (by rw [place, Worker.remaining])) _ _
  | emplace j rest mutex place =>
    exact Function.update_of_ne (other j rest (by rw [place, Worker.remaining])) _ _
  | _ => rfl

theorem worker_erasing (s t : State) (step : WorkerStep debug s t) (clock : String → Int64)
    (id : String) (todo erased : List String)
    (after : t.mutex = some (.erasing clock id todo erased)) :
    ∃ todo', s.mutex = some (.erasing clock id todo' erased) := by
  cases step with
  | emplace j rest mutex place inserted =>
    have same : mutex = some (.erasing clock id todo erased) := after
    subst same
    generalize s.mutex = earlier at inserted
    cases inserted with
    | existing => exact ⟨todo, rfl⟩
    | erasing _ _ todo' => exact ⟨todo', rfl⟩
  | _ => exact ⟨todo, after⟩

theorem evictsExpired_worker (s t : State) (step : WorkerStep debug s t) (calm : Calm s)
    (evicts : EvictsExpired s) : EvictsExpired t := by
  intro clock id todo erased erasing
  have ⟨todo', here⟩ := worker_erasing debug s t step clock id todo erased erasing
  rw [Calm, here] at calm
  rw [worker_untouched debug s t step id calm.2.2]
  exact evicts clock id todo' erased here

theorem evictsExpired_locked (s t : State) (step : LockedStep s t) : EvictsExpired t := by
  intro clock id todo erased erasing
  cases step with
  | testExpired clock' id' todo' erased' shared place found expired =>
    have ⟨sameClock, sameId, _, _⟩ := Locked.erasing.inj (Option.some.inj erasing)
    rw [← sameClock, ← sameId]
    exact ⟨shared, found, expired⟩
  | _ => simp at erasing

def Serializable (s : State) : Prop :=
  ∃ order : List Invocation, order.Perm (.message jobs :: s.returned) ∧
    Serial debug before order s.registry

theorem serializable_of_inOrder (s : State) (order : InOrder debug jobs before s)
    (complete : s.worker = .counting []) (free : s.mutex = none) :
    Serializable debug jobs before s := by
  cases order with
  | ahead now place =>
    rw [complete] at place
    cases place
  | begun first second found left split head tail ready within =>
    rw [free, complete] at within
    have same : s.registry = left := within
    refine ⟨first ++ .message jobs :: second, ?_, ?_⟩
    · rw [split]
      exact List.perm_middle
    · rw [same]
      exact serial_append debug _ found left first _ head (.message _ _ jobs second tail)

def Run : State → Prop := Relation.ReflTransGen (Step debug) (start before jobs)

def CalmRun : State → Prop :=
  Relation.ReflTransGen (fun s t => Step debug s t ∧ Calm t) (start before jobs)

/-- In a calm run nothing is dropped, nothing fresh is evicted, and at its end
the result is that of whole calls one after the other. -/
theorem calm_run_serializable (s : State) (run : CalmRun debug jobs before s) :
    (∀ j rest, s.worker ≠ .aborted j rest) ∧ EvictsExpired s ∧
      (s.worker = .counting [] → s.mutex = none → Serializable debug jobs before s) := by
  have kept : Calm s ∧ InOrder debug jobs before s ∧ EvictsExpired s := by
    induction run with
    | refl => exact ⟨trivial, .ahead before rfl (.nil _) rfl, nofun⟩
    | tail _ last ih =>
      have ⟨calm, order, evicts⟩ := ih
      have ⟨step, calm'⟩ := last
      rcases step with worker | locked
      · exact ⟨calm', inOrder_worker debug jobs before _ _ worker calm calm' order,
          evictsExpired_worker debug _ _ worker calm evicts⟩
      · exact ⟨calm', inOrder_locked debug jobs before _ _ locked calm calm' order,
          evictsExpired_locked _ _ locked⟩
  have ⟨_, order, evicts⟩ := kept
  refine ⟨fun j rest aborted => ?_, evicts, serializable_of_inOrder debug jobs before s order⟩
  cases order with
  | ahead now place =>
    rw [aborted] at place
    cases place
  | begun first second found left split head tail ready within =>
    rw [aborted] at ready
    exact ready

end

def sampleRegistry : Registry :=
  fun id => if id = "a" then some ⟨1, .create "a" "A" 120 990 false⟩ else none

def sampleJob : Job := ⟨sampleEntry "up", 2⟩

def earlyClock (_ : String) : Int64 := 1050000000000

theorem iterates_sample : Iterates ["a"] sampleRegistry := by
  refine ⟨by decide, fun id => ?_⟩
  by_cases own : id = "a" <;> simp [sampleRegistry, own]

theorem registered_sample : Registered sampleRegistry [sampleJob] := by
  intro x named
  rw [List.mem_singleton.mp named]
  rfl

theorem keptAlive_sample : KeptAlive earlyClock sampleRegistry [sampleJob] := by
  intro x shared last found isLast
  by_cases own : "a" = x
  · subst own
    have only : entriesFor "a" ([sampleJob].map Job.entry) = [sampleEntry "up"] := by decide
    rw [only] at isLast
    cases isLast
    cases found
    decide
  · have none : entriesFor x ([sampleJob].map Job.entry) = [] := by
      simp [entriesFor, sampleJob, sampleEntry, own]
    rw [none] at isLast
    cases isLast

def sampleUpdated : Registry :=
  sampleRegistry.touch sampleJob.id (·.updateHeartbeat sampleJob.entry.lastHeartbeat)

/-- The sweep ran between the existence test and the two updates. -/
def overlapped : State :=
  ⟨sampleUpdated.touch sampleJob.id (·.updateMetadata sampleJob.entry.metadata), .counting [],
    none, [.sweep earlyClock]⟩

theorem overlapped_run : CalmRun false [sampleJob] sampleRegistry overlapped := by
  have entered : CalmRun false [sampleJob] sampleRegistry
      ⟨sampleRegistry, .counting [sampleJob], none, []⟩ :=
    .tail .refl ⟨.inl (.enter _ _ rfl), trivial⟩
  have counted : CalmRun false [sampleJob] sampleRegistry
      ⟨sampleRegistry, .heartbeat sampleJob [], none, []⟩ :=
    .tail entered ⟨.inl (.countPresent _ _ _ rfl rfl), trivial⟩
  have locked : CalmRun false [sampleJob] sampleRegistry
      ⟨sampleRegistry, .heartbeat sampleJob [], some (.testing earlyClock ["a"] []), []⟩ :=
    .tail counted ⟨.inr (.lockSweep _ _ _ rfl iterates_sample), registered_sample, keptAlive_sample⟩
  have tested : CalmRun false [sampleJob] sampleRegistry
      ⟨sampleRegistry, .heartbeat sampleJob [], some (.testing earlyClock [] []), []⟩ :=
    .tail locked ⟨.inr (.testLive _ _ _ _ _ _ rfl rfl (by decide)), registered_sample, keptAlive_sample⟩
  have unlocked : CalmRun false [sampleJob] sampleRegistry
      ⟨sampleRegistry, .heartbeat sampleJob [], none, [.sweep earlyClock]⟩ :=
    .tail tested ⟨.inr (.unlockSweep _ _ _ rfl), trivial⟩
  have updated : CalmRun false [sampleJob] sampleRegistry
      ⟨sampleUpdated, .metadata sampleJob [], none, [.sweep earlyClock]⟩ :=
    .tail unlocked ⟨.inl (.updateHeartbeat _ _ _ rfl rfl), trivial⟩
  exact .tail updated ⟨.inl (.updateMetadata _ _ _ rfl rfl), trivial⟩

theorem overlapped_serializable : Serializable false [sampleJob] sampleRegistry overlapped :=
  (calm_run_serializable false [sampleJob] sampleRegistry overlapped overlapped_run).2.2 rfl rfl

def secondJob : Job := ⟨⟨"B", "b", 120, 1590, "up"⟩, 3⟩

def lateClock (_ : String) : Int64 := 1600000000000

/-- The sweep evicted the service between its existence test and its update,
so that the exception of `at` dropped the entry and the one behind it. -/
def evicted : State :=
  ⟨Function.update sampleRegistry "a" none, .aborted sampleJob [secondJob], none,
    [.sweep lateClock]⟩

theorem evicted_run : Run false [sampleJob, secondJob] sampleRegistry evicted := by
  have entered : Run false [sampleJob, secondJob] sampleRegistry
      ⟨sampleRegistry, .counting [sampleJob, secondJob], none, []⟩ :=
    .tail .refl (.inl (.enter _ _ rfl))
  have counted : Run false [sampleJob, secondJob] sampleRegistry
      ⟨sampleRegistry, .heartbeat sampleJob [secondJob], none, []⟩ :=
    .tail entered (.inl (.countPresent _ _ _ rfl rfl))
  have locked : Run false [sampleJob, secondJob] sampleRegistry
      ⟨sampleRegistry, .heartbeat sampleJob [secondJob],
        some (.testing lateClock ["a"] []), []⟩ :=
    .tail counted (.inr (.lockSweep _ _ _ rfl iterates_sample))
  have tested : Run false [sampleJob, secondJob] sampleRegistry
      ⟨sampleRegistry, .heartbeat sampleJob [secondJob],
        some (.erasing lateClock "a" [] []), []⟩ :=
    .tail locked (.inr (.testExpired _ _ _ _ _ _ rfl rfl (by decide)))
  have erased : Run false [sampleJob, secondJob] sampleRegistry
      ⟨Function.update sampleRegistry "a" none, .heartbeat sampleJob [secondJob],
        some (.testing lateClock [] ["a"]), []⟩ :=
    .tail tested (.inr (.erase _ _ _ _ _ rfl))
  have unlocked : Run false [sampleJob, secondJob] sampleRegistry
      ⟨Function.update sampleRegistry "a" none, .heartbeat sampleJob [secondJob], none,
        [.sweep lateClock]⟩ :=
    .tail erased (.inr (.unlockSweep _ _ _ rfl))
  exact .tail unlocked (.inl (.heartbeatThrows _ _ _ rfl rfl))

theorem evicted_not_serializable :
    ∃ s, Run false [sampleJob, secondJob] sampleRegistry s ∧ s.mutex = none ∧
      s.worker = .aborted sampleJob [secondJob] ∧
      ¬ Serializable false [sampleJob, secondJob] sampleRegistry s := by
  refine ⟨evicted, evicted_run, rfl, rfl, fun serializable => ?_⟩
  have ⟨order, perm, serial⟩ := serializable
  have lost : (evicted.registry "b").isSome = false := rfl
  rw [serial_registry false _ _ _ serial] at lost
  rcases List.perm_pair.mp perm with first | last
  · rw [first] at lost
    revert lost
    decide
  · rw [last] at lost
    revert lost
    decide

end NetworkDiscovery.RegistryInterleaving

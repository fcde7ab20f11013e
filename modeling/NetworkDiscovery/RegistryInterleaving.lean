import Mathlib.Logic.Function.Basic
import NetworkDiscovery.RegistryHistory

/-! One process_message on the libevent thread beside the calls of other
threads. Each access to the map is a step. The sweep and the copying views
hold services_mutex from their first step to their last; the message takes no
lock. Whole calls act on the same registry one after the other. -/

namespace NetworkDiscovery.RegistryInterleaving
open ServiceDiscoveryClient

/-- A record and the address its shared pointers hold. -/
structure Shared where
  address : ℕ
  record : ServiceDiscoveryRecord

abbrev Registry := String → Option Shared

/-- A well-formed entry, with the address that a record made for it would get. -/
structure Job where
  entry : Entry
  address : ℕ

def Job.id (j : Job) : String := j.entry.serviceId

/-- Where process_message stands: before its loop, before `count`, before either
call of `at`, before `emplace`, or ended by the exception of `at` in entry `j`. -/
inductive Worker
  | waiting (jobs : List Job)
  | counting (jobs : List Job)
  | heartbeat (j : Job) (rest : List Job)
  | metadata (j : Job) (rest : List Job)
  | emplacing (j : Job) (rest : List Job)
  | aborted (j : Job) (rest : List Job)

/-- A call inside the mutex: the ids still ahead of its iterator, and those
erased or the elements copied so far. -/
inductive Locked
  | testing (clock : String → Int64) (todo erased : List String)
  | erasing (clock : String → Int64) (id : String) (todo erased : List String)
  | copying (todo : List String) (copied : List (String × ℕ))

/-- A whole call. Both views of the registry copy keys or pointers. -/
inductive Invocation
  | message (jobs : List Job)
  | sweep (clock : String → Int64)
  | snapshot (copied : List (String × ℕ))

structure State where
  registry : Registry
  worker : Worker
  mutex : Option Locked
  returned : List Invocation

def start (registry : Registry) (jobs : List Job) : State := ⟨registry, .waiting jobs, none, []⟩

def Registry.touch (id : String) (call : ServiceDiscoveryRecord → ServiceDiscoveryRecord)
    (registry : Registry) : Registry :=
  Function.update registry id
    ((registry id).map fun shared => { shared with record := call shared.record })

def Iterates (todo : List String) (registry : Registry) : Prop :=
  todo.Nodup ∧ ∀ id, id ∈ todo ↔ (registry id).isSome

/-- What may be ahead of an iterator once a new key is in the map. A Placement
rearranges the elements, since the insertion may rehash, and rehashing
invalidates the iterator: elements not yet reached may be skipped by the loop,
those already passed may come again. -/
structure Rehashed (registry : Registry) (id : String) (ahead : List String) : Prop where
  fresh : registry id = none
  distinct : ahead.Nodup
  elements : ∀ x ∈ ahead, x = id ∨ (registry x).isSome

inductive Inserted (registry : Registry) (id : String) : Option Locked → Option Locked → Prop
  | free : Inserted registry id none none
  | existing (mutex : Option Locked) (present : (registry id).isSome) :
      Inserted registry id mutex mutex
  | testing (clock : String → Int64) (todo ahead erased : List String)
      (rehashed : Rehashed registry id ahead) :
      Inserted registry id (some (.testing clock todo erased)) (some (.testing clock ahead erased))
  | erasing (clock : String → Int64) (x : String) (todo ahead erased : List String)
      (rehashed : Rehashed registry id (x :: ahead)) :
      Inserted registry id (some (.erasing clock x todo erased))
        (some (.erasing clock x ahead erased))
  | copying (todo ahead : List String) (copied : List (String × ℕ))
      (rehashed : Rehashed registry id ahead) :
      Inserted registry id (some (.copying todo copied)) (some (.copying ahead copied))

section
variable (debug : Bool)

def Job.created (j : Job) : Shared where
  address := j.address
  record := .create j.id j.entry.service j.entry.heartbeatTimeout j.entry.lastHeartbeat debug

/-- The steps of process_message, with an array of well-formed entries. -/
inductive WorkerStep : State → State → Prop
  | enter (s : State) (jobs : List Job) (place : s.worker = .waiting jobs) :
      WorkerStep s { s with worker := .counting jobs }
  | countPresent (s : State) (j : Job) (rest : List Job)
      (place : s.worker = .counting (j :: rest)) (present : (s.registry j.id).isSome) :
      WorkerStep s { s with worker := .heartbeat j rest }
  | countAbsent (s : State) (j : Job) (rest : List Job)
      (place : s.worker = .counting (j :: rest)) (absent : s.registry j.id = none) :
      WorkerStep s { s with worker := .emplacing j rest }
  | updateHeartbeat (s : State) (j : Job) (rest : List Job)
      (place : s.worker = .heartbeat j rest) (present : (s.registry j.id).isSome) :
      WorkerStep s { s with
        registry := s.registry.touch j.id (·.updateHeartbeat j.entry.lastHeartbeat)
        worker := .metadata j rest }
  | heartbeatThrows (s : State) (j : Job) (rest : List Job)
      (place : s.worker = .heartbeat j rest) (absent : s.registry j.id = none) :
      WorkerStep s { s with worker := .aborted j rest }
  | updateMetadata (s : State) (j : Job) (rest : List Job)
      (place : s.worker = .metadata j rest) (present : (s.registry j.id).isSome) :
      WorkerStep s { s with
        registry := s.registry.touch j.id (·.updateMetadata j.entry.metadata)
        worker := .counting rest }
  | metadataThrows (s : State) (j : Job) (rest : List Job)
      (place : s.worker = .metadata j rest) (absent : s.registry j.id = none) :
      WorkerStep s { s with worker := .aborted j rest }
  | emplace (s : State) (j : Job) (rest : List Job) (mutex : Option Locked)
      (place : s.worker = .emplacing j rest)
      (inserted : Inserted s.registry j.id s.mutex mutex) :
      WorkerStep s { s with
        registry := Function.update s.registry j.id
          (some ((s.registry j.id).getD (j.created debug)))
        worker := .counting rest
        mutex := mutex }

inductive LockedStep : State → State → Prop
  | lockSweep (s : State) (clock : String → Int64) (todo : List String)
      (free : s.mutex = none) (all : Iterates todo s.registry) :
      LockedStep s { s with mutex := some (.testing clock todo []) }
  | testExpired (s : State) (clock : String → Int64) (id : String) (todo erased : List String)
      (shared : Shared) (place : s.mutex = some (.testing clock (id :: todo) erased))
      (found : s.registry id = some shared) (expired : shared.record.isExpired (clock id) = true) :
      LockedStep s { s with mutex := some (.erasing clock id todo erased) }
  | testLive (s : State) (clock : String → Int64) (id : String) (todo erased : List String)
      (shared : Shared) (place : s.mutex = some (.testing clock (id :: todo) erased))
      (found : s.registry id = some shared) (live : shared.record.isExpired (clock id) = false) :
      LockedStep s { s with mutex := some (.testing clock todo erased) }
  | erase (s : State) (clock : String → Int64) (id : String) (todo erased : List String)
      (place : s.mutex = some (.erasing clock id todo erased)) :
      LockedStep s { s with
        registry := Function.update s.registry id none
        mutex := some (.testing clock todo (id :: erased)) }
  | unlockSweep (s : State) (clock : String → Int64) (erased : List String)
      (place : s.mutex = some (.testing clock [] erased)) :
      LockedStep s { s with mutex := none, returned := s.returned ++ [.sweep clock] }
  | lockSnapshot (s : State) (todo : List String)
      (free : s.mutex = none) (all : Iterates todo s.registry) :
      LockedStep s { s with mutex := some (.copying todo []) }
  | copy (s : State) (id : String) (todo : List String) (copied : List (String × ℕ))
      (shared : Shared) (place : s.mutex = some (.copying (id :: todo) copied))
      (found : s.registry id = some shared) :
      LockedStep s { s with mutex := some (.copying todo (copied ++ [(id, shared.address)])) }
  | unlockSnapshot (s : State) (copied : List (String × ℕ))
      (place : s.mutex = some (.copying [] copied)) :
      LockedStep s { s with mutex := none, returned := s.returned ++ [.snapshot copied] }

def Step (s t : State) : Prop := WorkerStep debug s t ∨ LockedStep s t

/-! ### Whole calls -/

def Job.recorded (j : Job) : Option Shared → Shared
  | some shared => { shared with record :=
      (shared.record.updateHeartbeat j.entry.lastHeartbeat).updateMetadata j.entry.metadata }
  | none => j.created debug

def processOne (registry : Registry) (j : Job) : Registry :=
  Function.update registry j.id (some (j.recorded debug (registry j.id)))

def process (jobs : List Job) (registry : Registry) : Registry :=
  jobs.foldl (processOne debug) registry

def swept (clock : String → Int64) (registry : Registry) : Registry :=
  fun id => (registry id).filter fun shared => !shared.record.isExpired (clock id)

def Copies (registry : Registry) (copied : List (String × ℕ)) : Prop :=
  (copied.map Prod.fst).Nodup ∧
    ∀ id address, (id, address) ∈ copied ↔ (registry id).map Shared.address = some address

inductive Serial : Registry → List Invocation → Registry → Prop
  | nil (registry : Registry) : Serial registry [] registry
  | message (before after : Registry) (jobs : List Job) (rest : List Invocation)
      (serial : Serial (process debug jobs before) rest after) :
      Serial before (.message jobs :: rest) after
  | sweep (before after : Registry) (clock : String → Int64) (rest : List Invocation)
      (serial : Serial (swept clock before) rest after) :
      Serial before (.sweep clock :: rest) after
  | snapshot (before after : Registry) (copied : List (String × ℕ)) (rest : List Invocation)
      (copies : Copies before copied) (serial : Serial before rest after) :
      Serial before (.snapshot copied :: rest) after

theorem serial_append (before middle after : Registry) (first second : List Invocation)
    (head : Serial debug before first middle) (tail : Serial debug middle second after) :
    Serial debug before (first ++ second) after := by
  induction head with
  | nil => exact tail
  | message before _ jobs rest _ ih => exact .message _ _ jobs _ (ih tail)
  | sweep before _ clock rest _ ih => exact .sweep _ _ clock _ (ih tail)
  | snapshot before _ copied rest copies _ ih => exact .snapshot _ _ copied _ copies (ih tail)

def Invocation.effect : Invocation → Registry → Registry
  | .message jobs => process debug jobs
  | .sweep clock => swept clock
  | .snapshot _ => id

theorem serial_registry (before after : Registry) (order : List Invocation)
    (serial : Serial debug before order after) :
    after = order.foldl (fun registry call => call.effect debug registry) before := by
  induction serial with
  | nil => rfl
  | message _ _ _ _ _ ih => exact ih
  | sweep _ _ _ _ _ ih => exact ih
  | snapshot _ _ _ _ _ _ ih => exact ih

theorem process_cons (j : Job) (rest : List Job) (registry : Registry) :
    process debug (j :: rest) registry = process debug rest (processOne debug registry j) := rfl

theorem process_apply (jobs : List Job) (registry : Registry) (x : String) :
    process debug jobs registry x =
      (jobs.filter (·.id = x)).foldl (fun found j => some (j.recorded debug found))
        (registry x) := by
  induction jobs generalizing registry with
  | nil => rfl
  | cons j rest ih =>
    rw [process_cons, ih, processOne, List.filter_cons]
    by_cases own : j.id = x
    · subst own
      simp
    · simp [own, Ne.symm own]

theorem process_local (jobs : List Job) (registry other : Registry) (x : String)
    (same : registry x = other x) : process debug jobs registry x = process debug jobs other x := by
  rw [process_apply, process_apply, same]

theorem process_unnamed (jobs : List Job) (registry : Registry) (x : String)
    (unnamed : x ∉ jobs.map Job.id) : process debug jobs registry x = registry x := by
  have none : jobs.filter (·.id = x) = [] := by
    rw [List.filter_eq_nil_iff]
    intro j member own
    exact unnamed (List.mem_map.mpr ⟨j, member, by simpa using own⟩)
  rw [process_apply, none]
  rfl

theorem process_address (jobs : List Job) (registry : Registry) (x : String) (shared : Shared)
    (found : registry x = some shared) :
    (process debug jobs registry x).map Shared.address = some shared.address := by
  rw [process_apply, found]
  clear found
  induction jobs.filter (·.id = x) generalizing shared with
  | nil => rfl
  | cons j rest ih =>
    have kept := ih (Job.recorded debug j (some shared))
    exact kept

theorem foldl_recorded (jobs : List Job) (found : Option Shared) :
    (jobs.foldl (fun found j => some (j.recorded debug found)) found).map Shared.record =
      (jobs.map Job.entry).foldl (recordOne debug) (found.map Shared.record) := by
  induction jobs generalizing found with
  | nil => rfl
  | cons j rest ih =>
    have one : some (j.recorded debug found).record =
        recordOne debug (found.map Shared.record) j.entry := by
      cases found <;> rfl
    rw [List.foldl_cons, ih, List.map_cons, List.foldl_cons, ← one]
    rfl

theorem process_record (jobs : List Job) (registry : Registry) (x : String) :
    (process debug jobs registry x).map Shared.record =
      (entriesFor x (jobs.map Job.entry)).foldl (recordOne debug)
        ((registry x).map Shared.record) := by
  rw [process_apply, foldl_recorded, entriesFor, List.filter_map]
  rfl

end

/-! ### The registry of the client -/

/-- Lookup in the map of the client, pointers forgotten. -/
def Represents (registry : Registry) (services : Services) : Prop :=
  ∀ id, (registry id).map Shared.record = services.find? id

theorem represents_process (lib : Nlohmann) (debug : Bool) (order : Order) (message : Message)
    (jobs : List Job) (entries : messageEntries lib message = jobs.map Job.entry)
    (registry : Registry) (services : Services) (same : Represents registry services) :
    Represents (process debug jobs registry)
      (servicesAfter (processMessage lib debug order message) services) := by
  intro id
  rw [process_record, servicesAfter_processMessage, entries, find?_recordAll, same id]

theorem represents_swept (clock : String → Int64) (registry : Registry) (services : Services)
    (same : Represents registry services) :
    Represents (swept clock registry) (checkServices clock services) := by
  intro id
  rw [RegistryHistory.find?_checkServices, ← same id, swept]
  cases registry id with
  | none => rfl
  | some shared => cases live : shared.record.isExpired (clock id) <;> simp [Option.filter, live]

theorem represents_snapshot (registry : Registry) (services : Services)
    (same : Represents registry services) (copied : List (String × ℕ))
    (copies : Copies registry copied) :
    (copied.map Prod.fst).Perm (getExistingServices services) := by
  refine (List.perm_ext_iff_of_nodup copies.1 services.nodup).mpr fun id => ?_
  have listed : id ∈ getExistingServices services ↔ (services.find? id).isSome :=
    services.mem_keys id
  have member : id ∈ copied.map Prod.fst ↔ ∃ address, (id, address) ∈ copied := by simp
  rw [member]
  refine Iff.trans ?_ listed.symm
  rw [← same id, Option.isSome_map]
  cases found : registry id <;> simp [copies.2, found]

end NetworkDiscovery.RegistryInterleaving

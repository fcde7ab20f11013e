import Mathlib.Algebra.Order.Ring.Int
import Mathlib.Data.List.Induction
import NetworkDiscovery.NNGClientRuns

/-! The attempts to connect that a run of calls makes. Each sets the time of the
next one before its outcome is known, and no other call moves that time, so the
attempts keep their distance. Failed attempts are counted, but the count is only
logged against its maximum and stops nothing. -/

namespace NetworkDiscovery.NNGClient
open ActionRuns (Along along_left along_concat)

/-- A call of `connect` that gets past its tests, with the clock it has read. -/
structure Attempt where
  tested : Int64
  scheduled : Int64
  failed : Bool
  deriving DecidableEq, Repr

def attempt? (client : NNGClient) : Call → Option Attempt
  | .connect o =>
    if client.connected = true ∨ o.tested < client.nextConnect then none
    else some ⟨o.tested, o.scheduled, match o.tried client with
      | .ok _ => false
      | .error _ => true⟩
  | _ => none

def attempts (client : NNGClient) : List Call → List Attempt
  | [] => []
  | call :: rest => (client.attempt? call).toList ++ (client.step call).attempts rest

theorem attempts_append (client : NNGClient) (before after : List Call) :
    client.attempts (before ++ after) =
      client.attempts before ++ (client.runCalls before).attempts after := by
  induction before generalizing client with
  | nil => rfl
  | cons call rest ih =>
    rw [List.cons_append, attempts, ih, attempts, List.append_assoc]
    rfl

theorem attempts_concat (client : NNGClient) (calls : List Call) (call : Call) :
    client.attempts (calls ++ [call]) =
      client.attempts calls ++ ((client.runCalls calls).attempt? call).toList := by
  rw [attempts_append, attempts, attempts, List.append_nil]

theorem attempts_split (client : NNGClient) (calls : List Call) (earlier later : List Attempt)
    (a : Attempt) (split : client.attempts calls = earlier ++ a :: later) :
    ∃ before call after, calls = before ++ call :: after ∧ client.attempts before = earlier ∧
      (client.runCalls before).attempt? call = some a := by
  induction calls generalizing client earlier with
  | nil =>
    have empty : [] = earlier ++ a :: later := split
    simp at empty
  | cons call rest ih =>
    rw [attempts] at split
    cases made : client.attempt? call with
    | none =>
      rw [made] at split
      have ⟨before, next, after, parts, same, attempt⟩ := ih (client.step call) earlier split
      refine ⟨call :: before, next, after, by rw [parts, List.cons_append], ?_, attempt⟩
      rw [attempts, made, same]
      rfl
    | some first =>
      rw [made] at split
      cases earlier with
      | nil =>
        have here : first = a := (List.cons.inj split).1
        exact ⟨[], call, rest, rfl, rfl, here ▸ made⟩
      | cons other earlier =>
        have ⟨head, tail⟩ := List.cons.inj split
        have ⟨before, next, after, parts, same, attempt⟩ := ih (client.step call) earlier tail
        refine ⟨call :: before, next, after, by rw [parts, List.cons_append], ?_, attempt⟩
        rw [attempts, made, same, ← head]
        rfl

theorem connect_of_attempt (client : NNGClient) (call : Call) (a : Attempt)
    (made : client.attempt? call = some a) :
    ∃ o, call = .connect o ∧ ¬(client.connected = true ∨ o.tested < client.nextConnect) ∧
      a = ⟨o.tested, o.scheduled, match o.tried client with
        | .ok _ => false
        | .error _ => true⟩ := by
  cases call with
  | connect o =>
    rw [attempt?] at made
    split at made
    case isTrue => cases made
    case isFalse free => exact ⟨o, rfl, free, (Option.some.inj made).symm⟩
  | _ => cases made

theorem step_of_none (client : NNGClient) (call : Call) (idle : client.attempt? call = none) :
    ∃ connected socket, client.step call = { client with connected := connected, socket := socket } := by
  cases call with
  | connect o =>
    rw [attempt?] at idle
    split at idle
    case isTrue held =>
      rw [step_connect, if_pos held]
      exact ⟨client.connected, client.socket, rfl⟩
    case isFalse => cases idle
  | listen opened listened =>
    rw [step, stateAfter, listen_run]
    by_cases publisher : client.type ≠ .pub
    · rw [if_pos publisher]
      exact ⟨client.connected, client.socket, rfl⟩
    · rw [if_neg publisher]
      cases opened with
      | error e => exact ⟨client.connected, client.socket, rfl⟩
      | ok socket =>
        cases listened client.host with
        | error e => exact ⟨client.connected, socket, rfl⟩
        | ok _ => exact ⟨true, socket, rfl⟩
  | send msg sent =>
    rw [step, stateAfter, send_run]
    cases sent msg with
    | error e => exact ⟨false, client.socket, rfl⟩
    | ok _ => exact ⟨client.connected, client.socket, rfl⟩
  | receive received =>
    rw [step, receive_state]
    exact ⟨client.connected, client.socket, rfl⟩

theorem step_of_some (client : NNGClient) (call : Call) (a : Attempt)
    (made : client.attempt? call = some a) :
    ∃ connected socket, client.step call = { client with
      connected := connected
      socket := socket
      nextConnect := a.scheduled + client.reconnectInterval
      failCounter := if a.failed then client.failCounter + 1 else 0 } := by
  have ⟨o, connects, free, same⟩ := connect_of_attempt client call a made
  rw [connects, step_connect, if_neg free, attempted, same]
  cases o.tried client with
  | ok _ => exact ⟨true, o.socketAfter client, rfl⟩
  | error e => exact ⟨client.connected, o.socketAfter client, rfl⟩

theorem step_settings (client : NNGClient) (call : Call) :
    (client.step call).reconnectInterval = client.reconnectInterval ∧
      (client.step call).failCounterMax = client.failCounterMax := by
  cases made : client.attempt? call with
  | none =>
    have ⟨_, _, same⟩ := step_of_none client call made
    rw [same]
    exact ⟨rfl, rfl⟩
  | some a =>
    have ⟨_, _, same⟩ := step_of_some client call a made
    rw [same]
    exact ⟨rfl, rfl⟩

theorem runCalls_settings (client : NNGClient) (calls : List Call) :
    (client.runCalls calls).reconnectInterval = client.reconnectInterval ∧
      (client.runCalls calls).failCounterMax = client.failCounterMax := by
  induction calls generalizing client with
  | nil => exact ⟨rfl, rfl⟩
  | cons call rest ih =>
    have ⟨interval, most⟩ := step_settings client call
    have ⟨later_interval, later_most⟩ := ih (client.step call)
    exact ⟨later_interval.trans interval, later_most.trans most⟩

section

def readingsOf (client : NNGClient) : Call → List Int64
  | .connect o =>
    if client.connected then []
    else if o.tested < client.nextConnect then [o.tested]
    else [o.tested, o.scheduled]
  | _ => []

def readings (client : NNGClient) : List Call → List Int64
  | [] => []
  | call :: rest => client.readingsOf call ++ (client.step call).readings rest

def Forward (clock : List Int64) : Prop := clock.Pairwise fun earlier later => earlier.toInt ≤ later.toInt

def InRange (interval : UInt64) (clock : List Int64) : Prop :=
  interval.toNat < 2 ^ 63 ∧ ∀ reading ∈ clock, reading.toInt + interval.toNat < 2 ^ 63

theorem readings_append (client : NNGClient) (before after : List Call) :
    client.readings (before ++ after) =
      client.readings before ++ (client.runCalls before).readings after := by
  induction before generalizing client with
  | nil => rfl
  | cons call rest ih =>
    rw [List.cons_append, readings, ih, readings, List.append_assoc]
    rfl

theorem readingsOf_attempt (client : NNGClient) (call : Call) (a : Attempt)
    (made : client.attempt? call = some a) : client.readingsOf call = [a.tested, a.scheduled] := by
  have ⟨o, connects, free, same⟩ := connect_of_attempt client call a made
  have ⟨unconnected, late⟩ := not_or.mp free
  rw [connects, readingsOf, if_neg unconnected, if_neg late, same]

theorem toInt_scheduled (interval : UInt64) (clock : List Int64) (range : InRange interval clock)
    (scheduled : Int64) (read : scheduled ∈ clock) :
    (scheduled + interval.toInt64).toInt = scheduled.toInt + interval.toNat := by
  have small := range.1
  have sum := range.2 scheduled read
  have low := scheduled.le_toInt
  have exact_interval : interval.toInt64.toInt = interval.toNat := by
    rw [← Int64.toInt_toBitVec, UInt64.toBitVec_toInt64, BitVec.toInt_eq_toNat_of_lt]
    · rfl
    · rw [UInt64.toNat_toBitVec]
      omega
  rw [Int64.toInt_add, exact_interval]
  apply Int.bmod_eq_of_le <;> omega

theorem attempts_after (interval : UInt64) (client : NNGClient) (calls : List Call)
    (setting : client.reconnectInterval = interval.toInt64)
    (forward : Forward (client.readings calls)) (range : InRange interval (client.readings calls))
    (between after : List Attempt) (b : Attempt)
    (split : client.attempts calls = between ++ b :: after) :
    (between.length : ℤ) * interval.toNat ≤ b.tested.toInt - client.nextConnect.toInt := by
  induction calls generalizing client between with
  | nil =>
    have empty : [] = between ++ b :: after := split
    simp at empty
  | cons call rest ih =>
    rw [readings] at forward range
    have later := (List.pairwise_append.mp forward).2.1
    have within : InRange interval ((client.step call).readings rest) :=
      ⟨range.1, fun reading member => range.2 reading (List.mem_append_right _ member)⟩
    have kept := (step_settings client call).1.trans setting
    rw [attempts] at split
    cases made : client.attempt? call with
    | none =>
      have ⟨_, _, same⟩ := step_of_none client call made
      rw [made] at split
      have bound := ih (client.step call) kept later within between split
      rw [same] at bound
      exact bound
    | some a =>
      have ⟨_, _, same⟩ := step_of_some client call a made
      have ⟨o, _, free, attempt⟩ := connect_of_attempt client call a made
      have on_time : client.nextConnect.toInt ≤ a.tested.toInt := by
        rw [attempt, ← not_lt, ← Int64.lt_iff_toInt_lt]
        exact (not_or.mp free).2
      rw [made] at split
      cases between with
      | nil =>
        obtain rfl : a = b := (List.cons.inj split).1
        simpa using on_time
      | cons first between =>
        have bound := ih (client.step call) kept later within between
          (List.cons.inj split).2
        rw [readingsOf_attempt client call a made] at forward range
        have read : a.scheduled ∈ [a.tested, a.scheduled] ++ (client.step call).readings rest := by
          simp
        have next := toInt_scheduled interval _ range a.scheduled read
        have ordered : a.tested.toInt ≤ a.scheduled.toInt :=
          List.rel_of_pairwise_cons forward (by simp)
        rw [same, setting, next] at bound
        have more : ((first :: between).length : ℤ) * interval.toNat =
            between.length * interval.toNat + interval.toNat := by
          rw [List.length_cons, Nat.cast_succ, add_mul, one_mul]
        rw [more]
        omega

/-- From the last reading at one attempt to the first reading at a later one,
the interval passes once for each step between the two. -/
def KeepsDistance (interval : UInt64) (made : List Attempt) : Prop :=
  ∀ before a between b after, made = before ++ a :: (between ++ b :: after) →
    (between.length + 1 : ℤ) * interval.toNat ≤ b.tested.toInt - a.scheduled.toInt

def HeldBack (client : NNGClient) : Call → Prop
  | .connect o => client.connected = false → o.tested < client.nextConnect →
      ∃ e, e ≠ NngError.success ∧ (connect o).run client = .ok e client
  | _ => True

theorem heldBack (client : NNGClient) (call : Call) : HeldBack client call := by
  cases call with
  | connect o =>
    intro unconnected early
    refine ⟨.internal, by decide, ?_⟩
    rw [connect_run, if_neg (Bool.eq_false_iff.mp unconnected), if_pos early]
  | _ => trivial

theorem keepsDistance (interval : UInt64) (client : NNGClient) (calls : List Call)
    (setting : client.reconnectInterval = interval.toInt64)
    (forward : Forward (client.readings calls)) (range : InRange interval (client.readings calls)) :
    KeepsDistance interval (client.attempts calls) := by
  intro before a between b after split
  have ⟨earlier, call, later, parts, same, made⟩ := attempts_split client calls before _ a split
  have ⟨_, _, next⟩ := step_of_some (client.runCalls earlier) call a made
  have interval_kept := (runCalls_settings client earlier).1.trans setting
  rw [parts, readings_append, readings, readingsOf_attempt _ call a made] at forward range
  have rest : ((client.runCalls earlier).step call).attempts later = between ++ b :: after := by
    rw [parts, attempts_append, attempts, made, same] at split
    exact (List.cons.inj (List.append_cancel_left split)).2
  have later_forward := (List.pairwise_append.mp (List.pairwise_append.mp forward).2.1).2.1
  have later_range : InRange interval (((client.runCalls earlier).step call).readings later) :=
    ⟨range.1, fun reading member => range.2 reading (by simp [member])⟩
  have bound := attempts_after interval _ later (by rw [next]; exact interval_kept) later_forward
    later_range between after b rest
  rw [next, interval_kept, toInt_scheduled interval _ range a.scheduled (by simp)] at bound
  rw [add_mul, one_mul]
  omega

theorem attempts_spaced (host : String) (port : Int32) (type : NNGClientType) (now : Int64)
    (reconnectInterval maxReconnectFailures : UInt64) (calls : List Call)
    (forward : Forward (now ::
      (create host port type now reconnectInterval maxReconnectFailures).readings calls))
    (range : InRange reconnectInterval (now ::
      (create host port type now reconnectInterval maxReconnectFailures).readings calls)) :
    KeepsDistance reconnectInterval
      ((create host port type now reconnectInterval maxReconnectFailures).attempts calls) ∧
    Along step HeldBack (create host port type now reconnectInterval maxReconnectFailures) calls := by
  refine ⟨keepsDistance reconnectInterval _ calls rfl (List.pairwise_cons.mp forward).2
    ⟨range.1, fun reading member => range.2 reading (List.mem_cons_of_mem now member)⟩, ?_⟩
  intro before call after _
  exact heldBack _ call

def refusedAt (tested scheduled : Int64) : Call :=
  .connect ⟨tested, scheduled, .ok 1, .ok (), fun _ => .error ⟨6, by decide⟩⟩

/-- An attempt at 10, a call at 12 that is held back, and an attempt at 17. -/
def sampleCalls : List Call := [refusedAt 10 11, refusedAt 12 12, refusedAt 17 17]

theorem attempts_spaced_sample :
    KeepsDistance 5 ((create "localhost" 5555 .req 10 5).attempts sampleCalls) ∧
    Along step HeldBack (create "localhost" 5555 .req 10 5) sampleCalls := by
  have clock : (create "localhost" 5555 .req 10 5).readings sampleCalls = [10, 11, 12, 17, 17] := by
    decide
  refine attempts_spaced "localhost" 5555 .req 10 5 5 sampleCalls ?_ ?_
  · rw [clock]
    simp [Forward]
  · rw [clock]
    simp [InRange]

end

section

def failedInARow (made : List Attempt) : Nat := (made.reverse.takeWhile (·.failed)).length

theorem failedInARow_concat (made : List Attempt) (a : Attempt) :
    failedInARow (made ++ [a]) = if a.failed then failedInARow made + 1 else 0 := by
  rw [failedInARow, List.reverse_concat, List.takeWhile_cons]
  cases a.failed <;> rfl

def GivesUp (client : NNGClient) (calls : List Call) : Prop :=
  (∀ before after, calls = before ++ after →
    (client.runCalls before).getFailCounter ≤ (client.runCalls before).getNngMaxFailCount) ∧
  ∀ earlier a later, client.attempts calls = earlier ++ a :: later →
    failedInARow earlier < client.getNngMaxFailCount.toNat

/-- A `connect` that is neither held back nor needless finds the count below its maximum. -/
def Permitted (client : NNGClient) : Call → Prop
  | .connect o => client.connected = true ∨ o.tested < client.nextConnect ∨
      client.failCounter < client.failCounterMax
  | _ => True

theorem permitted_iff (client : NNGClient) (call : Call) :
    Permitted client call ↔
      ∀ a, client.attempt? call = some a → client.failCounter < client.failCounterMax := by
  cases call with
  | connect o =>
    by_cases held : client.connected = true ∨ o.tested < client.nextConnect
    · refine iff_of_true (held.elim .inl fun early => .inr (.inl early)) fun a made => ?_
      rw [attempt?, if_pos held] at made
      cases made
    · rw [Permitted, ← or_assoc, or_iff_right held]
      have made : client.attempt? (.connect o) = some _ := if_neg held
      exact ⟨fun below _ _ => below, fun below => below _ made⟩
  | _ => exact iff_of_true trivial fun a made => nomatch made

theorem failCounter_eq (client : NNGClient) (fresh : client.failCounter = 0) (calls : List Call)
    (permitted : Along step Permitted client calls) :
    (client.runCalls calls).failCounter.toNat = failedInARow (client.attempts calls) ∧
      (client.runCalls calls).failCounter ≤ client.failCounterMax := by
  induction calls using List.reverseRecOn with
  | nil =>
    show client.failCounter.toNat = 0 ∧ client.failCounter ≤ client.failCounterMax
    rw [fresh]
    exact ⟨rfl, UInt64.zero_le⟩
  | append_singleton calls call ih =>
    have ⟨earlier, last⟩ := (along_concat step Permitted client calls call).mp permitted
    have ⟨counted, bounded⟩ := ih earlier
    have most := (runCalls_settings client calls).2
    have taken : client.runCalls (calls ++ [call]) = (client.runCalls calls).step call :=
      List.foldl_concat step client call calls
    rw [taken, attempts_concat]
    cases made : (client.runCalls calls).attempt? call with
    | none =>
      have ⟨_, _, same⟩ := step_of_none _ call made
      rw [same, Option.toList_none, List.append_nil]
      exact ⟨counted, bounded⟩
    | some a =>
      have ⟨_, _, same⟩ := step_of_some _ call a made
      have below := (permitted_iff (client.runCalls calls) call).mp last a made
      rw [most, UInt64.lt_iff_toNat_lt] at below
      rw [same, Option.toList_some, failedInARow_concat, UInt64.le_iff_toNat_le]
      cases a.failed with
      | false => exact ⟨rfl, Nat.zero_le _⟩
      | true =>
        -- below its maximum the count does not wrap around
        have no_wrap := client.failCounterMax.toNat_lt
        have increased : ((client.runCalls calls).failCounter + 1).toNat =
            (client.runCalls calls).failCounter.toNat + 1 := by
          rw [UInt64.toNat_add]
          exact Nat.mod_eq_of_lt (by show _ + 1 < _; omega)
        rw [if_pos rfl, if_pos rfl, increased, counted]
        rw [counted] at below
        exact ⟨rfl, below⟩

theorem givesUp_of_concat (client : NNGClient) (calls : List Call) (call : Call)
    (gives_up : GivesUp client (calls ++ [call])) : GivesUp client calls := by
  refine ⟨fun before after split => ?_, fun earlier a later split => ?_⟩
  · exact gives_up.1 before (after ++ [call]) (by rw [split, List.append_assoc])
  · apply gives_up.2 earlier a (later ++ ((client.runCalls calls).attempt? call).toList)
    rw [attempts_concat, split, List.append_assoc, List.cons_append]

theorem givesUp_iff_permitted (client : NNGClient) (fresh : client.failCounter = 0)
    (calls : List Call) : GivesUp client calls ↔ Along step Permitted client calls := by
  refine ⟨fun gives_up => ?_, fun permitted => ⟨?_, ?_⟩⟩
  · induction calls using List.reverseRecOn with
    | nil =>
      intro before call after split
      simp at split
    | append_singleton calls call ih =>
      have earlier := ih (givesUp_of_concat client calls call gives_up)
      refine (along_concat step Permitted client calls call).mpr ⟨earlier, ?_⟩
      refine (permitted_iff (client.runCalls calls) call).mpr fun a made => ?_
      have counted := (failCounter_eq client fresh calls earlier).1
      have most := (runCalls_settings client calls).2
      have few := gives_up.2 (client.attempts calls) a [] (by rw [attempts_concat, made]; rfl)
      rw [UInt64.lt_iff_toNat_lt, counted, most]
      exact few
  · intro before after split
    rw [split] at permitted
    have bounded := (failCounter_eq client fresh before
      (along_left step Permitted client before after permitted)).2
    have most := (runCalls_settings client before).2
    rw [getFailCounter, getNngMaxFailCount, most]
    exact bounded
  · intro earlier a later split
    have ⟨before, call, after, parts, same, made⟩ := attempts_split client calls earlier later a split
    rw [parts] at permitted
    have counted := (failCounter_eq client fresh before
      (along_left step Permitted client before (call :: after) permitted)).1
    have here := permitted before call after rfl
    have below := (permitted_iff (client.runCalls before) call).mp here a made
    have most := (runCalls_settings client before).2
    rw [UInt64.lt_iff_toNat_lt, counted, same, most] at below
    exact below

theorem gives_up_iff (host : String) (port : Int32) (type : NNGClientType) (now : Int64)
    (reconnectInterval maxReconnectFailures : UInt64) (calls : List Call) :
    GivesUp (create host port type now reconnectInterval maxReconnectFailures) calls ↔
      Along step Permitted (create host port type now reconnectInterval maxReconnectFailures)
        calls :=
  givesUp_iff_permitted _ rfl calls

theorem dials_again : ¬GivesUp (create "localhost" 5555 .req 0 0 1) [refusedAt 0 0, refusedAt 0 0] := by
  intro gives_up
  have bounded := gives_up.1 [refusedAt 0 0, refusedAt 0 0] [] rfl
  exact absurd bounded (by decide)

end

end NetworkDiscovery.NNGClient

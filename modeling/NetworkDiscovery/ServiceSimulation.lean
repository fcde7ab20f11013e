import Mathlib.Algebra.GroupWithZero.Nat
import Mathlib.Algebra.Order.Group.Int
import Mathlib.Data.List.ProdSigma
import NetworkDiscovery.HeartbeatLoop

/-! The simulated services of the main program. Each goes offline at random and
counts its iterations until it comes back, while its heartbeat thread goes on.
The offline time is exact in iterations, and silent after one presence at most. -/

namespace NetworkDiscovery.ServiceSimulation
open ActionRuns
open HeartbeatLoop (Heart)

structure Simulation where
  isOffline : Bool
  offlineCounter : ℤ
  heart : Heart

/-- An iteration of the loop, with what `rand` returns and what would be drawn for the
offline time, or an action of the threads that the listener runs in. -/
inductive Action
  | iterate (rand : ℕ) (offlineDuration : ℤ)
  | listener (a : HeartbeatLoop.Action)

def start : Simulation := ⟨false, 0, HeartbeatLoop.start⟩

/-- The heartbeat is switched by the loop alone, and the listener is never destroyed. -/
def ofListener : HeartbeatLoop.Action → Bool
  | .thread | .makeChannel | .connection _ _ => true
  | .enableHeartbeat | .disableHeartbeat | .stop => false

/-- `uniform_int_distribution<> offline_duration(5, 400)` -/
def Drawn (offlineDuration : ℤ) : Prop := 5 ≤ offlineDuration ∧ offlineDuration ≤ 400

instance (offlineDuration : ℤ) : Decidable (Drawn offlineDuration) :=
  inferInstanceAs (Decidable (_ ∧ _))

def step (s : Simulation) : Action → Option Simulation
  | .iterate rand offlineDuration =>
    if ¬Drawn offlineDuration then none
    else if !s.isOffline then
      if rand % 10 = 0 then some
        { s with isOffline := true
                 offlineCounter := offlineDuration
                 heart := { s.heart with heartbeatEnabled := false } }
      else some s
    else if s.offlineCounter > 0 then some { s with offlineCounter := s.offlineCounter - 1 }
    else some { s with isOffline := false
                       heart := { s.heart with heartbeatEnabled := true } }
  | .listener a =>
    if ofListener a then (HeartbeatLoop.step s.heart a).map fun heart => { s with heart := heart }
    else none

def goesOffline (s : Simulation) (offlineDuration : ℤ) : Simulation :=
  { s with isOffline := true
           offlineCounter := offlineDuration
           heart := { s.heart with heartbeatEnabled := false } }

def Action.iterates : Action → ℕ
  | .iterate _ _ => 1
  | .listener _ => 0

def iterations (actions : List Action) : ℕ := (actions.map Action.iterates).sum

@[simp] theorem iterations_nil : iterations [] = 0 := rfl

@[simp] theorem iterations_concat (actions : List Action) (a : Action) :
    iterations (actions ++ [a]) = iterations actions + a.iterates := by
  simp [iterations]

theorem listener_enabled (s s' : Heart) (a : HeartbeatLoop.Action) (own : ofListener a = true)
    (taken : HeartbeatLoop.step s a = some s') : s'.heartbeatEnabled = s.heartbeatEnabled := by
  cases a with
  | thread =>
    obtain ⟨place, _, rfl⟩ := Option.map_eq_some_iff.mp taken
    rfl
  | makeChannel =>
    obtain rfl := Option.some.inj taken
    rfl
  | connection c connected =>
    rw [HeartbeatLoop.step] at taken
    split_ifs at taken
    obtain rfl := Option.some.inj taken
    rfl
  | enableHeartbeat | disableHeartbeat | stop => cases own

theorem ofListener_kept (a : HeartbeatLoop.Action) (own : ofListener a = true) :
    a ≠ .enableHeartbeat := by
  rintro rfl
  cases own

structure Out (begun : Simulation) (offlineDuration : ℤ) (passed : ℕ) (s : Simulation) : Prop where
  offline : s.isOffline = true
  counter : s.offlineCounter = offlineDuration - passed
  quiet : s.heart.published.length + s.heart.place.passedSwitch ≤
    begun.heart.published.length + begun.heart.place.passedSwitch

theorem Out.iterate {begun s s' : Simulation} {offlineDuration : ℤ} {passed rand : ℕ} {other : ℤ}
    (out : Out begun offlineDuration passed s) (taken : step s (.iterate rand other) = some s') :
    (passed < offlineDuration → Out begun offlineDuration (passed + 1) s') ∧
      (passed = offlineDuration → s'.isOffline = false) := by
  have ⟨offline, counter, quiet⟩ := out
  rw [step, offline] at taken
  simp only [Bool.not_true, Bool.false_eq_true, if_false] at taken
  split_ifs at taken with _ counting <;> obtain rfl := Option.some.inj taken
  · refine ⟨fun _ => ⟨rfl, ?_, quiet⟩, fun past => ?_⟩
    · rw [counter]
      push_cast
      omega
    · omega
  · exact ⟨fun within => by omega, fun _ => rfl⟩

theorem listener_offline (s s' : Simulation) (a : HeartbeatLoop.Action)
    (taken : step s (.listener a) = some s') : s'.isOffline = s.isOffline := by
  rw [step] at taken
  split_ifs at taken
  obtain ⟨heart, _, rfl⟩ := Option.map_eq_some_iff.mp taken
  rfl

theorem Out.listener {begun s s' : Simulation} {offlineDuration : ℤ} {passed : ℕ}
    {a : HeartbeatLoop.Action} (out : Out begun offlineDuration passed s)
    (disabled : s.heart.heartbeatEnabled = false) (taken : step s (.listener a) = some s') :
    Out begun offlineDuration passed s' := by
  rw [step] at taken
  split_ifs at taken with own
  obtain ⟨heart, moved, rfl⟩ := Option.map_eq_some_iff.mp taken
  have ⟨_, less⟩ :=
    HeartbeatLoop.disabled_step s.heart a heart (ofListener_kept a own) disabled moved
  exact ⟨out.offline, out.counter, less.trans out.quiet⟩

theorem enabled_step (t t' : Simulation) (a : Action)
    (switched : t.heart.heartbeatEnabled = !t.isOffline) (taken : step t a = some t') :
    t'.heart.heartbeatEnabled = !t'.isOffline := by
  cases a with
  | iterate rand offlineDuration =>
    rw [step] at taken
    split_ifs at taken <;> obtain rfl := Option.some.inj taken
    · rfl
    · exact switched
    · exact switched
    · rfl
  | listener a =>
    rw [step] at taken
    split_ifs at taken with own
    obtain ⟨heart, moved, rfl⟩ := Option.map_eq_some_iff.mp taken
    exact (listener_enabled t.heart heart a own moved).trans switched

theorem run_enabled (s : Simulation) (actions : List Action) (t : Simulation)
    (ran : run step s actions = some t) (switched : s.heart.heartbeatEnabled = !s.isOffline) :
    t.heart.heartbeatEnabled = !t.isOffline :=
  run_induction step switched (fun _ u a u' _ ih taken => enabled_step u u' a ih taken) actions t ran

theorem run_out (begun : Simulation) (offlineDuration : ℤ) (actions : List Action) (s : Simulation)
    (nonneg : 0 ≤ offlineDuration)
    (ran : run step (goesOffline begun offlineDuration) actions = some s) :
    (iterations actions ≤ offlineDuration → Out begun offlineDuration (iterations actions) s) ∧
      (iterations actions = offlineDuration + 1 → s.isOffline = false) := by
  refine run_induction step ?_ ?_ actions s ran
  · refine ⟨fun _ => ⟨rfl, (sub_zero _).symm, le_rfl⟩, fun past => ?_⟩
    rw [iterations_nil] at past
    omega
  · intro actions t a t' reached ih taken
    rw [iterations_concat]
    cases a with
    | iterate rand other =>
      simp only [Action.iterates]
      refine ⟨fun within => ?_, fun past => ?_⟩
      · have out := ih.1 (by push_cast at within; omega)
        exact (out.iterate taken).1 (by push_cast at within; omega)
      · have out := ih.1 (by push_cast at past; omega)
        exact (out.iterate taken).2 (by push_cast at past; omega)
    | listener a =>
      have disabled := run_enabled _ actions t reached rfl
      refine ⟨fun within => ?_, fun past => ?_⟩
      · have out := ih.1 within
        exact out.listener (by rw [disabled, out.offline]; rfl) taken
      · rw [listener_offline t t' a taken]
        exact ih.2 past

def beating : List Action :=
  [.listener .makeChannel, .listener (.connection 0 true), .listener .thread, .listener .thread,
    .listener .thread, .listener .thread]

def beatingHeart (place : HeartbeatLoop.Place) (enabled : Bool) (published : List ℕ) : Heart where
  storMonitoring := false
  channel := some 0
  made := 1
  connected := Function.update (Function.update (fun _ => false) 0 false) 0 true
  heartbeatEnabled := enabled
  place := place
  published := published

/-- The threads in the order in which they are started, each with the name and the id that
it simulates. The division by zero names is undefined. -/
def startSimulation (serviceNames : List String) : Option (List (String × ℕ)) :=
  let size := (Int32.ofNat serviceNames.length).toInt
  if size = 0 then none
  else
    let numServicesPerName := ((500 : ℤ).tdiv size).toNat
    some (serviceNames.flatMap fun serviceName =>
      (List.range numServicesPerName).map fun i => (serviceName, i))

theorem startSimulation_eq (serviceNames : List String) (named : serviceNames ≠ [])
    (small : serviceNames.length < 2 ^ 31) :
    startSimulation serviceNames =
      some (serviceNames ×ˢ List.range (500 / serviceNames.length)) := by
  have size : (Int32.ofNat serviceNames.length).toInt = serviceNames.length := by
    rw [Int32.toInt_ofNat_of_lt small]
  have positive := List.length_pos_iff.mpr named
  have nonzero : (serviceNames.length : ℤ) ≠ 0 := by omega
  rw [startSimulation, size]
  simp only [if_neg nonzero]
  rw [Int.tdiv_eq_ediv_of_nonneg (by decide)]
  rfl

end NetworkDiscovery.ServiceSimulation

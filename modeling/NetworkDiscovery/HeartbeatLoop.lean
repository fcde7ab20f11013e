import Mathlib.Logic.Function.Basic
import NetworkDiscovery.Library.ActionRuns

/-! The heartbeat thread, test by test, while other threads replace the channel,
switch the heartbeat and stop the client. Between its tests and its publishing
anything may happen, so a switch takes effect after one more presence at most. -/

namespace NetworkDiscovery.HeartbeatLoop
open ActionRuns

/-- What the thread does next. In `send_presence` it holds its own pointer. -/
inductive Place
  | testStop
  | testChannel
  | testConnected
  | testEnabled
  | getChannel
  | publish (channel : Option ℕ)
  | sleep
  | finished
  | crashed
  deriving DecidableEq

/-- Channels are numbered as `connect` makes them. `connected` is what the library
answers for each, and `published` tells over which channels the presences went. -/
structure Heart where
  storMonitoring : Bool
  channel : Option ℕ
  made : ℕ
  connected : ℕ → Bool
  heartbeatEnabled : Bool
  place : Place
  published : List ℕ

inductive Action
  | thread
  | makeChannel
  | connection (channel : ℕ) (connected : Bool)
  | enableHeartbeat
  | disableHeartbeat
  | stop
  deriving DecidableEq

def start : Heart where
  storMonitoring := false
  channel := none
  made := 0
  connected _ := false
  heartbeatEnabled := true
  place := .testStop
  published := []

/-- The thread's next place. A null pointer that is followed crashes. -/
def Heart.next (s : Heart) : Option Place :=
  match s.place with
  | .testStop => some (if s.storMonitoring then .finished else .testChannel)
  | .testChannel => some (if s.channel.isSome then .testConnected else .sleep)
  | .testConnected =>
    match s.channel with
    | none => some .crashed
    | some c => some (if s.connected c then .testEnabled else .sleep)
  | .testEnabled => some (if s.heartbeatEnabled then .getChannel else .sleep)
  | .getChannel => some (.publish s.channel)
  | .publish none => some .crashed
  | .publish (some _) => some .sleep
  | .sleep => some .testStop
  | .finished | .crashed => none

def Place.sends : Place → List ℕ
  | .publish (some c) => [c]
  | _ => []

def step (s : Heart) : Action → Option Heart
  | .thread => s.next.map fun place =>
      { s with place := place, published := s.published ++ s.place.sends }
  | .makeChannel => some { s with
      channel := some s.made
      made := s.made + 1
      connected := Function.update s.connected s.made false }
  | .connection c connected =>
    if c < s.made then some { s with connected := Function.update s.connected c connected } else none
  | .enableHeartbeat => some { s with heartbeatEnabled := true }
  | .disableHeartbeat => some { s with heartbeatEnabled := false }
  | .stop => some { s with storMonitoring := true }

def Place.Safe (channel : Option ℕ) (made : ℕ) : Place → Prop
  | .testConnected | .testEnabled | .getChannel => channel.isSome
  | .publish held => ∃ c ∈ held, c < made
  | .crashed => False
  | .testStop | .testChannel | .sleep | .finished => True

theorem Place.Safe.grow {channel : Option ℕ} {made : ℕ} {place : Place}
    (safe : place.Safe channel made) : place.Safe (some made) (made + 1) := by
  cases place with
  | publish held =>
    have ⟨c, member, known⟩ := safe
    exact ⟨c, member, Nat.lt_succ_of_lt known⟩
  | crashed => exact safe
  | _ => first | exact rfl | exact trivial

structure Sane (s : Heart) : Prop where
  current : ∀ c ∈ s.channel, c < s.made
  safe : s.place.Safe s.channel s.made
  sent : ∀ c ∈ s.published, c < s.made

theorem sane_start : Sane start := ⟨nofun, trivial, nofun⟩

theorem Sane.next {s : Heart} {place : Place} (sane : Sane s) (moves : s.next = some place) :
    place.Safe s.channel s.made ∧ ∀ c ∈ s.place.sends, c < s.made := by
  have ⟨current, safe, _⟩ := sane
  rw [Heart.next] at moves
  cases here : s.place with
  | testStop =>
    rw [here, Option.some_inj] at moves
    subst moves
    exact ⟨by split_ifs <;> trivial, nofun⟩
  | testChannel =>
    rw [here, Option.some_inj] at moves
    subst moves
    refine ⟨?_, nofun⟩
    split_ifs with present
    · exact present
    · trivial
  | testConnected =>
    rw [here] at moves safe
    obtain ⟨c, known⟩ := Option.isSome_iff_exists.mp safe
    simp only [known, Option.some_inj] at moves
    subst moves
    refine ⟨?_, nofun⟩
    split_ifs
    · exact safe
    · trivial
  | testEnabled =>
    rw [here] at safe
    rw [here, Option.some_inj] at moves
    subst moves
    refine ⟨?_, nofun⟩
    split_ifs
    · exact safe
    · trivial
  | getChannel =>
    rw [here] at safe
    rw [here, Option.some_inj] at moves
    subst moves
    have ⟨c, known⟩ := Option.isSome_iff_exists.mp safe
    exact ⟨⟨c, known, current c known⟩, nofun⟩
  | publish held =>
    rw [here] at moves safe
    obtain ⟨c, rfl, known⟩ := safe
    obtain rfl := Option.some.inj moves
    refine ⟨trivial, fun d member => ?_⟩
    exact List.mem_singleton.mp member ▸ known
  | sleep =>
    rw [here, Option.some_inj] at moves
    subst moves
    exact ⟨trivial, nofun⟩
  | finished | crashed =>
    rw [here] at moves
    cases moves

theorem Sane.step {s s' : Heart} {a : Action} (sane : Sane s) (taken : step s a = some s') :
    Sane s' := by
  have ⟨current, safe, sent⟩ := sane
  cases a with
  | thread =>
    obtain ⟨place, moves, rfl⟩ := Option.map_eq_some_iff.mp taken
    have ⟨safe', made⟩ := sane.next moves
    refine ⟨current, safe', fun c member => ?_⟩
    exact (List.mem_append.mp member).elim (sent c) (made c)
  | makeChannel =>
    obtain rfl := Option.some.inj taken
    refine ⟨?_, safe.grow, fun c member => Nat.lt_succ_of_lt (sent c member)⟩
    rintro c ⟨⟩
    exact Nat.lt_succ_self s.made
  | connection c connected =>
    rw [HeartbeatLoop.step] at taken
    split_ifs at taken
    obtain rfl := Option.some.inj taken
    exact ⟨current, safe, sent⟩
  | enableHeartbeat | disableHeartbeat | stop =>
    obtain rfl := Option.some.inj taken
    exact ⟨current, safe, sent⟩

/-! ### What a switch leaves to happen -/

def Place.passedSwitch : Place → ℕ
  | .getChannel | .publish _ => 1
  | _ => 0

def Place.passedStop : Place → ℕ
  | .testChannel | .testConnected | .testEnabled | .getChannel | .publish _ => 1
  | _ => 0

theorem disabled_next (s : Heart) (place : Place) (moves : s.next = some place)
    (disabled : s.heartbeatEnabled = false) :
    s.place.sends.length + place.passedSwitch ≤ s.place.passedSwitch := by
  cases here : s.place with
  | publish held => cases held <;> grind [Heart.next, Place.sends, Place.passedSwitch]
  | _ => grind [Heart.next, Place.sends, Place.passedSwitch]

theorem stopped_next (s : Heart) (place : Place) (moves : s.next = some place)
    (stopped : s.storMonitoring = true) :
    s.place.sends.length + place.passedStop ≤ s.place.passedStop := by
  cases here : s.place with
  | publish held => cases held <;> grind [Heart.next, Place.sends, Place.passedStop]
  | _ => grind [Heart.next, Place.sends, Place.passedStop]

theorem pending_step (passed : Place → ℕ) (s s' : Heart) (a : Action)
    (due : ∀ place, s.next = some place →
      s.place.sends.length + passed place ≤ passed s.place)
    (taken : step s a = some s') :
    s'.published.length + passed s'.place ≤ s.published.length + passed s.place := by
  cases a with
  | thread =>
    obtain ⟨place, moves, rfl⟩ := Option.map_eq_some_iff.mp taken
    have bound := due place moves
    rw [List.length_append]
    dsimp only
    omega
  | connection c connected =>
    rw [step] at taken
    split_ifs at taken
    obtain rfl := Option.some.inj taken
    exact Nat.le_refl _
  | makeChannel | enableHeartbeat | disableHeartbeat | stop =>
    obtain rfl := Option.some.inj taken
    exact Nat.le_refl _

theorem flags_step (s s' : Heart) (a : Action) (taken : step s a = some s') :
    (a ≠ .enableHeartbeat → s.heartbeatEnabled = false → s'.heartbeatEnabled = false) ∧
      (s.storMonitoring = true → s'.storMonitoring = true) := by
  cases a with
  | thread =>
    obtain ⟨_, _, rfl⟩ := Option.map_eq_some_iff.mp taken
    exact ⟨fun _ disabled => disabled, fun stopped => stopped⟩
  | connection c connected =>
    rw [step] at taken
    split_ifs at taken
    obtain rfl := Option.some.inj taken
    exact ⟨fun _ disabled => disabled, fun stopped => stopped⟩
  | enableHeartbeat =>
    obtain rfl := Option.some.inj taken
    exact ⟨fun kept => absurd rfl kept, fun stopped => stopped⟩
  | disableHeartbeat =>
    obtain rfl := Option.some.inj taken
    exact ⟨fun _ _ => rfl, fun stopped => stopped⟩
  | stop =>
    obtain rfl := Option.some.inj taken
    exact ⟨fun _ disabled => disabled, fun _ => rfl⟩
  | makeChannel =>
    obtain rfl := Option.some.inj taken
    exact ⟨fun _ disabled => disabled, fun stopped => stopped⟩

theorem disabled_step (s : Heart) (a : Action) (s' : Heart) (kept : a ≠ .enableHeartbeat)
    (disabled : s.heartbeatEnabled = false) (taken : step s a = some s') :
    s'.heartbeatEnabled = false ∧ s'.published.length + s'.place.passedSwitch ≤
      s.published.length + s.place.passedSwitch :=
  ⟨(flags_step s s' a taken).1 kept disabled, pending_step Place.passedSwitch s s' a
    (fun place moves => disabled_next s place moves disabled) taken⟩

theorem stopped_step (s : Heart) (a : Action) (s' : Heart) (stopped : s.storMonitoring = true)
    (taken : step s a = some s') :
    s'.storMonitoring = true ∧ s'.published.length + s'.place.passedStop ≤
      s.published.length + s.place.passedStop :=
  ⟨(flags_step s s' a taken).2 stopped, pending_step Place.passedStop s s' a
    (fun place moves => stopped_next s place moves stopped) taken⟩

theorem run_sane (actions : List Action) (s : Heart) (ran : run step start actions = some s) :
    Sane s :=
  run_induction step sane_start (fun _ _ _ _ _ ih taken => ih.step taken) actions s ran

theorem disabled_run (s t : Heart) (actions : List Action) (disabled : s.heartbeatEnabled = false)
    (kept : .enableHeartbeat ∉ actions) (ran : run step s actions = some t) :
    t.heartbeatEnabled = false ∧ t.published.length + t.place.passedSwitch ≤
      s.published.length + s.place.passedSwitch :=
  run_bounded step (· ≠ .enableHeartbeat) _ (fun u => u.published.length + u.place.passedSwitch)
    disabled_step s t actions ran (fun _ member same => kept (same ▸ member)) disabled

theorem stopped_run (s t : Heart) (actions : List Action) (stopped : s.storMonitoring = true)
    (ran : run step s actions = some t) :
    t.storMonitoring = true ∧ t.published.length + t.place.passedStop ≤
      s.published.length + s.place.passedStop :=
  run_bounded step (fun _ => True) _ (fun u => u.published.length + u.place.passedStop)
    (fun u a u' _ => stopped_step u a u') s t actions ran (fun _ _ => trivial) stopped

/-- What the tests of the heartbeat thread are for: it follows no null pointer, and
once it is switched off or stopped it publishes only if it had passed the test. -/
theorem tests_effective (before after : List Action) (a : Action) (s t : Heart)
    (ran : run step start before = some s) (ran' : run step s (a :: after) = some t) :
    t.place ≠ .crashed ∧ (∀ c ∈ t.published, c < t.made) ∧
    (a = .disableHeartbeat → .enableHeartbeat ∉ after →
      t.published.length ≤ s.published.length + s.place.passedSwitch) ∧
    (a = .stop → t.published.length ≤ s.published.length + s.place.passedStop) := by
  have whole : run step start (before ++ a :: after) = some t := by
    rw [run_append, ran]
    exact ran'
  have sane := run_sane _ t whole
  obtain ⟨u, taken, rest⟩ := (run_cons_iff step s t _ after).mp ran'
  refine ⟨fun crashed => ?_, sane.sent, ?_, ?_⟩
  · have safe := sane.safe
    rw [crashed] at safe
    exact safe
  · rintro rfl kept
    obtain rfl := Option.some.inj taken
    exact Nat.le_trans (Nat.le_add_right _ _) (disabled_run _ t after rfl kept rest).2
  · rintro rfl
    obtain rfl := Option.some.inj taken
    exact Nat.le_trans (Nat.le_add_right _ _) (stopped_run _ t after rfl rest).2

/-- The channel is replaced after the tests and the heartbeat disabled before the publishing. -/
def lateDisable : List Action :=
  [.makeChannel, .connection 0 true, .thread, .thread, .thread, .thread, .makeChannel]

def lateHeart (place : Place) (enabled : Bool) (published : List ℕ) : Heart where
  storMonitoring := false
  channel := some 1
  made := 2
  connected := Function.update (Function.update (Function.update (fun _ => false) 0 false) 0 true)
    1 false
  heartbeatEnabled := enabled
  place := place
  published := published

theorem tests_effective_lateDisable :
    (lateHeart .sleep false [1]).place ≠ .crashed ∧
      (lateHeart .sleep false [1]).published.length ≤ 0 + 1 := by
  have ⟨running, _, switched, _⟩ := tests_effective lateDisable [.thread, .thread]
    .disableHeartbeat (lateHeart .getChannel true []) (lateHeart .sleep false [1]) rfl rfl
  exact ⟨running, switched rfl (by decide)⟩

end NetworkDiscovery.HeartbeatLoop

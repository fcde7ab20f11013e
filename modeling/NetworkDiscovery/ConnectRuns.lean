import NetworkDiscovery.ConnectLog

/-! The calls of `connect` in a run. The handler of channel errors makes them within
others, so they stand like a stack of which every attempt and every return takes the
top. Whatever happens, they are over only when the client is connected again. -/

namespace NetworkDiscovery.ConnectLog
open ActionRuns

def Event.enters : Event → Bool
  | .called => true
  | .channelError _ => true
  | _ => false

def Event.endsAttempt : Event → Bool
  | .throws _ => true
  | .succeeds => true
  | _ => false

/-- The events after which the client knows whether it is connected. -/
def Event.settles : Event → Bool
  | .throws _ => true
  | .succeeds => true
  | .channelError _ => true
  | _ => false

structure Changes (s s' : Connecting) (e : Event) : Prop where
  connected : s'.connected = if e.settles then decide (e = .succeeds) else s.connected
  calls : s'.calls.length + [e].count .returns = s.calls.length + [e].countP Event.enters
  attempts : s'.calls.count .trying + [e].countP Event.endsAttempt =
    s.calls.count .trying + [e].count .tries
  idle : s'.calls = [] → s'.connected = true

theorem step_changes (b : Broker) (s s' : Connecting) (e : Event) (taken : step b s e = some s') :
    Changes s s' e := by
  obtain ⟨debug, connected, channel, calls, log⟩ := s
  cases e with
  | called =>
    rw [step] at taken
    split at taken
    case isTrue idle =>
      obtain rfl := Option.some.inj taken
      exact ⟨rfl, rfl, rfl, fun none => absurd none (List.cons_ne_nil _ _)⟩
    case isFalse => cases taken
  | channelError message =>
    rw [step] at taken
    split at taken
    case isTrue =>
      obtain rfl := Option.some.inj taken
      exact ⟨rfl, rfl, rfl, fun none => absurd none (List.cons_ne_nil _ _)⟩
    case isFalse => cases taken
  | tries =>
    cases connected with
    | true => cases taken
    | false =>
      rcases calls with _ | ⟨stage, outer⟩
      · cases taken
      · cases stage <;> cases taken
        exact ⟨rfl, rfl, by simp [Event.endsAttempt], fun none => absurd none (List.cons_ne_nil _ _)⟩
  | returns =>
    cases connected with
    | false => cases taken
    | true =>
      rcases calls with _ | ⟨stage, outer⟩
      · cases taken
      · cases stage <;> cases taken
        exact ⟨rfl, rfl, rfl, fun _ => rfl⟩
  | opensChannel =>
    rcases calls with _ | ⟨stage, outer⟩
    · cases taken
    · cases stage <;> cases taken
      exact ⟨rfl, rfl, rfl, fun none => absurd none (List.cons_ne_nil _ _)⟩
  | throws what =>
    rcases calls with _ | ⟨stage, outer⟩
    · cases taken
    · cases stage <;> cases taken
      exact ⟨rfl, rfl, by simp [Event.endsAttempt], fun none => absurd none (List.cons_ne_nil _ _)⟩
  | succeeds =>
    rcases calls with _ | ⟨stage, outer⟩
    · cases taken
    · cases stage <;> cases taken
      exact ⟨rfl, rfl, by simp [Event.endsAttempt], fun none => absurd none (List.cons_ne_nil _ _)⟩

section
variable (b : Broker) (debug : Bool) (events : List Event) (s : Connecting)
  (ran : run (step b) (start debug) events = some s)
include ran

theorem run_settled : s.connected = true ↔
    (events.filter Event.settles).getLast? = some .succeeds := by
  refine run_induction (step b) (iff_of_false nofun nofun) ?_ events s ran
  intro events t e t' _ ih taken
  rw [(step_changes b t t' e taken).connected, List.filter_append]
  cases settled : e.settles with
  | true => simp [settled]
  | false => simpa [settled] using ih

theorem run_calls : s.calls.length + events.count .returns = events.countP Event.enters := by
  refine run_induction (step b) rfl ?_ events s ran
  intro events t e t' _ ih taken
  have changed := (step_changes b t t' e taken).calls
  rw [List.count_append, List.countP_append]
  omega

theorem run_attempts : s.calls.count .trying + events.countP Event.endsAttempt =
    events.count .tries := by
  refine run_induction (step b) rfl ?_ events s ran
  intro events t e t' _ ih taken
  have changed := (step_changes b t t' e taken).attempts
  rw [List.count_append, List.countP_append]
  omega

theorem run_idle : s.calls = [] → events ≠ [] → s.connected = true := by
  refine run_induction (step b) (fun _ some => absurd rfl some) ?_ events s ran
  intro events t e t' _ _ taken idle _
  exact (step_changes b t t' e taken).idle idle

end

/-- Every call and every attempt is accounted for, however the calls are nested: each
stands until it returns or ends. When all have returned, the last attempt that ended has
succeeded, and no channel error has come since. -/
theorem connect_accounts (b : Broker) (debug : Bool) (events : List Event) (s : Connecting)
    (ran : run (step b) (start debug) events = some s) :
    s.calls.length + events.count .returns = events.countP Event.enters ∧
    s.calls.count .trying + events.countP Event.endsAttempt = events.count .tries ∧
    (s.connected = true ↔ (events.filter Event.settles).getLast? = some .succeeds) ∧
    (events.count .returns = events.countP Event.enters → events ≠ [] →
      (events.filter Event.settles).getLast? = some .succeeds) := by
  have calls := run_calls b debug events s ran
  have settled := run_settled b debug events s ran
  refine ⟨calls, run_attempts b debug events s ran, settled, fun finished some => ?_⟩
  have idle : s.calls = [] := List.length_eq_zero_iff.mp (by omega)
  exact settled.mp (run_idle b debug events s ran idle some)

/-- The channel fails within the first attempt, and the call of its handler connects. -/
def nestedEvents : List Event :=
  [.called, .tries, .opensChannel, .channelError "closed", .tries, .throws "refused", .tries,
    .succeeds, .returns, .succeeds, .returns]

theorem connect_accounts_nested :
    (nestedEvents.filter Event.settles).getLast? = some .succeeds := by
  have possible : (run (step ⟨"localhost", 5672, "guest", "guest", ""⟩) (start false)
    nestedEvents).isSome = true := rfl
  have ⟨s, ran⟩ := Option.isSome_iff_exists.mp possible
  have ⟨_, _, _, finished⟩ := connect_accounts _ false nestedEvents s ran
  exact finished (by decide) (by decide)

end NetworkDiscovery.ConnectLog

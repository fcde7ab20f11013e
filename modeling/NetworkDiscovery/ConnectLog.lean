import Mathlib.Tactic.Common
import NetworkDiscovery.Library.ActionRuns

/-! The log of `connect`. A call retries until an attempt succeeds, and the
handler of channel errors calls it again, so that calls may stand one within
another. The log names the endpoint without the credentials, but in one place. -/

namespace NetworkDiscovery.ConnectLog
open ActionRuns

structure Broker where
  host : String
  port : Int32
  username : String
  password : String
  vhost : String

def Broker.address (b : Broker) : String :=
  "amqp://" ++ b.username ++ ":" ++ b.password ++ "@" ++ b.host ++ ":" ++ toString b.port ++ "/" ++
    b.vhost

def Broker.endpoint (b : Broker) : String := b.host ++ ":" ++ toString b.port ++ "/" ++ b.vhost

inductive Level
  | info
  | error
  deriving DecidableEq, Repr

abbrev Line := Level × String

/-- A call stands before the test of `connected` or within its `try` block. -/
inductive Stage
  | testing
  | trying
  deriving DecidableEq, Repr

/-- `calls` are the calls of `connect` that have not returned, the innermost
first. `channel` tells whether there is a channel with an error handler. -/
structure Connecting where
  debug : Bool
  connected : Bool
  channel : Bool
  calls : List Stage
  log : List Line

inductive Event
  | called
  | tries
  | opensChannel
  | throws (what : String)
  | succeeds
  | channelError (message : String)
  | returns
  deriving DecidableEq, Repr

def enter (b : Broker) (s : Connecting) : Connecting :=
  { s with
    calls := .testing :: s.calls
    log := s.log ++
      if s.debug then [(.info, "Connecting to RabbitMQ server: " ++ b.endpoint)] else [] }

/-- What may happen next. A channel error comes at any time, from the event loop
or within an attempt, and its handler calls `connect` with the same arguments. -/
def step (b : Broker) (s : Connecting) : Event → Option Connecting
  | .called => if s.calls = [] then some (enter b s) else none
  | .tries =>
    match s.connected, s.calls with
    | false, .testing :: outer => some { s with calls := .trying :: outer }
    | _, _ => none
  | .opensChannel =>
    match s.calls with
    | .trying :: _ => some { s with channel := true }
    | _ => none
  | .throws what =>
    match s.calls with
    | .trying :: outer => some { s with
        connected := false
        calls := .testing :: outer
        log := s.log ++ [(.error,
          "Failed to connect to RabbitMQ server: " ++ what ++ ". Retrying in 5 seconds...")] }
    | _ => none
  | .succeeds =>
    match s.calls with
    | .trying :: outer => some { s with
        connected := true
        calls := .testing :: outer
        log := s.log ++
          if s.debug then [(.info, "Connected to RabbitMQ server: " ++ b.address)] else [] }
    | _ => none
  | .channelError message =>
    if s.channel then some (enter b { s with
      connected := false
      log := s.log ++ [(.error, "Channel error when connecting to RabbitMQ server: " ++
        b.endpoint ++ ": " ++ message)] })
    else none
  | .returns =>
    match s.connected, s.calls with
    | true, .testing :: outer => some { s with calls := outer }
    | _, _ => none

def start (debug : Bool) : Connecting where
  debug := debug
  connected := false
  channel := false
  calls := []
  log := []

def lines (b : Broker) (debug : Bool) : Event → List Line
  | .called => if debug then [(.info, "Connecting to RabbitMQ server: " ++ b.endpoint)] else []
  | .throws what =>
    [(.error, "Failed to connect to RabbitMQ server: " ++ what ++ ". Retrying in 5 seconds...")]
  | .succeeds => if debug then [(.info, "Connected to RabbitMQ server: " ++ b.address)] else []
  | .channelError message =>
    (.error, "Channel error when connecting to RabbitMQ server: " ++ b.endpoint ++ ": " ++ message) ::
      if debug then [(.info, "Connecting to RabbitMQ server: " ++ b.endpoint)] else []
  | _ => []

/-- The arguments of `connect` decide about nothing but the lines of the log. -/
theorem step_eq (b : Broker) (s s' : Connecting) (e : Event) (taken : step b s e = some s')
    (other : Broker) (log : List Line) :
    s'.debug = s.debug ∧ s'.log = s.log ++ lines b s.debug e ∧
      step other { s with log := log } e =
        some { s' with log := log ++ lines other s.debug e } := by
  obtain ⟨debug, connected, channel, calls, written⟩ := s
  cases e with
  | called =>
    rw [step] at taken ⊢
    split at taken
    case isTrue idle =>
      obtain rfl := Option.some.inj taken
      exact ⟨rfl, rfl, if_pos idle⟩
    case isFalse => cases taken
  | channelError message =>
    rw [step] at taken ⊢
    split at taken
    case isTrue ready =>
      obtain rfl := Option.some.inj taken
      refine ⟨rfl, by simp [enter, lines], ?_⟩
      rw [if_pos ready]
      simp [enter, lines]
    case isFalse => cases taken
  | tries =>
    cases connected with
    | true => cases taken
    | false =>
      rcases calls with _ | ⟨stage, outer⟩
      · cases taken
      · cases stage <;> cases taken
        exact ⟨rfl, (List.append_nil _).symm, by simp [step, lines]⟩
  | returns =>
    cases connected with
    | false => cases taken
    | true =>
      rcases calls with _ | ⟨stage, outer⟩
      · cases taken
      · cases stage <;> cases taken
        exact ⟨rfl, (List.append_nil _).symm, by simp [step, lines]⟩
  | opensChannel =>
    rcases calls with _ | ⟨stage, outer⟩
    · cases taken
    · cases stage <;> cases taken
      exact ⟨rfl, (List.append_nil _).symm, by simp [step, lines]⟩
  | throws what =>
    rcases calls with _ | ⟨stage, outer⟩
    · cases taken
    · cases stage <;> cases taken
      exact ⟨rfl, rfl, rfl⟩
  | succeeds =>
    rcases calls with _ | ⟨stage, outer⟩
    · cases taken
    · cases stage <;> cases taken
      exact ⟨rfl, rfl, rfl⟩

theorem run_log (b other : Broker) (debug : Bool) (events : List Event) (s : Connecting)
    (ran : run (step b) (start debug) events = some s) :
    s.debug = debug ∧ s.log = events.flatMap (lines b debug) ∧
      run (step other) (start debug) events =
        some { s with log := events.flatMap (lines other debug) } := by
  refine run_induction (step b) ?_ ?_ events s ran
  · exact ⟨rfl, rfl, rfl⟩
  · rintro events t e t' _ ⟨same, written, elsewhere⟩ taken
    have ⟨same', written', elsewhere'⟩ :=
      step_eq b t t' e taken other (events.flatMap (lines other debug))
    rw [same] at same' written'
    refine ⟨same', ?_, ?_⟩
    · rw [written', written, List.flatMap_append, List.flatMap_singleton]
    · rw [run_concat, elsewhere, Option.bind_some, elsewhere', same, List.flatMap_append,
        List.flatMap_singleton]

def logOf (b : Broker) (debug : Bool) (events : List Event) : Option (List Line) :=
  (run (step b) (start debug) events).map (·.log)

def Broker.withPassword (b : Broker) (password : String) : Broker := { b with password := password }

theorem endpoint_withPassword (b : Broker) (password : String) :
    (b.withPassword password).endpoint = b.endpoint := rfl

theorem address_withPassword (b : Broker) (first second : String) :
    (b.withPassword first).address = (b.withPassword second).address ↔ first = second := by
  delta Broker.address
  simp only [Broker.withPassword, String.append_left_inj, String.append_right_inj]

theorem lines_congr (b other : Broker) (same : b.endpoint = other.endpoint) (debug : Bool)
    (e : Event) (unsuccessful : e ≠ .succeeds) : lines b debug e = lines other debug e := by
  cases e with
  | called => rw [lines, lines, same]
  | tries => rfl
  | opensChannel => rfl
  | throws what => rw [lines, lines]
  | succeeds => exact absurd rfl unsuccessful
  | channelError message => rw [lines, lines, same]
  | returns => rfl

theorem lines_withPassword (b : Broker) (first second : String) (debug : Bool) (e : Event) :
    lines (b.withPassword first) debug e = lines (b.withPassword second) debug e ↔
      (e = .succeeds → debug = true → first = second) := by
  by_cases success : e = .succeeds
  · subst success
    rw [lines, lines]
    cases debug with
    | false => simp
    | true => simp [address_withPassword]
  · refine iff_of_true (lines_congr _ _ ?_ debug e success) fun other => absurd other success
    rw [endpoint_withPassword, endpoint_withPassword]

theorem length_lines (b other : Broker) (debug : Bool) (e : Event) :
    (lines b debug e).length = (lines other debug e).length := by
  cases e with
  | called => rw [lines, lines]; cases debug <;> simp
  | tries => rfl
  | opensChannel => rfl
  | throws what => rw [lines, lines]
  | succeeds => rw [lines, lines]; cases debug <;> simp
  | channelError message => rw [lines, lines]; cases debug <;> simp
  | returns => rfl

theorem written_eq_iff (b other : Broker) (debug : Bool) (events : List Event) :
    events.flatMap (lines b debug) = events.flatMap (lines other debug) ↔
      ∀ e ∈ events, lines b debug e = lines other debug e := by
  have lengths : (events.map (lines b debug)).map List.length =
      (events.map (lines other debug)).map List.length := by
    rw [List.map_map, List.map_map]
    exact List.map_congr_left fun e _ => length_lines b other debug e
  rw [List.flatMap_def, List.flatMap_def, ← List.map_inj_left, List.eq_iff_flatten_eq,
    and_iff_left lengths]

theorem logOf_eq_iff (b : Broker) (first second : String) (debug : Bool) (events : List Event)
    (possible : (logOf (b.withPassword first) debug events).isSome) :
    logOf (b.withPassword first) debug events = logOf (b.withPassword second) debug events ↔
      ∀ e ∈ events, e = .succeeds → debug = true → first = second := by
  rw [logOf, Option.isSome_map, Option.isSome_iff_exists] at possible
  have ⟨s, ran⟩ := possible
  have ⟨_, written, elsewhere⟩ :=
    run_log (b.withPassword first) (b.withPassword second) debug events s ran
  rw [logOf, logOf, ran, elsewhere, Option.map_some, Option.map_some, written, Option.some_inj,
    written_eq_iff]
  simp only [lines_withPassword]

theorem log_hides_password_iff (b : Broker) (first second : String) (debug : Bool)
    (events : List Event)
    (possible : (logOf (b.withPassword first) debug events).isSome) :
    logOf (b.withPassword first) debug events = logOf (b.withPassword second) debug events ↔
      first = second ∨ debug = false ∨ .succeeds ∉ events := by
  rw [logOf_eq_iff b first second debug events possible]
  constructor
  · intro hidden
    by_cases success : .succeeds ∈ events
    · cases debug with
      | false => exact .inr (.inl rfl)
      | true => exact .inl (hidden .succeeds success rfl rfl)
    · exact .inr (.inr success)
  · rintro (same | quiet | no_success) e member succeeded debugging
    · exact same
    · rw [quiet] at debugging
      cases debugging
    · exact absurd (succeeded ▸ member) no_success

def sampleEvents : List Event :=
  [.called, .tries, .opensChannel, .succeeds, .returns, .channelError "closed", .tries,
    .throws "refused", .tries, .opensChannel, .succeeds, .returns]

def sampleBroker : Broker := ⟨"localhost", 5672, "guest", "guest", ""⟩

theorem sampleEvents_possible :
    (logOf (sampleBroker.withPassword "guest") true sampleEvents).isSome := by
  rfl

theorem password_logged :
    logOf (sampleBroker.withPassword "guest") true sampleEvents ≠
      logOf (sampleBroker.withPassword "secret") true sampleEvents := by
  intro same
  have alike := (logOf_eq_iff sampleBroker "guest" "secret" true sampleEvents
    sampleEvents_possible).mp same .succeeds (by simp [sampleEvents]) rfl rfl
  exact absurd alike (by decide)

def refusedEvents : List Event :=
  [.called, .tries, .throws "refused", .tries, .opensChannel, .channelError "closed", .tries,
    .throws "refused"]

theorem log_hides_password_refused :
    logOf (sampleBroker.withPassword "guest") true refusedEvents =
      logOf (sampleBroker.withPassword "secret") true refusedEvents := by
  have unsuccessful : .succeeds ∉ refusedEvents := by decide
  exact (log_hides_password_iff sampleBroker "guest" "secret" true refusedEvents rfl).mpr
    (.inr (.inr unsuccessful))

end NetworkDiscovery.ConnectLog

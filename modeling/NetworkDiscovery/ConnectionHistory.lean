import Mathlib.Data.List.Chain
import NetworkDiscovery.DialAttempts

/-! The client after any run of calls, told from what the calls met. The flag is
what the last call that decided on it says, the counter counts the failures since
the last success, and the time of the next attempt is set by the last attempt.
A client that dials never does so over a connection that it takes to be alive. -/

namespace NetworkDiscovery.NNGClient
open ActionRuns

def succeeds {α : Type} : Outcome α → Bool
  | .ok _ => true
  | .error _ => false

/-- What a call decides about the connection: an attempt or a `listen` that succeeds
and a `send` that fails. -/
def decides (client : NNGClient) : Call → Option Bool
  | .connect o =>
    match client.attempt? (.connect o) with
    | some a => if a.failed then none else some true
    | none => none
  | .listen opened listened =>
    if client.type = .pub && succeeds opened && succeeds (listened client.host) then some true
    else none
  | .send msg sent => if succeeds (sent msg) then none else some false
  | .receive _ => none

def decisions (client : NNGClient) : List Call → List Bool
  | [] => []
  | call :: rest => (client.decides call).toList ++ (client.step call).decisions rest

theorem decisions_concat (client : NNGClient) (calls : List Call) (call : Call) :
    client.decisions (calls ++ [call]) =
      client.decisions calls ++ ((client.runCalls calls).decides call).toList := by
  induction calls generalizing client with
  | nil => simp [decisions, runCalls]
  | cons first rest ih =>
    rw [List.cons_append, decisions, ih, decisions, List.append_assoc]
    rfl

theorem runCalls_concat (client : NNGClient) (calls : List Call) (call : Call) :
    client.runCalls (calls ++ [call]) = (client.runCalls calls).step call :=
  List.foldl_concat step client call calls

theorem step_connected (client : NNGClient) (call : Call) :
    (client.step call).connected = (client.decides call).getD client.connected := by
  cases call with
  | connect o =>
    rw [step_connect, decides, attempt?]
    by_cases held : client.connected = true ∨ o.tested < client.nextConnect
    · rw [if_pos held, if_pos held]
      rfl
    · rw [if_neg held, if_neg held, attempted]
      cases o.tried client <;> rfl
  | listen opened listened =>
    rw [step, stateAfter, listen_run, decides]
    by_cases publisher : client.type = .pub
    · rw [if_neg (not_not.mpr publisher)]
      cases opened with
      | error e => simp [succeeds]
      | ok socket => cases listened client.host <;> simp [succeeds, publisher]
    · simp [publisher]
  | send msg sent =>
    rw [step, stateAfter, send_run, decides]
    cases sent msg <;> rfl
  | receive received =>
    rw [step, receive_state]
    rfl

theorem step_fixed (client : NNGClient) (call : Call) :
    (client.step call).type = client.type ∧ (client.step call).host = client.host ∧
      (client.step call).port = client.port := by
  cases made : client.attempt? call with
  | none =>
    have ⟨_, _, same⟩ := step_of_none client call made
    rw [same]
    exact ⟨rfl, rfl, rfl⟩
  | some a =>
    have ⟨_, _, same⟩ := step_of_some client call a made
    rw [same]
    exact ⟨rfl, rfl, rfl⟩

structure Told (fresh : NNGClient) (calls : List Call) (client : NNGClient) : Prop where
  type : client.type = fresh.type
  host : client.host = fresh.host
  port : client.port = fresh.port
  reconnectInterval : client.reconnectInterval = fresh.reconnectInterval
  failCounterMax : client.failCounterMax = fresh.failCounterMax
  connected : client.connected = (fresh.decisions calls).getLast?.getD false
  failCounter : client.failCounter = UInt64.ofNat (failedInARow (fresh.attempts calls))
  nextConnect : client.nextConnect = match (fresh.attempts calls).getLast? with
    | some a => a.scheduled + fresh.reconnectInterval
    | none => fresh.nextConnect

theorem Told.step {fresh client : NNGClient} {calls : List Call} {call : Call}
    (told : Told fresh calls client) (reached : fresh.runCalls calls = client) :
    Told fresh (calls ++ [call]) (client.step call) := by
  have ⟨type, host, port⟩ := step_fixed client call
  have ⟨interval, most⟩ := step_settings client call
  have made := attempts_concat fresh calls call
  have decided := decisions_concat fresh calls call
  rw [reached] at made decided
  refine ⟨type.trans told.type, host.trans told.host, port.trans told.port,
    interval.trans told.reconnectInterval, most.trans told.failCounterMax, ?_, ?_, ?_⟩
  · rw [step_connected, decided, List.getLast?_append, told.connected]
    cases client.decides call <;> rfl
  · rw [made]
    cases attempt : client.attempt? call with
    | none =>
      have ⟨_, _, same⟩ := step_of_none client call attempt
      rw [same, Option.toList_none, List.append_nil]
      exact told.failCounter
    | some a =>
      have ⟨_, _, same⟩ := step_of_some client call a attempt
      rw [same, Option.toList_some, failedInARow_concat]
      cases a.failed with
      | false => rfl
      | true =>
        show client.failCounter + 1 = _
        rw [told.failCounter, if_pos rfl, UInt64.ofNat_add]
        rfl
  · rw [made, List.getLast?_append]
    cases attempt : client.attempt? call with
    | none =>
      have ⟨_, _, same⟩ := step_of_none client call attempt
      rw [same]
      exact told.nextConnect
    | some a =>
      have ⟨_, _, same⟩ := step_of_some client call a attempt
      rw [same, told.reconnectInterval]
      rfl

theorem told_run (fresh : NNGClient) (unconnected : fresh.connected = false)
    (uncounted : fresh.failCounter = 0) (calls : List Call) :
    Told fresh calls (fresh.runCalls calls) := by
  induction calls using List.reverseRecOn with
  | nil => exact ⟨rfl, rfl, rfl, rfl, rfl, unconnected, uncounted, rfl⟩
  | append_singleton calls call ih =>
    rw [runCalls_concat]
    exact ih.step rfl

theorem decides_unconnected (client : NNGClient) (call : Call) (dials : client.type ≠ .pub)
    (decided : client.decides call = some true) : client.connected = false := by
  cases call with
  | connect o =>
    rw [decides, attempt?] at decided
    by_cases held : client.connected = true ∨ o.tested < client.nextConnect
    · rw [if_pos held] at decided
      cases decided
    · exact Bool.eq_false_iff.mpr (not_or.mp held).1
  | listen opened listened =>
    simp [decides, dials] at decided
  | send msg sent =>
    rw [decides] at decided
    split_ifs at decided
    cases decided
  | receive received => cases decided

/-- After any run of calls the client is what the calls have made of it, and between
two connections of a client that dials a `send` has failed. -/
theorem client_of_history (host : String) (port : Int32) (type : NNGClientType) (now : Int64)
    (reconnectInterval maxReconnectFailures : UInt64) (calls : List Call) :
    Told (create host port type now reconnectInterval maxReconnectFailures) calls
      ((create host port type now reconnectInterval maxReconnectFailures).runCalls calls) ∧
    (type ≠ .pub → ((create host port type now reconnectInterval maxReconnectFailures).decisions
      calls).IsChain fun earlier later => earlier = false ∨ later = false) := by
  refine ⟨told_run _ rfl rfl calls, fun dials => ?_⟩
  generalize fresh : create host port type now reconnectInterval maxReconnectFailures = client
  have kind : client.type = type := by rw [← fresh]; rfl
  have told := told_run client (by rw [← fresh]; rfl) (by rw [← fresh]; rfl)
  induction calls using List.reverseRecOn with
  | nil => exact List.IsChain.nil
  | append_singleton calls call ih =>
    rw [decisions_concat]
    cases decided : (client.runCalls calls).decides call with
    | none => simpa using ih
    | some value =>
      rw [Option.toList_some, List.isChain_append]
      refine ⟨ih, List.isChain_singleton value, fun earlier last later same => ?_⟩
      obtain rfl : value = later := by simpa using same
      cases value with
      | false => exact .inr rfl
      | true =>
        have unconnected := decides_unconnected _ call (by rwa [(told calls).type, kind]) decided
        rw [(told calls).connected, Option.mem_def.mp last] at unconnected
        exact .inl unconnected

end NetworkDiscovery.NNGClient

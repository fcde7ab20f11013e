import NetworkDiscovery.Library.ActionRuns
import NetworkDiscovery.NNGClient

/-! Runs of calls on one client, in any order and with any outcomes. What
`connect` reports is what the client shows afterwards. A `listen` that succeeds
reports nothing, and one that fails forgets to clear the flag. -/

namespace NetworkDiscovery.NNGClient
open ActionRuns (Along)

inductive Call
  | connect (o : ConnectOutcomes)
  | listen (opened : Outcome UInt32) (listened : String → Outcome Unit)
  | send (msg : String) (sent : String → Outcome Unit)
  | receive (received : Outcome String)

def stateAfter {α : Type} (call : NNGCall α) (client : NNGClient) : NNGClient :=
  match call.run client with
  | .ok _ after => after
  | .error _ after => after

def step (client : NNGClient) : Call → NNGClient
  | .connect o => stateAfter (connect o) client
  | .listen opened listened => stateAfter (listen opened listened) client
  | .send msg sent => stateAfter (send msg sent) client
  | .receive received => stateAfter (receive received) client

def runCalls (client : NNGClient) (calls : List Call) : NNGClient := calls.foldl step client

theorem step_connect (o : ConnectOutcomes) (client : NNGClient) :
    client.step (.connect o) =
      if client.connected = true ∨ o.tested < client.nextConnect then client
      else attempted o client := by
  rw [step, stateAfter, connect_run]
  by_cases connected : client.connected
  · rw [if_pos connected, if_pos (.inl connected)]
  · by_cases early : o.tested < client.nextConnect
    · rw [if_neg connected, if_pos early, if_pos (.inr early)]
    · rw [if_neg connected, if_neg early, if_neg (not_or.mpr ⟨connected, early⟩), tryConnect_run]
      cases o.tried client <;> rfl

theorem receive_state (received : Outcome String) (client : NNGClient) :
    stateAfter (receive received) client = client := by
  rw [stateAfter, receive_run]
  by_cases push : client.type = .push
  · rw [if_pos push]
  · rw [if_neg push]
    cases received with
    | error e => rfl
    | ok buf => by_cases long : stringMaxSize < assignedLength buf <;> simp only [long, ↓reduceIte]

section

def Agrees (client : NNGClient) : Call → Prop
  | .connect o => ∃ reported after, (connect o).run client = .ok reported after ∧
      (reported = .success ↔ after.isConnected = true)
  | .listen opened listened => client.type = .pub →
      ∃ reported after, (listen opened listened).run client = .ok (some reported) after ∧
        (reported = .success ↔ after.isConnected = true)
  | .send .. => True
  | .receive .. => True

def FailsUnconnected (client : NNGClient) : Call → Prop
  | .listen opened listened => client.type = .pub → client.connected = false ∧
      ∃ e, (do let _ ← opened; listened client.host) = Except.error e
  | _ => True

theorem connect_agrees (client : NNGClient) (o : ConnectOutcomes) : Agrees client (.connect o) := by
  rw [Agrees, connect_run]
  by_cases connected : client.connected
  · rw [if_pos connected]
    exact ⟨_, _, rfl, iff_of_true rfl connected⟩
  · by_cases early : o.tested < client.nextConnect
    · rw [if_neg connected, if_pos early]
      exact ⟨_, _, rfl, iff_of_false (by decide) connected⟩
    · rw [if_neg connected, if_neg early, tryConnect_run]
      cases tried : o.tried client with
      | ok _ => exact ⟨_, _, rfl, iff_of_true rfl (by rw [isConnected, attempted, tried])⟩
      | error e =>
        refine ⟨_, _, rfl, iff_of_false e.failure ?_⟩
        rw [isConnected, attempted, tried]
        exact connected

theorem failure_agrees_iff (e : NngException) (client : NNGClient) :
    (∃ reported after, (EStateM.Result.ok (some e.error) client :
        EStateM.Result ClientException NNGClient (Option NngError)) = .ok (some reported) after ∧
      (reported = .success ↔ after.isConnected = true)) ↔ client.connected = false := by
  refine ⟨?_, fun clear => ⟨e.error, client, rfl, iff_of_false e.failure ?_⟩⟩
  · rintro ⟨reported, after, same, agree⟩
    cases same
    exact Bool.eq_false_iff.mpr (mt agree.mpr e.failure)
  · rw [isConnected, clear]
    decide

theorem listen_agrees_iff (client : NNGClient) (opened : Outcome UInt32)
    (listened : String → Outcome Unit) :
    Agrees client (.listen opened listened) ↔ FailsUnconnected client (.listen opened listened) := by
  refine imp_congr_right fun publisher => ?_
  rw [listen_run, if_neg (not_not.mpr publisher)]
  cases opened with
  | error e => exact (failure_agrees_iff e client).trans (and_iff_left ⟨e, rfl⟩).symm
  | ok socket =>
    cases result : listened client.host with
    | error e =>
      exact (failure_agrees_iff e { client with socket := socket }).trans (and_iff_left ⟨e, rfl⟩).symm
    | ok _ =>
      -- the end of the function is reached, so no value is returned
      refine iff_of_false ?_ ?_
      · rintro ⟨reported, after, same, _⟩
        cases same
      · rintro ⟨_, e, failed⟩
        have succeeded : (Except.ok () : Outcome Unit) = Except.error e := failed
        cases succeeded

theorem agrees_iff (client : NNGClient) (call : Call) :
    Agrees client call ↔ FailsUnconnected client call := by
  cases call with
  | connect o => exact iff_of_true (connect_agrees client o) trivial
  | listen opened listened => exact listen_agrees_iff client opened listened
  | send msg sent => exact Iff.rfl
  | receive received => exact Iff.rfl

/-- Along a run results and state agree exactly if no publisher's `listen`
succeeds, and none fails on a publisher that is connected. -/
theorem run_agrees_iff (host : String) (port : Int32) (type : NNGClientType) (now : Int64)
    (reconnectInterval maxReconnectFailures : UInt64) (calls : List Call) :
    Along step Agrees (create host port type now reconnectInterval maxReconnectFailures) calls ↔
      Along step FailsUnconnected (create host port type now reconnectInterval maxReconnectFailures)
        calls := by
  unfold Along
  simp only [agrees_iff]

theorem listen_without_result :
    ¬Along step Agrees (create "tcp://*:5555" 5555 .pub 0) [.listen (.ok 1) fun _ => .ok ()] := by
  intro agree
  obtain ⟨reported, after, same, _⟩ := agree [] _ [] rfl rfl
  have finished : EStateM.Result.ok none
      { create "tcp://*:5555" 5555 .pub 0 with socket := 1, connected := true } =
        (EStateM.Result.ok (some reported) after : EStateM.Result ClientException _ _) := same
  cases finished

end

section

def exchange (body : String) : NNGCall (NngError × String) := do
  let _ ← send body fun _ => .ok ()
  receive (.ok body)

def Echoes (client : NNGClient) (body : String) : Prop :=
  (exchange body).run client = .ok (.success, body) client ∧
    (assignedLength body).toNat ≤ body.length

theorem exchange_run (client : NNGClient) (body : String) :
    (exchange body).run client = (receive (.ok body)).run client := by
  rw [exchange, EStateM.run_bind, send_run]

theorem assignedLength_lt (body : String) (fits : ¬stringMaxSize < assignedLength body) :
    (assignedLength body).toNat < body.length := by
  rw [assignedLength, UInt64.lt_iff_toNat_lt, UInt64.toNat_sub, UInt64.toNat_ofNat'] at *
  have size : stringMaxSize.toNat = 0x7ffffffffffffffe := rfl
  have one : (1 : UInt64).toNat = 1 := rfl
  omega

/-- No reply comes back whole: an empty one throws, and any other loses its last character. -/
theorem not_echoes (client : NNGClient) (body : String) : ¬Echoes client body := by
  rintro ⟨ran, _⟩
  rw [exchange_run, receive_run] at ran
  by_cases push : client.type = .push
  · rw [if_pos push] at ran
    have results := (EStateM.Result.ok.inj ran).1
    exact absurd (Prod.mk.inj results).1 (by decide)
  · by_cases long : stringMaxSize < assignedLength body
    · simp only [if_neg push, if_pos long] at ran
      cases ran
    · simp only [if_neg push, if_neg long] at ran
      have results := (EStateM.Result.ok.inj ran).1
      have kept := congrArg String.length (Prod.mk.inj results).2
      have shorter := assignedLength_lt body long
      rw [String.length_ofList, List.length_take, String.length_toList] at kept
      omega

theorem empty_reply_throws :
    ¬Echoes { create "localhost" 5555 .req 0 with connected := true } "" := by
  rintro ⟨ran, _⟩
  have long : stringMaxSize < assignedLength "" := by decide
  have request : ¬NNGClientType.req = .push := by decide
  rw [exchange_run, receive_run] at ran
  simp only [create, if_neg request, if_pos long] at ran
  cases ran

end

end NetworkDiscovery.NNGClient

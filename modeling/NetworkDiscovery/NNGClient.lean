import Mathlib.Tactic.Common

/-! The client of an NNG socket. What the NNG library answers to the calls of a
client, and what the clock shows at them, is given with each call. The state
survives an exception. A message body is a `String` holding one character for
each byte. -/

namespace NetworkDiscovery

/-- `nng::error`, an enumeration over `int`. -/
abbrev NngError := Int32

namespace NngError

def success : NngError := 0
def canceled : NngError := 20
def internal : NngError := 1000
def syserr : NngError := 0x10000000

end NngError

/-- `nng::exception`: an operation throws for every result but success. -/
structure NngException where
  error : NngError
  failure : error ≠ NngError.success

abbrev Outcome (α : Type) := Except NngException α

inductive ClientException
  | nng (e : NngException)
  | lengthError

inductive NNGClientType
  | push
  | req
  | pub
  deriving DecidableEq, Repr

structure NNGClient where
  type : NNGClientType
  connected : Bool
  host : String
  port : Int32
  reconnectInterval : Int64
  nextConnect : Int64
  socket : UInt32
  failCounter : UInt64
  failCounterMax : UInt64

abbrev NNGCall := EStateM ClientException NNGClient

/-- What a call of `connect` meets: the clock where it is tested and where the
next attempt is scheduled, the new socket, the option, and the dial of an address. -/
structure ConnectOutcomes where
  tested : Int64
  scheduled : Int64
  opened : Outcome UInt32
  optionSet : Outcome Unit
  dialed : String → Outcome Unit

namespace NNGClient

def create (host : String) (port : Int32) (type : NNGClientType) (now : Int64)
    (reconnectInterval : UInt64 := 5000) (maxReconnectFailures : UInt64 := 5) : NNGClient where
  type := type
  connected := false
  host := host
  port := port
  reconnectInterval := reconnectInterval.toInt64
  nextConnect := now
  socket := 0
  failCounter := 0
  failCounterMax := maxReconnectFailures

def isConnected (client : NNGClient) : Bool := client.connected

def getFailCounter (client : NNGClient) : UInt64 := client.failCounter

def getNngMaxFailCount (client : NNGClient) : UInt64 := client.failCounterMax

def nng {α : Type} : Outcome α → NNGCall α
  | .ok value => pure value
  | .error e => throw (.nng e)

def replaceSocket (socket : UInt32) : NNGCall Unit :=
  modify fun client => { client with socket := socket }

/-- The handlers catch `nng::exception` only. -/
def catching {α : Type} (body : NNGCall α) (handler : NngException → NNGCall α) :
    NNGCall α :=
  tryCatch body fun
    | .nng e => handler e
    | other => throw other

/-- Without a result where the end of the function is reached. -/
def listen (opened : Outcome UInt32) (listened : String → Outcome Unit) :
    NNGCall (Option NngError) := do
  if (← get).type ≠ .pub then
    return some .syserr
  else
    catching (do
      replaceSocket (← nng opened)
      nng (listened (← get).host)
      modify fun client => { client with connected := true }
      return none) fun e => return some e.error

def address (client : NNGClient) : String := s!"tcp://{client.host}:{client.port}"

def openSocket (o : ConnectOutcomes) : NNGCall Unit := do
  match (← get).type with
  | .req => replaceSocket (← nng o.opened)
  | .push =>
    replaceSocket (← nng o.opened)
    nng o.optionSet
  | .pub => return ()

/-- The part of `connect` behind its two tests. -/
def tryConnect (o : ConnectOutcomes) : NNGCall NngError := do
  modify fun client => { client with nextConnect := o.scheduled + client.reconnectInterval }
  catching (do
    openSocket o
    nng (o.dialed (← get).address)
    modify fun client => { client with connected := true, failCounter := 0 }
    return .success) fun e => do
      modify fun client => { client with failCounter := client.failCounter + 1 }
      return e.error

def connect (o : ConnectOutcomes) : NNGCall NngError := do
  if (← get).connected then
    return .success
  else if o.tested < (← get).nextConnect then
    return .internal
  else
    tryConnect o

def send (msg : String) (sent : String → Outcome Unit) : NNGCall NngError := do
  catching (nng (sent msg)) fun e => do
    modify fun client => { client with connected := false }
    throw (.nng e)
  return .success

/-- `std::string::max_size()` -/
def stringMaxSize : UInt64 := 0x7ffffffffffffffe

/-- `std::string::assign(data, count)` from a buffer that holds so many bytes. -/
def assign (data : String) (count : UInt64) : NNGCall String :=
  if stringMaxSize < count then throw .lengthError
  else return String.ofList (data.toList.take count.toNat)

def assignedLength (buf : String) : UInt64 := UInt64.ofNat buf.length - 1

def receive (received : Outcome String) : NNGCall (NngError × String) := do
  if (← get).type = .push then
    return (.canceled, "Cannot receive when using NNG::PUSH")
  else
    catching (do
      let buf ← nng received
      let result ← assign buf (assignedLength buf)
      return (.success, result)) fun e => return (e.error, "")

end NNGClient

def ConnectOutcomes.prepared (o : ConnectOutcomes) : NNGClientType → Outcome Unit
  | .req => do
    let _ ← o.opened
    return ()
  | .push => do
    let _ ← o.opened
    o.optionSet
  | .pub => return ()

def ConnectOutcomes.tried (o : ConnectOutcomes) (client : NNGClient) : Outcome Unit := do
  o.prepared client.type
  o.dialed client.address

/-- The socket after the `try` block: what was opened stays when the dial fails. -/
def ConnectOutcomes.socketAfter (o : ConnectOutcomes) (client : NNGClient) : UInt32 :=
  match client.type, o.opened with
  | .pub, _ => client.socket
  | _, .ok socket => socket
  | _, .error _ => client.socket

namespace NNGClient

def attempted (o : ConnectOutcomes) (client : NNGClient) : NNGClient :=
  { client with
    nextConnect := o.scheduled + client.reconnectInterval
    socket := o.socketAfter client
    connected := match o.tried client with
      | .ok _ => true
      | .error _ => client.connected
    failCounter := match o.tried client with
      | .ok _ => 0
      | .error _ => client.failCounter + 1 }

theorem catching_run {α : Type} (body : NNGCall α) (handler : NngException → NNGCall α)
    (client : NNGClient) : (catching body handler).run client =
      match body.run client with
      | .error (.nng e) after => (handler e).run after
      | result => result := by
  show (catching body handler) client = _
  simp only [catching, tryCatch, tryCatchThe, MonadExceptOf.tryCatch, EStateM.tryCatch, EStateM.run]
  cases body client with
  | ok value after => rfl
  | error e after => cases e <;> rfl

theorem nng_run {α : Type} (outcome : Outcome α) (client : NNGClient) :
    (nng outcome).run client = match outcome with
      | .ok value => .ok value client
      | .error e => .error (.nng e) client := by
  cases outcome <;> rfl

theorem openSocket_run (o : ConnectOutcomes) (client : NNGClient) :
    (openSocket o).run client = match o.prepared client.type with
      | .ok _ => .ok () { client with socket := o.socketAfter client }
      | .error e => .error (.nng e) { client with socket := o.socketAfter client } := by
  obtain ⟨tested, scheduled, opened, optionSet, dialed⟩ := o
  obtain ⟨type⟩ := client
  cases type with
  | req => cases opened <;> rfl
  | push => cases opened <;> cases optionSet <;> rfl
  | pub => rfl

theorem tryConnect_run (o : ConnectOutcomes) (client : NNGClient) :
    (tryConnect o).run client = match o.tried client with
      | .ok _ => .ok .success (attempted o client)
      | .error e => .ok e.error (attempted o client) := by
  simp only [tryConnect, EStateM.run_bind, EStateM.run_modify, catching_run, openSocket_run]
  cases prepared : o.prepared client.type with
  | error e =>
    have failed : o.tried client = .error e := by rw [ConnectOutcomes.tried, prepared]; rfl
    rw [attempted, failed]
    rfl
  | ok _ =>
    have whole : o.tried client = o.dialed client.address := by
      rw [ConnectOutcomes.tried, prepared]
      rfl
    simp only [EStateM.run_get, nng_run, attempted, whole, address]
    generalize o.dialed s!"tcp://{client.host}:{client.port}" = dialed
    cases dialed <;> rfl

theorem connect_run (o : ConnectOutcomes) (client : NNGClient) :
    (connect o).run client =
      if client.connected then .ok .success client
      else if o.tested < client.nextConnect then .ok .internal client
      else (tryConnect o).run client := by
  simp only [connect, EStateM.run_bind, EStateM.run_get]
  by_cases connected : client.connected
  · rw [if_pos connected, if_pos connected, EStateM.run_pure]
  · rw [if_neg connected, if_neg connected, EStateM.run_bind, EStateM.run_get]
    dsimp only
    by_cases early : o.tested < client.nextConnect
    · rw [if_pos early, if_pos early, EStateM.run_pure]
    · rw [if_neg early, if_neg early]

theorem listen_run (opened : Outcome UInt32) (listened : String → Outcome Unit)
    (client : NNGClient) :
    (listen opened listened).run client =
      if client.type ≠ .pub then .ok (some .syserr) client
      else match opened, listened client.host with
        | .error e, _ => .ok (some e.error) client
        | .ok socket, .error e => .ok (some e.error) { client with socket := socket }
        | .ok socket, .ok _ => .ok none { client with socket := socket, connected := true } := by
  simp only [listen, EStateM.run_bind, EStateM.run_get]
  by_cases publisher : client.type ≠ .pub
  · rw [if_pos publisher, if_pos publisher]
    rfl
  · rw [if_neg publisher, if_neg publisher]
    simp only [catching_run, EStateM.run_bind, nng_run]
    cases opened with
    | error e => rfl
    | ok socket =>
      simp only [replaceSocket, EStateM.run_modify, EStateM.run_get]
      cases listened client.host <;> rfl

theorem send_run (msg : String) (sent : String → Outcome Unit) (client : NNGClient) :
    (send msg sent).run client = match sent msg with
      | .ok _ => .ok .success client
      | .error e => .error (.nng e) { client with connected := false } := by
  simp only [send, EStateM.run_bind, catching_run]
  cases sent msg <;> rfl

theorem receive_run (received : Outcome String) (client : NNGClient) :
    (receive received).run client =
      if client.type = .push then .ok (.canceled, "Cannot receive when using NNG::PUSH") client
      else match received with
        | .error e => .ok (e.error, "") client
        | .ok buf =>
          if stringMaxSize < assignedLength buf then .error .lengthError client
          else .ok (.success, String.ofList (buf.toList.take (assignedLength buf).toNat)) client := by
  simp only [receive, EStateM.run_bind, EStateM.run_get]
  by_cases push : client.type = .push
  · rw [if_pos push, if_pos push]
    rfl
  · rw [if_neg push, if_neg push, catching_run]
    cases received with
    | error e => rfl
    | ok buf =>
      have read : (nng (.ok buf) : NNGCall String).run client = .ok buf client := rfl
      simp only [EStateM.run_bind, read, assign]
      by_cases long : stringMaxSize < assignedLength buf
      · rw [if_pos long, if_pos long]
        rfl
      · rw [if_neg long, if_neg long]
        rfl

end NNGClient

end NetworkDiscovery

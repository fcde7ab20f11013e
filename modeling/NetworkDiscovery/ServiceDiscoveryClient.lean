import NetworkDiscovery.Library.UnorderedMap
import NetworkDiscovery.ServiceDiscoveryRecord

/-! The registry side of the client: decoding and recording of broadcast
entries, the sweep of expired records and the three views. Calls run against
the `services` map and keep what they did to it when an exception ends them. -/

namespace NetworkDiscovery

structure Message where
  routingkey : String
  body : List UInt8

/-- `std::string(message.body(), message.bodySize())` -/
def Message.text (message : Message) : String :=
  String.ofList (message.body.map fun byte => Char.ofNat byte.toNat)

structure Entry where
  service : String
  serviceId : String
  heartbeatTimeout : Int32
  lastHeartbeat : Int32
  metadata : String
  deriving DecidableEq, Repr

abbrev Services := UnorderedMap String ServiceDiscoveryRecord

abbrev Order := Placement String ServiceDiscoveryRecord

abbrev Call := EStateM CppException Services Unit

namespace ServiceDiscoveryClient

/-- The reads of one loop body. Every `operator[]` may change the element, so
the element is handed on from read to read. -/
def readEntry (lib : Nlohmann) (serviceData : Json) : Except CppException Entry := do
  let (service, serviceData) ← serviceData.stringField "service"
  let (msgServiceId, serviceData) ← serviceData.stringField "service_id"
  let (msgHeartbeatTimeout, serviceData) ← serviceData.intField lib "heartbeat_timeout"
  let (msgLastHeartbeat, serviceData) ← serviceData.intField lib "last_heartbeat"
  let (msgMetadata, _) ← serviceData.stringField "metadata"
  return ⟨service, msgServiceId, msgHeartbeatTimeout, msgLastHeartbeat, msgMetadata⟩

/-- `services.at(id)` and a call on the record behind the pointer -/
def atRecord (id : String) (call : ServiceDiscoveryRecord → ServiceDiscoveryRecord) : Call := do
  let services ← get
  match services.find? id with
  | some _ => set (services.modify id call)
  | none => throw .outOfRange

/-- The body of the `try` block. -/
def processEntry (lib : Nlohmann) (debug : Bool) (order : Order) (serviceData : Json) : Call :=
  match readEntry lib serviceData with
  | .error e => throw e
  | .ok entry => do
    let services ← get
    if services.count entry.serviceId > 0 then
      atRecord entry.serviceId fun record => record.updateHeartbeat entry.lastHeartbeat
      atRecord entry.serviceId fun record => record.updateMetadata entry.metadata
    else
      set (services.emplace order entry.serviceId (ServiceDiscoveryRecord.create entry.serviceId
        entry.service entry.heartbeatTimeout entry.lastHeartbeat debug))

/-- The loop over the array; the handler of an entry's exception returns. -/
def processEntries (lib : Nlohmann) (debug : Bool) (order : Order) : List Json → Call
  | [] => pure ()
  | serviceData :: rest => do
    let caught ← tryCatch (do processEntry lib debug order serviceData; return false)
      fun _ => return true
    if caught then return () else processEntries lib debug order rest

def processMessage (lib : Nlohmann) (debug : Bool) (order : Order) (message : Message) : Call :=
  if message.routingkey = "service-answer" then
    match lib.parse message.text with
    | none => throw .parseError
    | some (.array elements) => processEntries lib debug order elements
    | some _ => return ()
  else return ()

/-- The loop of `check_services` with the elements before and from the iterator
on; `clock` gives the time read when the record of an id is examined. -/
def checkFrom (clock : String → Int64) :
    (passed remaining : List (String × ServiceDiscoveryRecord)) →
      List (String × ServiceDiscoveryRecord)
  | passed, [] => passed
  | passed, it :: rest =>
    if it.2.isExpired (clock it.1) then checkFrom clock passed rest
    else checkFrom clock (passed ++ [it]) rest

theorem checkFrom_eq (clock : String → Int64)
    (passed remaining : List (String × ServiceDiscoveryRecord)) :
    checkFrom clock passed remaining =
      passed ++ remaining.filter fun it => !it.2.isExpired (clock it.1) := by
  induction remaining generalizing passed with
  | nil => simp [checkFrom]
  | cons it rest ih =>
    by_cases expired : it.2.isExpired (clock it.1) <;> simp [checkFrom, expired, ih]

def checkServices (clock : String → Int64) (services : Services) : Services where
  entries := checkFrom clock [] services.entries
  nodup := by
    rw [checkFrom_eq, List.nil_append]
    exact services.nodup.sublist (List.filter_sublist.map Prod.fst)

def getExistingServices (services : Services) : List String :=
  services.entries.map fun service => service.1

def getServices (services : Services) : List ServiceDiscoveryRecord :=
  services.entries.map fun service => service.2

/-- The overload with a type drops what `remove_if` selects. -/
def getServicesOfType (services : Services) (serviceType : String) :
    List ServiceDiscoveryRecord :=
  (getServices services).filter fun service => !(service.getServiceType != serviceType)

end ServiceDiscoveryClient

end NetworkDiscovery

import NetworkDiscovery.MessageEffects

/-! The client at the broker: the bindings that connect makes, the presence
that send_presence publishes and the broadcasts that come in. All of them use
the topic exchange, which passes a message with a key free of wildcards to the
queues bound with exactly that key. -/

namespace NetworkDiscovery
open ServiceDiscoveryClient

/-- What `generateUUID(n_digits)` can give. -/
structure Uuid (nDigits : ℕ) where
  text : String
  length : text.length = nDigits
  alphanum : ∀ c ∈ text.toList, c.isAlphanum

structure ClientMembers where
  serviceName : String
  serviceId : String
  reportQueue : String
  answerRoutingKey : String
  heartbeatTimeout : Int32
  metadata : Json

structure Binding where
  exchange : String
  queue : String
  routingkey : String

structure Publication where
  exchange : String
  routingkey : String
  body : String

/-- The exchange named in the binding passes the message on to its queue. -/
def Binding.Passes (b : Binding) (exchange routingkey : String) : Prop :=
  b.exchange = exchange ∧ b.routingkey = routingkey

def Delivered (bindings : List Binding) (p : Publication) (queue : String) : Prop :=
  ∃ b ∈ bindings, b.queue = queue ∧ b.Passes p.exchange p.routingkey

namespace ClientMembers

/-- The constructor; the tree of the metadata starts as null. -/
def create (serviceName reportQueue answerRoutingKey : String) (heartbeatTimeout : Int32)
    (serviceId : String) (uuid : Uuid 32) : ClientMembers where
  serviceName := serviceName
  serviceId := if serviceId.isEmpty then uuid.text else serviceId
  reportQueue := reportQueue
  answerRoutingKey := answerRoutingKey
  heartbeatTimeout := heartbeatTimeout
  metadata := .null

def uniqueServiceName (client : ClientMembers) (uuid : Uuid 12) : String :=
  "service-" ++ client.serviceName ++ "-" ++ uuid.text

def reportBinding (client : ClientMembers) : Binding :=
  ⟨"amq.topic", client.reportQueue, client.reportQueue⟩

def answerBinding (client : ClientMembers) (uuid : Uuid 12) : Binding :=
  ⟨"amq.topic", client.uniqueServiceName uuid, client.answerRoutingKey⟩

def bindings (client : ClientMembers) (uuid : Uuid 12) : List Binding :=
  [client.reportBinding, client.answerBinding uuid]

def presence (client : ClientMembers) (now : Int64) (metadata : String) : Json := .object
  [("heartbeat_timeout", .numberInteger client.heartbeatTimeout.toInt64),
    ("metadata", .string metadata),
    ("service", .string client.serviceName),
    ("service_id", .string client.serviceId),
    ("timestamp", .numberInteger (now / 1000000000))]

def sendPresence (lib : Nlohmann) (client : ClientMembers) (now : Int64) :
    Except CppException Publication := do
  let metadata ← lib.dumped client.metadata (some 4)
  let dataString ← lib.dumped (client.presence now metadata) none
  return ⟨"amq.topic", "service-discovery", dataString⟩

def PresencesArrive (lib : Nlohmann) (client : ClientMembers) : Prop :=
  ∀ uuid now p, client.sendPresence lib now = .ok p →
    Delivered (client.bindings uuid) p client.reportQueue

def TakenIn (es : List Entry) (after : Services) : Prop :=
  ∀ last : Entry, (entriesFor last.serviceId es).getLast? = some last →
    ∃ record, after.find? last.serviceId = some record ∧
      record.lastHeartbeat = last.lastHeartbeat.toInt64

def BroadcastsTakenIn (lib : Nlohmann) (client : ClientMembers) : Prop :=
  ∀ uuid debug order services (message : Message) docs es,
    (client.answerBinding uuid).Passes "amq.topic" message.routingkey →
    lib.parse message.text = some (.array docs) → List.Forall₂ Announces docs es → es ≠ [] →
    TakenIn es (servicesAfter
      (processMessage lib debug order message) services)

theorem sendPresence_key (lib : Nlohmann) (client : ClientMembers) (now : Int64)
    (p : Publication) (sent : client.sendPresence lib now = .ok p) :
    p.exchange = "amq.topic" ∧ p.routingkey = "service-discovery" := by
  unfold sendPresence at sent
  cases metadata : lib.dumped client.metadata (some 4) with
  | error e => simp [metadata, bind, Except.bind] at sent
  | ok text =>
    cases data : lib.dumped (client.presence now text) none with
    | error e => simp [metadata, data, bind, Except.bind] at sent
    | ok dataString =>
      simp only [metadata, data, bind, Except.bind, pure, Except.pure, Except.ok.injEq] at sent
      exact ⟨by rw [← sent], by rw [← sent]⟩

def repeatedUuid (n : ℕ) (c : Char) (h : c.isAlphanum) : Uuid n where
  text := String.ofList (List.replicate n c)
  length := by simp
  alphanum := by
    intro d member
    rw [String.toList_ofList] at member
    rwa [List.eq_of_mem_replicate member]

theorem exists_uniqueServiceName_ne (client : ClientMembers) (queue : String) :
    ∃ uuid, client.uniqueServiceName uuid ≠ queue := by
  by_contra all
  have same : client.uniqueServiceName (repeatedUuid 12 'a' rfl) =
      client.uniqueServiceName (repeatedUuid 12 'b' rfl) := by
    have fixed : ∀ uuid, client.uniqueServiceName uuid = queue := by simpa using all
    rw [fixed, fixed]
  have texts := congrArg String.toList same
  simp only [uniqueServiceName, String.toList_append] at texts
  have digits := List.append_cancel_left texts
  exact absurd digits (by decide)

theorem presencesArrive_iff (lib : Nlohmann) (client : ClientMembers)
    (published : ∃ now p, client.sendPresence lib now = .ok p) :
    client.PresencesArrive lib ↔ client.reportQueue = "service-discovery" := by
  constructor
  · intro arrive
    have ⟨now, p, sent⟩ := published
    have ⟨uuid, own⟩ := client.exists_uniqueServiceName_ne client.reportQueue
    have key := (client.sendPresence_key lib now p sent).2
    have ⟨b, bound, queue, passes⟩ := arrive uuid now p sent
    rw [bindings, List.mem_cons, List.mem_singleton] at bound
    rcases bound with report | answer
    · rw [report, key] at passes
      exact passes.2
    · rw [answer] at queue
      exact absurd queue own
  · intro named uuid now p sent
    have key := client.sendPresence_key lib now p sent
    have passes : client.reportBinding.Passes p.exchange p.routingkey := by
      rw [key.1, key.2]
      exact ⟨rfl, named⟩
    exact ⟨client.reportBinding, List.mem_cons_self, rfl, passes⟩

theorem takenIn_recordAll (debug : Bool) (order : Order) (services : Services)
    (es : List Entry) :
    TakenIn es (es.foldl (recordEntry debug order) services) :=
  fun last final => lastHeartbeat_recordAll debug order services es last final

theorem not_takenIn_empty (e : Entry) (es : List Entry) : ¬ TakenIn (e :: es) .empty := by
  intro taken
  have announced : e.serviceId ∈ (e :: es).map Entry.serviceId := List.mem_cons_self
  obtain ⟨first, rest, last, split, final⟩ := exists_entriesFor e.serviceId (e :: es) announced
  have own : last.serviceId = e.serviceId := by
    have member := List.mem_of_getLast? final
    rw [← split, entriesFor, List.mem_filter] at member
    simpa using member.2
  obtain ⟨record, found, _⟩ := taken last (by rw [own, split, final])
  cases found

theorem broadcastsTakenIn_iff (lib : Nlohmann) (client : ClientMembers)
    (readable : ∃ (message : Message) (docs : List Json) (e : Entry) (es : List Entry),
      lib.parse message.text = some (.array docs) ∧ List.Forall₂ Announces docs (e :: es)) :
    client.BroadcastsTakenIn lib ↔ client.answerRoutingKey = "service-answer" := by
  constructor
  · intro taken
    have ⟨message, docs, e, es, parsed, announced⟩ := readable
    by_contra other
    have left := taken (repeatedUuid 12 'a' rfl) false .atEnd .empty
      ⟨client.answerRoutingKey, message.body⟩ docs (e :: es) ⟨rfl, rfl⟩ parsed announced (by simp)
    rw [servicesAfter_processMessage, messageEntries, if_neg other] at left
    exact not_takenIn_empty e es left
  · intro named uuid debug order services message docs es passes parsed announced _
    have route : message.routingkey = "service-answer" := by
      rw [← passes.2]
      exact named
    rw [servicesAfter_announced lib debug order services message docs es route parsed announced]
    exact takenIn_recordAll debug order services es

/-- The configured names are honoured exactly when they are the two names that
stand as constants in send_presence and process_message. -/
theorem names_honoured_iff (lib : Nlohmann) (client : ClientMembers)
    (published : ∃ now p, client.sendPresence lib now = .ok p)
    (readable : ∃ (message : Message) (docs : List Json) (e : Entry) (es : List Entry),
      lib.parse message.text = some (.array docs) ∧ List.Forall₂ Announces docs (e :: es)) :
    client.PresencesArrive lib ∧ client.BroadcastsTakenIn lib ↔
      client.reportQueue = "service-discovery" ∧ client.answerRoutingKey = "service-answer" := by
  rw [presencesArrive_iff lib client published, broadcastsTakenIn_iff lib client readable]

/-- The compact text of a flat value whose strings need no escapes. -/
def printed : Json → Option ℕ → Option String
  | .null, _ => some "null"
  | .string value, _ => quoted value
  | .numberInteger value, _ => some (toString value.toInt)
  | .object members, none => do
    let texts ← members.mapM fun (key, value) => do
      return (← quoted key) ++ ":" ++ (← scalar value)
    return "\x7b" ++ ",".intercalate texts ++ "\x7d"
  | _, _ => none
where
  quoted (value : String) : Option String :=
    if value.toList.all fun c => 32 ≤ c.toNat ∧ c.toNat < 127 ∧ c.toNat ≠ 34 ∧ c.toNat ≠ 92 then
      some ("\"" ++ value ++ "\"")
    else none
  scalar : Json → Option String
    | .null => some "null"
    | .string value => quoted value
    | .numberInteger value => some (toString value.toInt)
    | _ => none

def printingLib : Nlohmann where
  parse := sampleLib.parse
  dump := printed
  castOutOfRange := sampleLib.castOutOfRange

def masterClient : ClientMembers :=
  create "Master" "service-discovery" "service-answer" 120 "" (repeatedUuid 32 'm' rfl)

theorem masterClient_publishes : ∃ now p, masterClient.sendPresence printingLib now = .ok p :=
  ⟨0, _, rfl⟩

theorem names_honoured_master :
    masterClient.PresencesArrive printingLib ∧ masterClient.BroadcastsTakenIn printingLib := by
  have readable : printingLib.parse sampleAnswer.text =
      some (.array [sampleDoc "up"]) := by
    rw [printingLib, sampleLib_answer]
  have announced := sampleDoc_announces "up"
  exact (names_honoured_iff printingLib masterClient masterClient_publishes
    ⟨_, _, _, _, readable, .cons announced .nil⟩).mpr ⟨rfl, rfl⟩

def renamedClient : ClientMembers :=
  create "Master" "reports" "answers" 120 "" (repeatedUuid 32 'm' rfl)

theorem names_ignored_renamed :
    ¬ (renamedClient.PresencesArrive printingLib ∧ renamedClient.BroadcastsTakenIn printingLib) := by
  intro honoured
  have named := (presencesArrive_iff printingLib renamedClient ⟨0, _, rfl⟩).mp honoured.1
  exact absurd named (by decide)

end ClientMembers

end NetworkDiscovery

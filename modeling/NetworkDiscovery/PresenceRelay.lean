import NetworkDiscovery.ArrayDelivery
import NetworkDiscovery.JsonText
import NetworkDiscovery.PresenceRouting

/-! The way of a service's metadata from the add_metadata calls to a peer: the
tree is printed into a string of the presence, which is printed again, relayed
by the controller and decoded twice by the peer. -/

namespace NetworkDiscovery
open Json (Dumpable Equal Restores)
open ServiceDiscoveryClient
open Utf8Text

abbrev ClientCall := EStateM CppException ClientMembers Unit

namespace ClientMembers

/-- `metadata.set(key, value)` on the builder of the client -/
def setMetadata (key : String) (value : Json) : ClientCall := fun client =>
  match (JsonBuilder.setKey key value).run client.metadata with
  | .ok _ tree => .ok () { client with metadata := tree }
  | .error e tree => .error e { client with metadata := tree }

def addMetadataStr (key data : String) : ClientCall := setMetadata key (.string data)

def addMetadataDict (key : String) (data : Json) : ClientCall := setMetadata key data

def addMetadataInt (key : String) (data : Int32) : ClientCall :=
  setMetadata key (.numberInteger data.toInt64)

/-- The float is stored as a double. -/
def addMetadataFloat (key : String) (data : ℚ) : ClientCall := setMetadata key (.numberFloat data)

def addMetadataStrList (key : String) (data : List String) : ClientCall :=
  setMetadata key (.array (data.map .string))

end ClientMembers

inductive MetadataCall
  | str (key data : String)
  | dict (key : String) (data : Json)
  | int (key : String) (data : Int32)
  | float (key : String) (data : ℚ)
  | strList (key : String) (data : List String)

namespace MetadataCall

def call : MetadataCall → ClientCall
  | str key data => ClientMembers.addMetadataStr key data
  | dict key data => ClientMembers.addMetadataDict key data
  | int key data => ClientMembers.addMetadataInt key data
  | float key data => ClientMembers.addMetadataFloat key data
  | strList key data => ClientMembers.addMetadataStrList key data

def Valid : MetadataCall → Prop
  | str key data => IsUtf8 key ∧ IsUtf8 data
  | dict key data => IsUtf8 key ∧ Dumpable data
  | int key _ => IsUtf8 key
  | float key data => IsUtf8 key ∧ IsFloat data
  | strList key data => IsUtf8 key ∧ ∀ text ∈ data, IsUtf8 text

def setting : MetadataCall → String × Json
  | str key data => (key, .string data)
  | dict key data => (key, data)
  | int key data => (key, .numberInteger data.toInt64)
  | float key data => (key, .numberFloat data)
  | strList key data => (key, .array (data.map .string))

theorem call_eq (c : MetadataCall) :
    c.call = ClientMembers.setMetadata c.setting.1 c.setting.2 := by
  cases c <;> rfl

theorem Valid.setting {c : MetadataCall} (valid : c.Valid) :
    IsUtf8 c.setting.1 ∧ Dumpable c.setting.2 := by
  cases c with
  | str key data => exact ⟨valid.1, .string data valid.2⟩
  | dict key data => exact valid
  | int key data => exact ⟨valid, .numberInteger _⟩
  | float key data => exact ⟨valid.1, .numberFloat data valid.2.isDouble⟩
  | strList key data =>
    refine ⟨valid.1, .array _ fun element member => ?_⟩
    obtain ⟨text, listed, rfl⟩ := List.mem_map.mp member
    exact .string text (valid.2 text listed)

end MetadataCall

namespace ClientMembers

def afterCall (client : ClientMembers) (c : MetadataCall) : ClientMembers :=
  match c.call.run client with
  | .ok _ left => left
  | .error _ left => left

def afterCalls (client : ClientMembers) (calls : List MetadataCall) : ClientMembers :=
  calls.foldl afterCall client

def announced (client : ClientMembers) (heartbeat : Int32) (text : String) : Entry :=
  ⟨client.serviceName, client.serviceId, client.heartbeatTimeout, heartbeat, text⟩

def Copies (entry presence : List (String × Json)) (key source : String) : Prop :=
  ∃ copy original, entry.lookup key = some copy ∧ presence.lookup source = some original ∧
    Equal copy original

/-- The entry that the controller makes of a presence. -/
def Relays (entry presence : List (String × Json)) : Prop :=
  (∀ key ∈ ["service", "service_id", "heartbeat_timeout", "metadata"],
    Copies entry presence key key) ∧
  Copies entry presence "last_heartbeat" "timestamp"

def Accepts (lib : Nlohmann) (client : ClientMembers) (heartbeat : Int32) (text : String)
    (entry : List (String × Json)) : Prop :=
  ∀ debug order (services : Services) message before after,
    (services.find? client.serviceId).isSome →
    Broadcasts lib message (before ++ .object entry :: after) →
    (∀ doc ∈ before, WellFormedElement doc) →
    (∀ doc ∈ after, doc.serviceId? ≠ some client.serviceId) →
    ∃ left record, (processMessage lib debug order message).run services = .ok () left ∧
      left.find? client.serviceId = some record ∧
      record.lastHeartbeat = heartbeat.toInt64 ∧ record.getMetadata = text ∧
      ∃ json parsed, (ServiceDiscoveryRecord.getMetadataJson lib).run record =
        .ok (some json) parsed ∧ Equal json client.metadata

def Understood (lib : Nlohmann) (client : ClientMembers) (now : Int64) (heartbeat : Int32) : Prop :=
  ∃ text publication presence, lib.dump client.metadata (some 4) = some text ∧
    client.sendPresence lib now = .ok publication ∧
    lib.parse publication.body = some (.object presence) ∧
    ∀ entry, Relays entry presence →
      readEntry lib (.object entry) = .ok (client.announced heartbeat text) ∧
      Accepts lib client heartbeat text entry

theorem afterCall_eq (client : ClientMembers) (c : MetadataCall) :
    client.afterCall c =
      { client with metadata := (JsonBuilder.attempt client.metadata c.setting).2 } := by
  rw [afterCall, c.call_eq, JsonBuilder.attempt]
  show (match setMetadata _ _ client with | .ok _ left => left | .error _ left => left) = _
  rw [setMetadata]
  cases (JsonBuilder.setKey c.setting.1 c.setting.2).run client.metadata <;> rfl

theorem afterCalls_eq (client : ClientMembers) (calls : List MetadataCall)
    (valid : ∀ c ∈ calls, c.Valid) (dumpable : Dumpable client.metadata) :
    ∃ tree, client.afterCalls calls = { client with metadata := tree } ∧ Dumpable tree := by
  induction calls generalizing client with
  | nil => exact ⟨client.metadata, rfl, dumpable⟩
  | cons c rest ih =>
    have ⟨first, later⟩ := List.forall_mem_cons.mp valid
    have step := client.afterCall_eq c
    have kept := JsonBuilder.attempt_dumpable c.setting client.metadata first.setting.1
      first.setting.2 dumpable
    obtain ⟨tree, same, fits⟩ := ih (client.afterCall c) later (by rw [step]; exact kept)
    refine ⟨tree, ?_, fits⟩
    rw [afterCalls, List.foldl_cons, ← afterCalls, same, step]

theorem create_serviceId_isUtf8 (serviceName reportQueue answerRoutingKey : String)
    (heartbeatTimeout : Int32) (serviceId : String) (uuid : Uuid 32) (valid : IsUtf8 serviceId) :
    IsUtf8 (create serviceName reportQueue answerRoutingKey heartbeatTimeout serviceId
      uuid).serviceId := by
  rw [create]
  split_ifs
  · refine isUtf8_of_ascii uuid.text (List.all_eq_true.mpr fun c member => ?_)
    exact decide_eq_true (toNat_lt_of_isAlphanum c (uuid.alphanum c member))
  · exact valid

theorem presence_dumpable (client : ClientMembers) (now : Int64) (text : String)
    (name : IsUtf8 client.serviceName) (id : IsUtf8 client.serviceId) (valid : IsUtf8 text) :
    Dumpable (client.presence now text) := by
  have keys : ∀ key ∈ ["heartbeat_timeout", "metadata", "service", "service_id", "timestamp"],
      IsUtf8 key := fun key member => isUtf8_of_ascii key (by revert key; decide)
  refine .object _ ?_ ?_ ?_
  · show List.Pairwise _ ["heartbeat_timeout", "metadata", "service", "service_id", "timestamp"]
    decide
  · intro member listed
    exact keys member.1 (List.mem_map_of_mem listed)
  · simp only [List.forall_mem_cons]
    exact ⟨.numberInteger _, .string text valid, .string _ name, .string _ id, .numberInteger _,
      nofun⟩

theorem Copies.equal {entry presence members : List (String × Json)} {key source : String}
    (copies : Copies entry presence key source)
    (same : ∀ key, (presence.lookup key).map Json.normalized =
      (members.lookup key).map Json.normalized) (value : Json)
    (found : members.lookup source = some value) :
    ∃ copy, entry.lookup key = some copy ∧ Equal copy value := by
  obtain ⟨copy, original, here, there, equal⟩ := copies
  have kept := same source
  rw [there, found] at kept
  exact ⟨copy, here, equal.trans (Option.some.inj kept)⟩

theorem asEntry_relayed (lib : Nlohmann) (client : ClientMembers) (now : Int64) (text : String)
    (entry presence : List (String × Json))
    (sent : Equal (.object presence) (client.presence now text))
    (relays : Relays entry presence) :
    Json.asEntry lib (.object entry) =
      some (client.announced (Int32.ofInt (now / 1000000000).toInt) text) := by
  obtain ⟨_, ⟨⟩, same⟩ := Equal.lookup_eq sent
  have ⟨copied, beat⟩ := relays
  simp only [List.forall_mem_cons] at copied
  have ⟨service, serviceId, timeout, metadata, _⟩ := copied
  have ⟨name, foundName, equalName⟩ := service.equal same _ rfl
  have ⟨id, foundId, equalId⟩ := serviceId.equal same _ rfl
  have ⟨limit, foundLimit, equalLimit⟩ := timeout.equal same _ rfl
  have ⟨data, foundData, equalData⟩ := metadata.equal same _ rfl
  have ⟨time, foundTime, equalTime⟩ := beat.equal same _ rfl
  refine (asEntry_eq_some lib _ _).mpr ⟨entry, rfl, ?_⟩
  have whole (value : Int32) : Json.int? lib (.numberInteger value.toInt64) = some value := by
    show some (Int32.ofInt value.toInt64.toInt) = some value
    rw [Int32.toInt_toInt64, Int32.ofInt_toInt]
  rw [foundName, foundId, foundLimit, foundData, foundTime]
  simp only [Option.bind_some, equalName.string?_eq, equalId.string?_eq, equalData.string?_eq,
    equalLimit.int?_eq lib, equalTime.int?_eq lib, whole]
  exact ⟨rfl, rfl, rfl, rfl, rfl⟩

theorem entriesFor_broadcast (lib : Nlohmann) (message : Message) (before after : List Json)
    (doc : Json) (e : Entry) (broadcasts : Broadcasts lib message (before ++ doc :: after))
    (well : ∀ other ∈ before, WellFormedElement other) (reads : doc.asEntry lib = some e)
    (apart : ∀ other ∈ after, other.serviceId? ≠ some e.serviceId) :
    entriesFor e.serviceId (messageEntries lib message) =
      entriesFor e.serviceId (applied lib before) ++ [e] := by
  have applies : ∀ other ∈ before, wellFormed lib other = true :=
    fun other member => (wellFormed_iff lib other).mpr (well other member)
  have silent : entriesFor e.serviceId (applied lib after) = [] := by
    rw [entriesFor_eq_nil]
    intro announced
    obtain ⟨later, member, own⟩ := List.mem_map.mp announced
    obtain ⟨other, listed, carries⟩ := mem_applied lib after later member
    have named := serviceId?_of_asEntry lib other later carries
    exact apart other listed (by rw [named, own])
  have own : entriesFor e.serviceId (e :: applied lib after) =
      e :: entriesFor e.serviceId (applied lib after) := by simp [entriesFor]
  rw [messageEntries_array lib message _ broadcasts.1 broadcasts.2,
    applied_append lib before _ applies, entriesFor_append, applied_cons, reads]
  show _ ++ entriesFor e.serviceId (e :: applied lib after) = _
  rw [own, silent]

theorem accepts_of_asEntry (lib : Nlohmann) (client : ClientMembers) (heartbeat : Int32)
    (text : String) (entry : List (String × Json)) (back : Json)
    (reads : Json.asEntry lib (.object entry) = some (client.announced heartbeat text))
    (some_text : text ≠ "") (parsed : lib.parse text = some back)
    (equal : Equal back client.metadata) : Accepts lib client heartbeat text entry := by
  intro debug order services message before after known broadcasts well apart
  obtain ⟨record, found⟩ := Option.isSome_iff_exists.mp known
  have own : entriesFor client.serviceId (messageEntries lib message) =
      entriesFor client.serviceId (applied lib before) ++ [client.announced heartbeat text] :=
    entriesFor_broadcast lib message before after _ _ broadcasts well reads apart
  have some_entry := List.append_ne_nil_of_right_ne_nil
    (entriesFor client.serviceId (applied lib before))
    (List.cons_ne_nil (client.announced heartbeat text) [])
  obtain ⟨first, rest, split⟩ := List.exists_cons_of_ne_nil some_entry
  rw [split] at own
  have final : (first :: rest).getLast? = some (client.announced heartbeat text) := by
    rw [← split, List.getLast?_concat]
  have kept := find?_recordAll debug order services (messageEntries lib message) client.serviceId
  rw [own, found, foldl_recordOne debug (some record) first _ rest final] at kept
  have returns : ¬ (message.routingkey = "service-answer" ∧ lib.parse message.text = none) := by
    simp [broadcasts.2]
  refine ⟨_, _, ?_, kept, rfl, ?_, back, ?_⟩
  · rw [processMessage_run, if_neg returns]
  · simp [ServiceDiscoveryRecord.getMetadata, announced]
  · rw [ServiceDiscoveryRecord.getMetadataJson_run]
    simp [announced, some_text, parsed, equal]

/-- Encoder and decoder agree on every service and all metadata: the library is
relied on for the two values that the presence prints, both fit to be printed. -/
theorem presence_understood (lib : Nlohmann) (serviceName reportQueue answerRoutingKey : String)
    (heartbeatTimeout : Int32) (serviceId : String) (uuid : Uuid 32) (calls : List MetadataCall)
    (client : ClientMembers) (now : Int64) (heartbeat : Int32)
    (name : IsUtf8 serviceName) (id : IsUtf8 serviceId) (valid : ∀ c ∈ calls, c.Valid)
    (built : client = (create serviceName reportQueue answerRoutingKey heartbeatTimeout serviceId
      uuid).afterCalls calls)
    (clock : now / 1000000000 = heartbeat.toInt64)
    (restores_metadata : Dumpable client.metadata → Restores lib client.metadata (some 4))
    (restores_presence : ∀ text, lib.dump client.metadata (some 4) = some text →
      Dumpable (client.presence now text) → Restores lib (client.presence now text) none)
    (parse_empty : lib.parse "" = none) :
    client.serviceName = serviceName ∧ client.heartbeatTimeout = heartbeatTimeout ∧
      (serviceId ≠ "" → client.serviceId = serviceId) ∧ Understood lib client now heartbeat := by
  obtain ⟨tree, same, fits⟩ := afterCalls_eq (create serviceName reportQueue answerRoutingKey
    heartbeatTimeout serviceId uuid) calls valid .null
  obtain rfl := built.trans same
  obtain ⟨text, dumped, readable, back, parsed, equal⟩ := restores_metadata fits
  have own := create_serviceId_isUtf8 serviceName reportQueue answerRoutingKey heartbeatTimeout
    serviceId uuid id
  obtain ⟨body, printed, -, object, received, sent⟩ := restores_presence text dumped
    (presence_dumpable _ now text name own readable)
  obtain ⟨presence, rfl, -⟩ := Equal.lookup_eq sent
  have some_text : text ≠ "" := by
    rintro rfl
    rw [parse_empty] at parsed
    cases parsed
  have given : serviceId ≠ "" → (create serviceName reportQueue answerRoutingKey heartbeatTimeout
      serviceId uuid).serviceId = serviceId := by
    intro some_id
    simp [create, some_id]
  refine ⟨rfl, rfl, given, text, ⟨"amq.topic", "service-discovery", body⟩, presence, dumped, ?_,
    received, ?_⟩
  · simp only [sendPresence, Nlohmann.dumped, dumped, printed, bind, Except.bind, pure, Except.pure]
  · intro entry relays
    have reads := asEntry_relayed lib _ now text entry presence sent relays
    rw [clock, Int32.toInt_toInt64, Int32.ofInt_toInt] at reads
    refine ⟨?_, accepts_of_asEntry lib _ heartbeat text entry back reads some_text parsed equal⟩
    rw [readEntry_eq, reads]

def loadClient : ClientMembers :=
  (create "A" "service-discovery" "service-answer" 120 "a" (repeatedUuid 32 'a' rfl)).afterCalls
    [.int "load" 7]

def loadText : String := "\x7b\n    \"load\": 7\n\x7d"

def loadPresenceText : String := "\x7b\"heartbeat_timeout\":120,\"metadata\":\"\x7b\\n    \\\"load\\\": 7\\n\x7d\",\"service\":\"A\",\"service_id\":\"a\",\"timestamp\":5\x7d"

def loadPresence : List (String × Json) :=
  [("heartbeat_timeout", .numberUnsigned 120), ("metadata", .string loadText),
    ("service", .string "A"), ("service_id", .string "a"), ("timestamp", .numberUnsigned 5)]

def loadEntry : List (String × Json) :=
  [("heartbeat_timeout", .numberUnsigned 120), ("last_heartbeat", .numberUnsigned 5),
    ("metadata", .string loadText), ("service", .string "A"), ("service_id", .string "a")]

def loadBroadcast : Message := .answer "[\x7b\"heartbeat_timeout\":120,\"last_heartbeat\":5,\"metadata\":\"\x7b\\n    \\\"load\\\": 7\\n\x7d\",\"service\":\"A\",\"service_id\":\"a\"\x7d]"

/-- A library that knows the texts of this service and no others. -/
def loadLib : Nlohmann where
  parse text :=
    if text = loadText then some (.object [("load", .numberUnsigned 7)])
    else if text = loadPresenceText then some (.object loadPresence)
    else if text = loadBroadcast.text then some (.array [.object loadEntry])
    else none
  dump
    | .object [("load", .numberInteger value)], some 4 => if value = 7 then some loadText else none
    | .object [("heartbeat_timeout", .numberInteger timeout), ("metadata", .string metadata),
        ("service", .string service), ("service_id", .string id),
        ("timestamp", .numberInteger time)], none =>
      if timeout = 120 ∧ metadata = loadText ∧ service = "A" ∧ id = "a" ∧ time = 5 then
        some loadPresenceText
      else none
    | _, _ => none
  castOutOfRange _ := -2147483648

theorem load_metadata_restored : Restores loadLib loadClient.metadata (some 4) :=
  ⟨loadText, rfl, isUtf8_of_ascii _ (by decide), _, rfl, rfl⟩

theorem load_presence_restored :
    Restores loadLib (loadClient.presence 5000000000 loadText) none :=
  ⟨loadPresenceText, rfl, isUtf8_of_ascii _ (by decide), _, rfl, rfl⟩

theorem loadBroadcast_ne (text : String) (h : text.length ≠ 112) : text ≠ loadBroadcast.text := by
  rintro rfl
  rw [loadBroadcast, answer_text_length] at h
  exact absurd h (by decide)

theorem loadLib_empty : loadLib.parse "" = none := by
  have other := loadBroadcast_ne "" (by decide)
  simp [loadLib, other, loadText, loadPresenceText]

theorem load_broadcasts : Broadcasts loadLib loadBroadcast [.object loadEntry] := by
  have not_text := (loadBroadcast_ne loadText (by decide)).symm
  have not_presence := (loadBroadcast_ne loadPresenceText (by decide)).symm
  refine ⟨rfl, ?_⟩
  simp [loadLib, not_text, not_presence]

theorem presence_understood_load :
    Understood loadLib loadClient 5000000000 5 ∧ Relays loadEntry loadPresence ∧
      Broadcasts loadLib loadBroadcast [.object loadEntry] := by
  refine ⟨?_, ?_, load_broadcasts⟩
  · refine (presence_understood loadLib "A" "service-discovery" "service-answer" 120 "a"
      (repeatedUuid 32 'a' rfl) [.int "load" 7] loadClient 5000000000 5
      (isUtf8_of_ascii "A" (by decide)) (isUtf8_of_ascii "a" (by decide)) ?_ rfl rfl
      (fun _ => load_metadata_restored) ?_ loadLib_empty).2.2.2
    · intro c member
      obtain rfl := List.mem_singleton.mp member
      exact isUtf8_of_ascii "load" (by decide)
    · intro text dumped _
      obtain rfl : loadText = text := Option.some.inj dumped
      exact load_presence_restored
  · refine ⟨?_, ⟨_, _, rfl, rfl, rfl⟩⟩
    simp only [List.forall_mem_cons]
    exact ⟨⟨_, _, rfl, rfl, rfl⟩, ⟨_, _, rfl, rfl, rfl⟩, ⟨_, _, rfl, rfl, rfl⟩,
      ⟨_, _, rfl, rfl, rfl⟩, nofun⟩

end ClientMembers

end NetworkDiscovery

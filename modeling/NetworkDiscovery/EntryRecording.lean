import Mathlib.Data.List.TakeWhile
import NetworkDiscovery.ServiceDiscoveryClient

/-! What one message does to the registry. An element of the array either
carries an entry or stops the loop, so a message applies the entries of the
longest well-formed prefix. Each entry touches the record of its own id only,
and the entries of one id leave a record in closed form. -/

namespace NetworkDiscovery

/-- The entry an element carries: an object with three strings and two values
that `get<int>` accepts. Elements without one are malformed. -/
def Json.asEntry (lib : Nlohmann) (doc : Json) : Option Entry := do
  let members ← doc.members?
  let service ← (members.lookup "service").bind Json.string?
  let serviceId ← (members.lookup "service_id").bind Json.string?
  let heartbeatTimeout ← (members.lookup "heartbeat_timeout").bind (Json.int? lib)
  let lastHeartbeat ← (members.lookup "last_heartbeat").bind (Json.int? lib)
  let metadata ← (members.lookup "metadata").bind Json.string?
  return ⟨service, serviceId, heartbeatTimeout, lastHeartbeat, metadata⟩

def Announces (doc : Json) (e : Entry) : Prop :=
  ∃ members, doc = .object members ∧
    members.lookup "service" = some (.string e.service) ∧
    members.lookup "service_id" = some (.string e.serviceId) ∧
    (members.lookup "heartbeat_timeout").bind Json.integer? = some e.heartbeatTimeout.toInt ∧
    (members.lookup "last_heartbeat").bind Json.integer? = some e.lastHeartbeat.toInt ∧
    members.lookup "metadata" = some (.string e.metadata)

namespace ServiceDiscoveryClient

def wellFormed (lib : Nlohmann) (doc : Json) : Bool := (doc.asEntry lib).isSome

def applied (lib : Nlohmann) (docs : List Json) : List Entry :=
  (docs.takeWhile (wellFormed lib)).filterMap (Json.asEntry lib)

def recordEntry (debug : Bool) (order : Order) (services : Services) (e : Entry) : Services :=
  if services.count e.serviceId > 0 then
    (services.modify e.serviceId fun record => record.updateHeartbeat e.lastHeartbeat).modify
      e.serviceId fun record => record.updateMetadata e.metadata
  else services.emplace order e.serviceId (ServiceDiscoveryRecord.create e.serviceId
    e.service e.heartbeatTimeout e.lastHeartbeat debug)

/-- The same step seen by the record of the entry's id. -/
def recordOne (debug : Bool) : Option ServiceDiscoveryRecord → Entry → Option ServiceDiscoveryRecord
  | some record, e => some ((record.updateHeartbeat e.lastHeartbeat).updateMetadata e.metadata)
  | none, e => some (ServiceDiscoveryRecord.create e.serviceId e.service e.heartbeatTimeout
      e.lastHeartbeat debug)

def servicesAfter (call : Call) (services : Services) : Services :=
  match call.run services with
  | .ok _ left => left
  | .error _ left => left

theorem readEntry_eq (lib : Nlohmann) (doc : Json) :
    readEntry lib doc = match doc.asEntry lib with
      | some e => .ok e
      | none => .error .typeError := by
  cases object : doc.members? with
  | none =>
    simp [readEntry, Json.asEntry, object, Json.stringField_not_object "service" doc object,
      bind, Except.bind]
  | some members =>
    obtain rfl : doc = .object members := by
      cases doc <;> simp_all [Json.members?]
    simp only [readEntry, Json.asEntry, Json.members?, Json.stringField_object, bind, Option.bind_some]
    cases (members.lookup "service").bind Json.string? with
    | none => rfl
    | some service =>
      simp only [Except.bind, Json.stringField_object, Option.bind_some]
      cases (members.lookup "service_id").bind Json.string? with
      | none => rfl
      | some serviceId =>
        simp only [Json.intField_object, Option.bind_some]
        cases (members.lookup "heartbeat_timeout").bind (Json.int? lib) with
        | none => rfl
        | some heartbeatTimeout =>
          simp only [Json.intField_object, Option.bind_some]
          cases (members.lookup "last_heartbeat").bind (Json.int? lib) with
          | none => rfl
          | some lastHeartbeat =>
            simp only [Json.stringField_object, Option.bind_some]
            cases (members.lookup "metadata").bind Json.string? <;> rfl

theorem atRecord_run (services : Services) (id : String)
    (call : ServiceDiscoveryRecord → ServiceDiscoveryRecord)
    (present : (services.find? id).isSome) :
    (atRecord id call).run services = .ok () (services.modify id call) := by
  obtain ⟨record, found⟩ := Option.isSome_iff_exists.mp present
  simp [atRecord, EStateM.run_bind, found]

/-- On a well-formed element the calls of `at` find the id that was counted,
so the body never fails halfway. -/
theorem processEntry_run (lib : Nlohmann) (debug : Bool) (order : Order) (services : Services)
    (doc : Json) :
    (processEntry lib debug order doc).run services = match doc.asEntry lib with
      | some e => .ok () (recordEntry debug order services e)
      | none => .error .typeError services := by
  rw [processEntry, readEntry_eq]
  cases doc.asEntry lib with
  | none => rfl
  | some e =>
    by_cases present : services.count e.serviceId > 0
    · have found := (services.count_pos e.serviceId).mp present
      have still : ((services.modify e.serviceId fun record =>
          record.updateHeartbeat e.lastHeartbeat).find? e.serviceId).isSome := by
        simpa [UnorderedMap.find?_modify] using found
      simp [EStateM.run_bind, recordEntry, present, atRecord_run _ _ _ found,
        atRecord_run _ _ _ still]
    · simp [EStateM.run_bind, recordEntry, present]

theorem applied_cons (lib : Nlohmann) (doc : Json) (rest : List Json) :
    applied lib (doc :: rest) = match doc.asEntry lib with
      | some e => e :: applied lib rest
      | none => [] := by
  cases found : doc.asEntry lib <;> simp [applied, wellFormed, found]

theorem run_caught (call : Call) (services : Services) :
    EStateM.run (tryCatch (do call; return false) fun _ => return true) services =
      match call.run services with
      | .ok _ left => .ok false left
      | .error _ left => .ok true left := by
  show EStateM.tryCatch _ _ services = _
  simp only [EStateM.tryCatch, bind, EStateM.bind, EStateM.run]
  cases call services <;> rfl

theorem processEntries_run (lib : Nlohmann) (debug : Bool) (order : Order) (services : Services)
    (docs : List Json) :
    (processEntries lib debug order docs).run services =
      .ok () ((applied lib docs).foldl (recordEntry debug order) services) := by
  induction docs generalizing services with
  | nil => rfl
  | cons doc rest ih =>
    rw [applied_cons, processEntries, EStateM.run_bind, run_caught, processEntry_run]
    cases doc.asEntry lib with
    | none => rfl
    | some e => exact ih (recordEntry debug order services e)

def messageEntries (lib : Nlohmann) (message : Message) : List Entry :=
  if message.routingkey = "service-answer" then
    match lib.parse message.text with
    | some (.array docs) => applied lib docs
    | _ => []
  else []

theorem processMessage_run (lib : Nlohmann) (debug : Bool) (order : Order) (services : Services)
    (message : Message) :
    (processMessage lib debug order message).run services =
      if message.routingkey = "service-answer" ∧ lib.parse message.text = none then
        .error .parseError services
      else .ok () ((messageEntries lib message).foldl (recordEntry debug order) services) := by
  by_cases route : message.routingkey = "service-answer"
  · cases text : lib.parse message.text with
    | none => simp [processMessage, route, text]
    | some msg =>
      cases msg <;> simp [processMessage, messageEntries, route, text, processEntries_run]
  · simp [processMessage, messageEntries, route]

theorem servicesAfter_processMessage (lib : Nlohmann) (debug : Bool) (order : Order)
    (services : Services) (message : Message) :
    servicesAfter (processMessage lib debug order message) services =
      (messageEntries lib message).foldl (recordEntry debug order) services := by
  rw [servicesAfter, processMessage_run]
  split_ifs with unparsed
  · simp [messageEntries, unparsed]
  · rfl

theorem messageEntries_array (lib : Nlohmann) (message : Message) (docs : List Json)
    (route : message.routingkey = "service-answer")
    (body : lib.parse message.text = some (.array docs)) :
    messageEntries lib message = applied lib docs := by
  simp [messageEntries, route, body]

theorem find?_recordEntry (debug : Bool) (order : Order) (services : Services) (e : Entry)
    (x : String) :
    (recordEntry debug order services e).find? x =
      if e.serviceId = x then recordOne debug (services.find? x) e else services.find? x := by
  by_cases present : services.count e.serviceId > 0
  · obtain ⟨record, found⟩ := Option.isSome_iff_exists.mp ((services.count_pos _).mp present)
    rw [recordEntry, if_pos present, UnorderedMap.find?_modify, UnorderedMap.find?_modify,
      UnorderedMap.find?_modify, if_pos rfl]
    by_cases same : e.serviceId = x
    · subst same
      simp [found, recordOne]
    · simp [same, Ne.symm same]
  · have absent : services.find? e.serviceId = none := by
      simpa [UnorderedMap.count_pos] using present
    rw [recordEntry, if_neg present, UnorderedMap.find?_emplace]
    by_cases same : e.serviceId = x
    · subst same
      simp [absent, recordOne]
    · simp [same, Ne.symm same]

theorem int?_of_integer? (lib : Nlohmann) (value : Json) (t : ℤ)
    (h : value.integer? = some t) : value.int? lib = some (Int32.ofInt t) := by
  cases value with
  | numberInteger v => exact congrArg (some ∘ Int32.ofInt) (Option.some.inj h)
  | numberUnsigned v => exact congrArg (some ∘ Int32.ofInt) (Option.some.inj h)
  | _ => cases h

theorem asEntry_eq_some (lib : Nlohmann) (doc : Json) (e : Entry) :
    doc.asEntry lib = some e ↔ ∃ members, doc = .object members ∧
      (members.lookup "service").bind Json.string? = some e.service ∧
      (members.lookup "service_id").bind Json.string? = some e.serviceId ∧
      (members.lookup "heartbeat_timeout").bind (Json.int? lib) = some e.heartbeatTimeout ∧
      (members.lookup "last_heartbeat").bind (Json.int? lib) = some e.lastHeartbeat ∧
      (members.lookup "metadata").bind Json.string? = some e.metadata := by
  cases doc with
  | object members =>
    obtain ⟨service, serviceId, heartbeatTimeout, lastHeartbeat, metadata⟩ := e
    simp only [Json.asEntry, Json.members?, Option.bind_eq_bind, Option.bind_some,
      Option.pure_def, Json.object.injEq, exists_eq_left']
    generalize (members.lookup "service").bind Json.string? = a
    generalize (members.lookup "service_id").bind Json.string? = b
    generalize (members.lookup "heartbeat_timeout").bind (Json.int? lib) = c
    generalize (members.lookup "last_heartbeat").bind (Json.int? lib) = d
    generalize (members.lookup "metadata").bind Json.string? = f
    cases a <;> cases b <;> cases c <;> cases d <;> cases f <;> simp
  | _ => simp [Json.asEntry, Json.members?]

theorem asEntry_of_announces (lib : Nlohmann) (doc : Json) (e : Entry) (h : Announces doc e) :
    doc.asEntry lib = some e := by
  obtain ⟨members, rfl, service, serviceId, timeout, heartbeat, metadata⟩ := h
  obtain ⟨timeoutValue, timeoutFound, timeout⟩ := Option.bind_eq_some_iff.mp timeout
  obtain ⟨heartbeatValue, heartbeatFound, heartbeat⟩ := Option.bind_eq_some_iff.mp heartbeat
  refine (asEntry_eq_some lib _ e).mpr ⟨members, rfl, ?_⟩
  simp [service, serviceId, timeoutFound, heartbeatFound, metadata, Json.string?,
    int?_of_integer? lib _ _ timeout, int?_of_integer? lib _ _ heartbeat]

theorem applied_of_wellFormed (lib : Nlohmann) (docs : List Json)
    (h : ∀ doc ∈ docs, wellFormed lib doc = true) :
    applied lib docs = docs.filterMap (Json.asEntry lib) := by
  rw [applied, List.takeWhile_eq_self_iff.mpr h]

theorem applied_of_announces (lib : Nlohmann) (docs : List Json) (es : List Entry)
    (h : List.Forall₂ Announces docs es) : applied lib docs = es := by
  induction h with
  | nil => rfl
  | cons head _ ih => rw [applied_cons, asEntry_of_announces lib _ _ head, ih]

theorem applied_append (lib : Nlohmann) (before after : List Json)
    (h : ∀ doc ∈ before, wellFormed lib doc = true) :
    applied lib (before ++ after) = applied lib before ++ applied lib after := by
  rw [applied_of_wellFormed lib before h, applied, List.takeWhile_append_of_pos h,
    List.filterMap_append]
  rfl

theorem mem_applied (lib : Nlohmann) (docs : List Json) (e : Entry) (h : e ∈ applied lib docs) :
    ∃ doc ∈ docs, doc.asEntry lib = some e := by
  obtain ⟨doc, member, carries⟩ := List.mem_filterMap.mp h
  exact ⟨doc, List.takeWhile_subset _ member, carries⟩

theorem servicesAfter_announced (lib : Nlohmann) (debug : Bool) (order : Order)
    (services : Services) (message : Message) (docs : List Json) (es : List Entry)
    (route : message.routingkey = "service-answer")
    (body : lib.parse message.text = some (.array docs))
    (announced : List.Forall₂ Announces docs es) :
    servicesAfter (processMessage lib debug order message) services =
      es.foldl (recordEntry debug order) services := by
  rw [servicesAfter_processMessage, messageEntries_array lib message docs route body,
    applied_of_announces lib docs es announced]

def entriesFor (x : String) (es : List Entry) : List Entry := es.filter fun e => e.serviceId = x

theorem entriesFor_append (x : String) (es es' : List Entry) :
    entriesFor x (es ++ es') = entriesFor x es ++ entriesFor x es' :=
  List.filter_append es es'

theorem entriesFor_eq_nil (x : String) (es : List Entry) :
    entriesFor x es = [] ↔ x ∉ es.map Entry.serviceId := by
  simp [entriesFor, List.filter_eq_nil_iff]

theorem find?_recordAll (debug : Bool) (order : Order) (services : Services) (es : List Entry)
    (x : String) :
    (es.foldl (recordEntry debug order) services).find? x =
      (entriesFor x es).foldl (recordOne debug) (services.find? x) :=
  UnorderedMap.find?_foldl _ Entry.serviceId _ (find?_recordEntry debug order) services es x

/-- What a nonempty run of entries leaves: the fixed members are those of the
record, or of the first entry, and the others are those of the last entry.
The metadata of an entry that creates the record is not stored. -/
theorem foldl_recordOne (debug : Bool) (before : Option ServiceDiscoveryRecord)
    (first last : Entry) (rest : List Entry) (h : (first :: rest).getLast? = some last) :
    (first :: rest).foldl (recordOne debug) before = some
      { serviceType := (before.map (·.serviceType)).getD first.service
        lastHeartbeatSeconds := last.lastHeartbeat.toInt64
        heartbeatTimeout := (before.map (·.heartbeatTimeout)).getD first.heartbeatTimeout
        serviceUid := (before.map (·.serviceUid)).getD first.serviceId
        metadata := if before = none ∧ rest = [] then "" else last.metadata
        metadataJson := none
        debug := (before.map (·.debug)).getD debug } := by
  induction rest generalizing before first with
  | nil =>
    obtain rfl : first = last := Option.some.inj h
    cases before <;> rfl
  | cons second rest ih =>
    rw [List.foldl_cons, ih _ second (by simpa using h)]
    cases before <;>
      simp [recordOne, ServiceDiscoveryRecord.create, ServiceDiscoveryRecord.updateHeartbeat,
        ServiceDiscoveryRecord.updateMetadata]

theorem exists_entriesFor (x : String) (es : List Entry) (h : x ∈ es.map Entry.serviceId) :
    ∃ first rest last, entriesFor x es = first :: rest ∧ (first :: rest).getLast? = some last := by
  obtain ⟨first, rest, split⟩ := List.exists_cons_of_ne_nil fun none =>
    (entriesFor_eq_nil x es).mp none h
  exact ⟨first, rest, _, split, List.getLast?_eq_some_getLast (List.cons_ne_nil first rest)⟩

end ServiceDiscoveryClient

end NetworkDiscovery

import NetworkDiscovery.MessageEffects

/-! What whole arrays do to the registry. A broadcast applies the complete step
of every element before the first malformed one and nothing else. Since a step
touches the record of its own service only, well-formed elements may be cut
into messages and reordered as long as each service keeps its own order. -/

namespace NetworkDiscovery

def Json.castsToInt : Json → Bool
  | .numberInteger _ | .numberUnsigned _ | .numberFloat _ | .boolean _ => true
  | _ => false

/-- An object with three strings, and a number or boolean for each of the times. -/
def WellFormedElement (doc : Json) : Prop :=
  ∃ members, doc = .object members ∧
    (∀ key ∈ ["service", "service_id", "metadata"],
      ∃ text, members.lookup key = some (.string text)) ∧
    ∀ key ∈ ["heartbeat_timeout", "last_heartbeat"],
      ∃ value, members.lookup key = some value ∧ value.castsToInt

def Carries (lib : Nlohmann) (doc : Json) (e : Entry) : Prop :=
  ∃ members, doc = .object members ∧
    (members.lookup "service").bind Json.string? = some e.service ∧
    (members.lookup "service_id").bind Json.string? = some e.serviceId ∧
    (members.lookup "heartbeat_timeout").bind (Json.int? lib) = some e.heartbeatTimeout ∧
    (members.lookup "last_heartbeat").bind (Json.int? lib) = some e.lastHeartbeat ∧
    (members.lookup "metadata").bind Json.string? = some e.metadata

def Json.serviceId? (doc : Json) : Option String :=
  (doc.members?.bind fun members => members.lookup "service_id").bind Json.string?

theorem Json.int?_isSome (lib : Nlohmann) (value : Json) :
    (value.int? lib).isSome = value.castsToInt := by
  cases value <;> rfl

theorem Json.string?_eq_some (value : Json) (text : String) :
    value.string? = some text ↔ value = .string text := by
  cases value <;> simp [Json.string?]

namespace ServiceDiscoveryClient
open List (Forall₂)

theorem lookup_string (members : List (String × Json)) (key : String) :
    ((members.lookup key).bind Json.string?).isSome ↔
      ∃ text, members.lookup key = some (.string text) := by
  simp only [Option.isSome_iff_exists, Option.bind_eq_some_iff, Json.string?_eq_some]
  constructor
  · rintro ⟨text, _, found, rfl⟩
    exact ⟨text, found⟩
  · rintro ⟨text, found⟩
    exact ⟨text, _, found, rfl⟩

theorem lookup_int (lib : Nlohmann) (members : List (String × Json)) (key : String) :
    ((members.lookup key).bind (Json.int? lib)).isSome ↔
      ∃ value, members.lookup key = some value ∧ value.castsToInt := by
  cases found : members.lookup key with
  | none => simp
  | some value => simp [Json.int?_isSome]

theorem carries_iff (lib : Nlohmann) (doc : Json) (e : Entry) :
    Carries lib doc e ↔ doc.asEntry lib = some e :=
  (asEntry_eq_some lib doc e).symm

theorem wellFormed_iff (lib : Nlohmann) (doc : Json) :
    wellFormed lib doc = true ↔ WellFormedElement doc := by
  rw [wellFormed, Option.isSome_iff_exists, WellFormedElement]
  constructor
  · rintro ⟨e, carries⟩
    obtain ⟨members, object, service, serviceId, timeout, heartbeat, metadata⟩ :=
      (asEntry_eq_some lib doc e).mp carries
    refine ⟨members, object, ?_, ?_⟩
    · simp only [List.forall_mem_cons, List.not_mem_nil, ← lookup_string]
      simp [service, serviceId, metadata]
    · simp only [List.forall_mem_cons, List.not_mem_nil, ← lookup_int lib]
      simp [timeout, heartbeat]
  · rintro ⟨members, object, strings, times⟩
    simp only [List.forall_mem_cons, List.not_mem_nil, ← lookup_string,
      Option.isSome_iff_exists] at strings
    simp only [List.forall_mem_cons, List.not_mem_nil, ← lookup_int lib,
      Option.isSome_iff_exists] at times
    obtain ⟨⟨service, foundService⟩, ⟨serviceId, foundId⟩, ⟨metadata, foundMetadata⟩, -⟩ := strings
    obtain ⟨⟨timeout, foundTimeout⟩, ⟨heartbeat, foundHeartbeat⟩, -⟩ := times
    refine ⟨⟨service, serviceId, timeout, heartbeat, metadata⟩, ?_⟩
    exact (asEntry_eq_some lib doc _).mpr ⟨members, object, foundService, foundId, foundTimeout,
      foundHeartbeat, foundMetadata⟩

theorem processEntry_malformed (lib : Nlohmann) (debug : Bool) (order : Order) (doc : Json)
    (malformed : ¬ WellFormedElement doc) (services : Services) :
    (processEntry lib debug order doc).run services = .error .typeError services := by
  rw [← wellFormed_iff lib, wellFormed, Option.not_isSome_iff_eq_none] at malformed
  rw [processEntry_run, malformed]

theorem exists_leading (lib : Nlohmann) (docs : List Json) :
    ∃ before after, docs = before ++ after ∧ (∀ doc ∈ before, WellFormedElement doc) ∧
      (∀ doc ∈ after.head?, ¬ WellFormedElement doc) ∧
      Forall₂ (Carries lib) before (applied lib docs) := by
  induction docs with
  | nil => exact ⟨[], [], rfl, by simp, by simp, .nil⟩
  | cons doc rest ih =>
    rw [applied_cons]
    cases found : doc.asEntry lib with
    | none =>
      have malformed : ¬ WellFormedElement doc := by
        rw [← wellFormed_iff lib, wellFormed, found]
        exact Bool.false_ne_true
      exact ⟨[], doc :: rest, rfl, by simp, by simpa using malformed, .nil⟩
    | some e =>
      obtain ⟨before, after, split, good, bad, carried⟩ := ih
      have well : WellFormedElement doc := by
        rw [← wellFormed_iff lib, wellFormed, found]
        rfl
      refine ⟨doc :: before, after, by rw [split]; rfl, ?_, bad, ?_⟩
      · exact List.forall_mem_cons.mpr ⟨well, good⟩
      · exact .cons ((carries_iff lib doc e).mpr found) carried

def AppliesPrefix (lib : Nlohmann) (debug : Bool) (order : Order) (services : Services)
    (message : Message) (docs : List Json) : Prop :=
  ∃ before after es, docs = before ++ after ∧ (∀ doc ∈ before, WellFormedElement doc) ∧
    (∀ doc ∈ after.head?, ¬ WellFormedElement doc) ∧ Forall₂ (Carries lib) before es ∧
    (processMessage lib debug order message).run services =
      .ok () (es.foldl (recordEntry debug order) services) ∧
    ∀ x, (es.foldl (recordEntry debug order) services).find? x =
      (entriesFor x es).foldl (recordOne debug) (services.find? x)

def Broadcasts (lib : Nlohmann) (message : Message) (docs : List Json) : Prop :=
  message.routingkey = "service-answer" ∧ lib.parse message.text = some (.array docs)

/-- A permutation under which the elements of each service keep their order. -/
def Rearranges (docs docs' : List Json) : Prop :=
  docs.Perm docs' ∧ ∀ x, docs.filter (fun doc => doc.serviceId? = some x) =
    docs'.filter fun doc => doc.serviceId? = some x

def SameRecords (a b : Services) : Prop := ∀ x, a.find? x = b.find? x

/-- Messages one after the other, each with its own effect on the iteration order. -/
def deliver (lib : Nlohmann) (debug : Bool) (services : Services)
    (deliveries : List (Order × Message)) : Services :=
  deliveries.foldl (fun services d =>
    servicesAfter (processMessage lib debug d.1 d.2) services) services

theorem serviceId?_of_asEntry (lib : Nlohmann) (doc : Json) (e : Entry)
    (h : doc.asEntry lib = some e) : doc.serviceId? = some e.serviceId := by
  obtain ⟨members, rfl, _, found, _⟩ := (asEntry_eq_some lib doc e).mp h
  exact found

theorem entriesFor_filterMap (lib : Nlohmann) (x : String) (docs : List Json) :
    entriesFor x (docs.filterMap (Json.asEntry lib)) =
      (docs.filter fun doc => doc.serviceId? = some x).filterMap (Json.asEntry lib) := by
  induction docs with
  | nil => rfl
  | cons doc rest ih =>
    cases found : doc.asEntry lib with
    | none =>
      rw [List.filterMap_cons_none found, ih]
      by_cases here : doc.serviceId? = some x <;> simp [here, found]
    | some e =>
      have announced := serviceId?_of_asEntry lib doc e found
      rw [List.filterMap_cons_some found, List.filter_cons]
      by_cases here : e.serviceId = x
      · have kept : entriesFor x (e :: rest.filterMap (Json.asEntry lib)) =
            e :: entriesFor x (rest.filterMap (Json.asEntry lib)) := by
          simp [entriesFor, here]
        rw [kept, ih, announced, if_pos (by simpa using here), List.filterMap_cons_some found]
      · have skipped : entriesFor x (e :: rest.filterMap (Json.asEntry lib)) =
            entriesFor x (rest.filterMap (Json.asEntry lib)) := by
          simp [entriesFor, here]
        rw [skipped, ih, announced, if_neg (by simpa using here)]

theorem find?_broadcast (lib : Nlohmann) (debug : Bool) (order : Order) (services : Services)
    (message : Message) (docs : List Json) (broadcasts : Broadcasts lib message docs)
    (well : ∀ doc ∈ docs, WellFormedElement doc) (x : String) :
    (servicesAfter (processMessage lib debug order message) services).find? x =
      ((docs.filter fun doc => doc.serviceId? = some x).filterMap (Json.asEntry lib)).foldl
        (recordOne debug) (services.find? x) := by
  have applies : ∀ doc ∈ docs, wellFormed lib doc = true :=
    fun doc member => (wellFormed_iff lib doc).mpr (well doc member)
  rw [servicesAfter_processMessage, messageEntries_array lib message docs broadcasts.1 broadcasts.2,
    find?_recordAll, applied_of_wellFormed lib docs applies, entriesFor_filterMap]

theorem find?_deliver (lib : Nlohmann) (debug : Bool) (deliveries : List (Order × Message))
    (arrays : List (List Json))
    (broadcasts : Forall₂ (fun d docs => Broadcasts lib d.2 docs) deliveries arrays)
    (well : ∀ doc ∈ arrays.flatten, WellFormedElement doc) (services : Services) (x : String) :
    (deliver lib debug services deliveries).find? x =
      ((arrays.flatten.filter fun doc => doc.serviceId? = some x).filterMap
        (Json.asEntry lib)).foldl (recordOne debug) (services.find? x) := by
  induction broadcasts generalizing services with
  | nil => rfl
  | @cons d docs deliveries arrays head _ ih =>
    rw [List.flatten_cons, List.forall_mem_append] at well
    have first := find?_broadcast lib debug d.1 services d.2 docs head well.1 x
    rw [deliver, List.foldl_cons, ← deliver, ih well.2, first, List.flatten_cons,
      List.filter_append, List.filterMap_append, List.foldl_append]

theorem deliver_rearranged (lib : Nlohmann) (debug : Bool) (services : Services)
    (deliveries deliveries' : List (Order × Message)) (arrays arrays' : List (List Json))
    (broadcasts : Forall₂ (fun d docs => Broadcasts lib d.2 docs) deliveries arrays)
    (broadcasts' : Forall₂ (fun d docs => Broadcasts lib d.2 docs) deliveries' arrays')
    (well : ∀ doc ∈ arrays.flatten, WellFormedElement doc)
    (rearranged : Rearranges arrays.flatten arrays'.flatten) :
    SameRecords (deliver lib debug services deliveries)
      (deliver lib debug services deliveries') := by
  intro x
  have well' : ∀ doc ∈ arrays'.flatten, WellFormedElement doc :=
    fun doc member => well doc (rearranged.1.mem_iff.mpr member)
  rw [find?_deliver lib debug deliveries arrays broadcasts well,
    find?_deliver lib debug deliveries' arrays' broadcasts' well', rearranged.2 x]

theorem rearranges_swap (a b : List Json)
    (disjoint : ∀ doc ∈ a, ∀ other ∈ b, doc.serviceId? ≠ other.serviceId?) :
    Rearranges (a ++ b) (b ++ a) := by
  refine ⟨List.perm_append_comm, fun x => ?_⟩
  rw [List.filter_append, List.filter_append]
  by_cases inA : ∃ doc ∈ a, doc.serviceId? = some x
  · obtain ⟨doc, member, announced⟩ := inA
    have none : b.filter (fun other => other.serviceId? = some x) = [] := by
      rw [List.filter_eq_nil_iff]
      intro other inB
      simpa [announced] using (disjoint doc member other inB).symm
    rw [none, List.append_nil, List.nil_append]
  · have none : a.filter (fun doc => doc.serviceId? = some x) = [] := by
      rw [List.filter_eq_nil_iff]
      intro doc member
      simpa using fun announced => inA ⟨doc, member, announced⟩
    rw [none, List.append_nil, List.nil_append]

/-- The registry does not depend on the order of the services in an array, on
how the array is cut into messages, or on the order of two messages that name
different services. -/
theorem delivery_order (lib : Nlohmann) (debug : Bool) (services : Services) :
    (∀ order order' message message' docs docs', Broadcasts lib message docs →
      Broadcasts lib message' docs' → (∀ doc ∈ docs, WellFormedElement doc) →
      Rearranges docs docs' →
      SameRecords (servicesAfter (processMessage lib debug order message) services)
        (servicesAfter (processMessage lib debug order' message') services)) ∧
    (∀ order message docs deliveries pieces, Broadcasts lib message docs →
      Forall₂ (fun d docs => Broadcasts lib d.2 docs) deliveries pieces →
      (∀ doc ∈ docs, WellFormedElement doc) → pieces.flatten = docs →
      SameRecords (servicesAfter (processMessage lib debug order message) services)
        (deliver lib debug services deliveries)) ∧
    ∀ a b docsA docsB, Broadcasts lib a.2 docsA → Broadcasts lib b.2 docsB →
      (∀ doc ∈ docsA ++ docsB, WellFormedElement doc) →
      (∀ doc ∈ docsA, ∀ other ∈ docsB, doc.serviceId? ≠ other.serviceId?) →
      SameRecords (deliver lib debug services [a, b]) (deliver lib debug services [b, a]) := by
  refine ⟨?_, ?_, ?_⟩
  · intro order order' message message' docs docs' broadcasts broadcasts' well rearranged
    exact deliver_rearranged lib debug services [(order, message)] [(order', message')] [docs]
      [docs'] (.cons broadcasts .nil) (.cons broadcasts' .nil) (by simpa using well)
      (by simpa using rearranged)
  · intro order message docs deliveries pieces broadcasts cut well whole
    have kept : Rearranges [docs].flatten pieces.flatten := by
      rw [whole, List.flatten_singleton]
      exact ⟨.refl docs, fun _ => rfl⟩
    exact deliver_rearranged lib debug services [(order, message)] deliveries [docs] pieces
      (.cons broadcasts .nil) cut (by simpa using well) kept
  · intro a b docsA docsB broadcastsA broadcastsB well disjoint
    have swapped : Rearranges [docsA, docsB].flatten [docsB, docsA].flatten := by
      simpa using rearranges_swap docsA docsB disjoint
    exact deliver_rearranged lib debug services [a, b] [b, a] [docsA, docsB] [docsB, docsA]
      (.cons broadcastsA (.cons broadcastsB .nil)) (.cons broadcastsB (.cons broadcastsA .nil))
      (by simpa using well) swapped

end ServiceDiscoveryClient

end NetworkDiscovery

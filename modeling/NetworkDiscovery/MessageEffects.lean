import NetworkDiscovery.EntryRecording

/-! Exactly when a message does what its sender may expect: that announced
metadata is stored, that the call returns, that a malformed element harms no
other service, and that the announced time survives. Each answer is an
equivalence with a condition on the message and the registry before it. -/

namespace NetworkDiscovery

def Message.answer (text : String) : Message :=
  ⟨"service-answer", text.toList.map fun c => UInt8.ofNat c.toNat⟩

def Nlohmann.reading (table : List (Message × Json)) : Nlohmann where
  parse text := (table.find? fun row => row.1.text = text).map Prod.snd
  dump _ _ := none
  castOutOfRange _ := -2147483648

namespace ServiceDiscoveryClient

/-! ### Announced metadata -/

def MetadataRecorded (es : List Entry) (before after : Services) : Prop :=
  (∀ x ∈ es.map Entry.serviceId, ∃ record, after.find? x = some record ∧
    (entriesFor x es).getLast?.map Entry.metadata = some record.getMetadata) ∧
  ∀ x ∉ es.map Entry.serviceId, after.find? x = before.find? x

theorem recordAll_unannounced (debug : Bool) (order : Order) (services : Services)
    (es : List Entry) (x : String) (h : x ∉ es.map Entry.serviceId) :
    (es.foldl (recordEntry debug order) services).find? x = services.find? x := by
  rw [find?_recordAll, (entriesFor_eq_nil x es).mpr h]
  rfl

theorem metadata_recordAll (debug : Bool) (order : Order) (services : Services)
    (es : List Entry) (x : String) (h : x ∈ es.map Entry.serviceId) :
    (∃ record, (es.foldl (recordEntry debug order) services).find? x = some record ∧
      (entriesFor x es).getLast?.map Entry.metadata = some record.getMetadata) ↔
    (services.find? x).isSome ∨ 2 ≤ (entriesFor x es).length ∨
      (entriesFor x es).getLast?.map Entry.metadata = some "" := by
  obtain ⟨first, rest, last, split, final⟩ := exists_entriesFor x es h
  rw [find?_recordAll, split, foldl_recordOne debug _ first last rest final, final]
  cases services.find? x with
  | some record => simp [ServiceDiscoveryRecord.getMetadata]
  | none =>
    cases rest with
    | nil =>
      obtain rfl : first = last := Option.some.inj final
      simp [ServiceDiscoveryRecord.getMetadata]
    | cons second rest => simp [ServiceDiscoveryRecord.getMetadata]

theorem processMessage_metadata_iff (lib : Nlohmann) (debug : Bool) (order : Order)
    (services : Services) (message : Message) (docs : List Json) (es : List Entry)
    (route : message.routingkey = "service-answer")
    (body : lib.parse message.text = some (.array docs))
    (announced : List.Forall₂ Announces docs es) :
    MetadataRecorded es services
        (servicesAfter (processMessage lib debug order message) services) ↔
      ∀ x ∈ es.map Entry.serviceId, (services.find? x).isSome ∨
        2 ≤ (entriesFor x es).length ∨
        (entriesFor x es).getLast?.map Entry.metadata = some "" := by
  rw [servicesAfter_announced lib debug order services message docs es route body announced,
    MetadataRecorded, and_iff_left fun x h => recordAll_unannounced debug order services es x h]
  exact forall₂_congr fun x h => metadata_recordAll debug order services es x h

def sampleEntry (metadata : String) : Entry := ⟨"A", "a", 120, 1000, metadata⟩

def sampleDoc (metadata : String) : Json := .object
  [("heartbeat_timeout", .numberUnsigned 120), ("last_heartbeat", .numberUnsigned 1000),
    ("metadata", .string metadata), ("service", .string "A"), ("service_id", .string "a")]

theorem sampleDoc_announces (metadata : String) :
    Announces (sampleDoc metadata) (sampleEntry metadata) :=
  ⟨_, rfl, rfl, rfl, rfl, rfl, rfl⟩

def sampleText : String := "\x7b\"service\":\"A\",\"service_id\":\"a\",\"heartbeat_timeout\":120,\"last_heartbeat\":1000,\"metadata\":\"up\"\x7d"

def sampleAnswer : Message := .answer ("[" ++ sampleText ++ "]")

def sampleBefore : Message := .answer ("[null," ++ sampleText ++ "]")

def sampleBehind : Message := .answer ("[" ++ sampleText ++ ",null ]")

def sampleLib : Nlohmann := .reading
  [(sampleAnswer, .array [sampleDoc "up"]), (sampleBefore, .array [.null, sampleDoc "up"]),
    (sampleBehind, .array [sampleDoc "up", .null])]

theorem answer_text_length (text : String) : (Message.answer text).text.length = text.length := by
  simp [Message.answer, Message.text, String.length_toList]

theorem answer_text_ne (a b : String) (h : a.length ≠ b.length) :
    (Message.answer a).text ≠ (Message.answer b).text := by
  intro same
  have lengths := congrArg String.length same
  rw [answer_text_length, answer_text_length] at lengths
  exact h lengths

theorem sampleLengths : sampleAnswer.text ≠ sampleBefore.text ∧
    sampleAnswer.text ≠ sampleBehind.text ∧ sampleBefore.text ≠ sampleBehind.text := by
  have brackets : "[".length = 1 ∧ "]".length = 1 := by decide
  have nulls : "[null,".length = 6 ∧ ",null ]".length = 7 := by decide
  refine ⟨answer_text_ne _ _ ?_, answer_text_ne _ _ ?_, answer_text_ne _ _ ?_⟩ <;>
    simp only [String.length_append] <;> omega

theorem sampleLib_answer : sampleLib.parse sampleAnswer.text = some (.array [sampleDoc "up"]) := by
  simp [sampleLib, Nlohmann.reading]

theorem sampleLib_before :
    sampleLib.parse sampleBefore.text = some (.array [.null, sampleDoc "up"]) := by
  simp [sampleLib, Nlohmann.reading, sampleLengths]

theorem sampleLib_behind :
    sampleLib.parse sampleBehind.text = some (.array [sampleDoc "up", .null]) := by
  simp [sampleLib, Nlohmann.reading, sampleLengths]

def sampleServices : Services :=
  UnorderedMap.empty.emplace .atEnd "a" (ServiceDiscoveryRecord.create "a" "A" 120 990 false)

theorem processMessage_metadata_registered :
    MetadataRecorded [sampleEntry "up"] sampleServices
      (servicesAfter (processMessage sampleLib false .atEnd sampleAnswer) sampleServices) :=
  (processMessage_metadata_iff sampleLib false .atEnd sampleServices sampleAnswer
    [sampleDoc "up"] [sampleEntry "up"] rfl sampleLib_answer
    (.cons (sampleDoc_announces "up") .nil)).mpr (by decide)

theorem processMessage_metadata_lost :
    ¬ MetadataRecorded [sampleEntry "up"] .empty
      (servicesAfter (processMessage sampleLib false .atEnd sampleAnswer) .empty) := by
  rw [servicesAfter_announced sampleLib false .atEnd _ sampleAnswer _ _ rfl sampleLib_answer
    (.cons (sampleDoc_announces "up") .nil)]
  intro recorded
  have kept := (metadata_recordAll false .atEnd .empty [sampleEntry "up"] "a" (by decide)).mp
    (recorded.1 "a" (by decide))
  revert kept
  decide

/-! ### Return from the callback -/

def ReturnsSafely (lib : Nlohmann) (debug : Bool) (order : Order) (services : Services)
    (message : Message) : Prop :=
  (∃ left, (processMessage lib debug order message).run services = .ok () left) ∧
  ((∀ docs, lib.parse message.text ≠ some (.array docs)) →
    servicesAfter (processMessage lib debug order message) services = services)

theorem messageEntries_not_array (lib : Nlohmann) (message : Message)
    (h : ∀ docs, lib.parse message.text ≠ some (.array docs)) :
    messageEntries lib message = [] := by
  unfold messageEntries
  split_ifs
  · split
    · exact absurd ‹_› (h _)
    · rfl
  · rfl

/-- The only exception that leaves the call is the one of `parse`, which
stands before the handler. -/
theorem processMessage_returns_iff (lib : Nlohmann) (debug : Bool) (order : Order)
    (services : Services) (message : Message) :
    ReturnsSafely lib debug order services message ↔
      (message.routingkey = "service-answer" → (lib.parse message.text).isSome) := by
  have unchanged : (∀ docs, lib.parse message.text ≠ some (.array docs)) →
      servicesAfter (processMessage lib debug order message) services = services := by
    intro h
    rw [servicesAfter_processMessage, messageEntries_not_array lib message h]
    rfl
  rw [ReturnsSafely, and_iff_left unchanged, processMessage_run]
  split_ifs with unparsed
  · simp [unparsed]
  · have parsed : message.routingkey = "service-answer" → (lib.parse message.text).isSome :=
      fun route => Option.isSome_iff_ne_none.mpr fun none => unparsed ⟨route, none⟩
    exact iff_of_true ⟨_, rfl⟩ parsed

theorem processMessage_throws :
    ¬ ReturnsSafely ⟨fun _ => none, fun _ _ => none, fun _ => 0⟩ false .atEnd .empty
      (.answer "not json") := by
  rintro ⟨⟨left, returned⟩, -⟩
  rw [processMessage_run, if_pos ⟨rfl, rfl⟩] at returned
  cases returned

/-! ### Malformed elements between the others -/

def dropped (lib : Nlohmann) (docs : List Json) : List Entry :=
  (docs.dropWhile (wellFormed lib)).filterMap (Json.asEntry lib)

/-- Every dropped entry repeats what was applied: its id was announced before
the malformed element, last with the heartbeat and metadata that are dropped,
and more than once unless that metadata is empty. -/
def DroppedRepeats (lib : Nlohmann) (docs : List Json) : Prop :=
  ∀ x ∈ (dropped lib docs).map Entry.serviceId,
    ∃ a ∈ (entriesFor x (applied lib docs)).getLast?,
      ∃ b ∈ (entriesFor x (dropped lib docs)).getLast?,
        a.lastHeartbeat = b.lastHeartbeat ∧ a.metadata = b.metadata ∧
          (2 ≤ (entriesFor x (applied lib docs)).length ∨ b.metadata = "")

theorem applied_append_dropped (lib : Nlohmann) (docs : List Json) :
    applied lib docs ++ dropped lib docs = docs.filterMap (Json.asEntry lib) := by
  rw [applied, dropped, ← List.filterMap_append, List.takeWhile_append_dropWhile]

theorem applied_filter_wellFormed (lib : Nlohmann) (docs : List Json) :
    applied lib (docs.filter (wellFormed lib)) = docs.filterMap (Json.asEntry lib) := by
  rw [applied_of_wellFormed lib _ fun doc member => (List.mem_filter.mp member).2,
    List.filterMap_filter]
  refine List.filterMap_congr fun doc _ => ?_
  cases found : doc.asEntry lib <;> simp [wellFormed, found]

theorem exists_services_find? (x : String) (record : Option ServiceDiscoveryRecord) :
    ∃ services : Services, services.find? x = record := by
  cases record with
  | none => exact ⟨.empty, rfl⟩
  | some record =>
    refine ⟨UnorderedMap.empty.emplace .atEnd x record, ?_⟩
    rw [UnorderedMap.find?_emplace, if_pos rfl]
    rfl

theorem foldl_recordOne_append_iff (debug : Bool) (first second a b : Entry)
    (rest more : List Entry) (lastA : (first :: rest).getLast? = some a)
    (lastB : (second :: more).getLast? = some b) :
    (∀ before, (first :: rest).foldl (recordOne debug) before =
      (first :: rest ++ second :: more).foldl (recordOne debug) before) ↔
    a.lastHeartbeat = b.lastHeartbeat ∧ a.metadata = b.metadata ∧
      (2 ≤ (first :: rest).length ∨ b.metadata = "") := by
  have lastAll : (first :: (rest ++ second :: more)).getLast? = some b := by
    rw [← List.cons_append, List.getLast?_append, lastB]
    rfl
  have closed (before : Option ServiceDiscoveryRecord) :=
    foldl_recordOne debug before first a rest lastA
  have closedAll (before : Option ServiceDiscoveryRecord) :=
    foldl_recordOne debug before first b (rest ++ second :: more) lastAll
  simp only [List.cons_append, closed, closedAll]
  constructor
  · intro same
    have unregistered := congrArg ServiceDiscoveryRecord.metadata (Option.some.inj (same none))
    have registered :=
      Option.some.inj (same (some (ServiceDiscoveryRecord.create "" "" 0 0 debug)))
    have heartbeat : a.lastHeartbeat.toInt64 = b.lastHeartbeat.toInt64 :=
      congrArg ServiceDiscoveryRecord.lastHeartbeatSeconds registered
    have metadata : a.metadata = b.metadata := by
      simpa using congrArg ServiceDiscoveryRecord.metadata registered
    refine ⟨ServiceDiscoveryRecord.toInt64_inj heartbeat, metadata, ?_⟩
    cases rest with
    | nil => exact .inr (by simpa using unregistered.symm)
    | cons third rest => exact .inl (by simp)
  · intro repeated before
    obtain ⟨heartbeat, metadata, often⟩ := repeated
    rw [heartbeat, metadata]
    cases rest with
    | nil =>
      have empty : b.metadata = "" := by simpa using often
      simp [empty]
    | cons third rest => simp

def SameEffect (lib : Nlohmann) (debug : Bool) (order : Order) (a b : Message) : Prop :=
  ∀ services x, (servicesAfter (processMessage lib debug order a) services).find? x =
    (servicesAfter (processMessage lib debug order b) services).find? x

/-- The array has the effect of its well-formed elements alone exactly when the
entries behind a malformed element add nothing. -/
theorem processMessage_isolates_iff (lib : Nlohmann) (debug : Bool) (order : Order)
    (message healthy : Message) (docs : List Json)
    (route : message.routingkey = "service-answer")
    (body : lib.parse message.text = some (.array docs))
    (healthyRoute : healthy.routingkey = "service-answer")
    (healthyBody : lib.parse healthy.text = some (.array (docs.filter (wellFormed lib)))) :
    SameEffect lib debug order message healthy ↔ DroppedRepeats lib docs := by
  simp only [SameEffect, servicesAfter_processMessage, messageEntries_array lib message docs route body,
    messageEntries_array lib healthy _ healthyRoute healthyBody, applied_filter_wellFormed,
    ← applied_append_dropped, find?_recordAll, entriesFor_append]
  constructor
  · intro same x announced
    obtain ⟨second, more, b, splitB, lastB⟩ := exists_entriesFor x (dropped lib docs) announced
    have every : ∀ before, (entriesFor x (applied lib docs)).foldl (recordOne debug) before =
        (entriesFor x (applied lib docs) ++ second :: more).foldl (recordOne debug) before := by
      intro before
      obtain ⟨services, found⟩ := exists_services_find? x before
      rw [← splitB, ← found]
      exact same services x
    cases splitA : entriesFor x (applied lib docs) with
    | nil =>
      have absent := every none
      rw [splitA, List.nil_append, foldl_recordOne debug none second b more lastB] at absent
      cases absent
    | cons first rest =>
      rw [splitA] at every
      have lastA := List.getLast?_eq_some_getLast (List.cons_ne_nil first rest)
      refine ⟨_, lastA, b, by rw [splitB]; exact lastB, ?_⟩
      exact (foldl_recordOne_append_iff debug first second _ b rest more lastA lastB).mp every
  · intro repeats services x
    by_cases announced : x ∈ (dropped lib docs).map Entry.serviceId
    · obtain ⟨a, lastA, b, lastB, repeated⟩ := repeats x announced
      obtain ⟨second, more, splitB⟩ :=
        List.exists_cons_of_ne_nil (List.ne_nil_of_mem (List.mem_of_getLast? lastB))
      obtain ⟨first, rest, splitA⟩ :=
        List.exists_cons_of_ne_nil (List.ne_nil_of_mem (List.mem_of_getLast? lastA))
      rw [splitA] at lastA repeated ⊢
      rw [splitB] at lastB ⊢
      exact (foldl_recordOne_append_iff debug first second a b rest more lastA lastB).mpr repeated _
    · rw [(entriesFor_eq_nil x _).mpr announced, List.append_nil]

theorem processMessage_isolates_behind :
    SameEffect sampleLib false .atEnd sampleBehind sampleAnswer :=
  (processMessage_isolates_iff sampleLib false .atEnd sampleBehind sampleAnswer
    [sampleDoc "up", .null] rfl sampleLib_behind rfl sampleLib_answer).mpr
    fun _ announced => nomatch announced

theorem processMessage_dropped :
    ¬ SameEffect sampleLib false .atEnd sampleBefore sampleAnswer := by
  intro same
  have stored := same .empty "a"
  rw [servicesAfter_announced sampleLib false .atEnd _ sampleAnswer _ _ rfl sampleLib_answer
      (.cons (sampleDoc_announces "up") .nil), servicesAfter_processMessage,
    messageEntries_array sampleLib sampleBefore _ rfl sampleLib_before, applied_cons] at stored
  have found : (([sampleEntry "up"].foldl (recordEntry false .atEnd) .empty).find? "a").isSome := by
    decide
  rw [← stored] at found
  cases found

/-! ### Announced time -/

theorem entriesFor_last (lib : Nlohmann) (before after : List Json) (doc : Json) (e : Entry)
    (wellBefore : ∀ d ∈ before, wellFormed lib d = true) (carries : doc.asEntry lib = some e)
    (last : ∀ d ∈ after, ∀ e', d.asEntry lib = some e' → e'.serviceId ≠ e.serviceId) :
    (entriesFor e.serviceId (applied lib (before ++ doc :: after))).getLast? = some e := by
  have others : (applied lib after).filter (fun e' => e'.serviceId = e.serviceId) = [] := by
    rw [List.filter_eq_nil_iff]
    intro e' member
    obtain ⟨d, inside, carried⟩ := mem_applied lib after e' member
    simpa using last d inside e' carried
  rw [applied_append lib before _ wellBefore, applied_cons, carries, entriesFor_append]
  simp [entriesFor, others]

theorem lastHeartbeat_recordAll (debug : Bool) (order : Order) (services : Services)
    (es : List Entry) (last : Entry)
    (final : (entriesFor last.serviceId es).getLast? = some last) :
    ∃ record, (es.foldl (recordEntry debug order) services).find? last.serviceId = some record ∧
      record.lastHeartbeat = last.lastHeartbeat.toInt64 := by
  obtain ⟨first, rest, split⟩ :=
    List.exists_cons_of_ne_nil (List.ne_nil_of_mem (List.mem_of_getLast? final))
  rw [find?_recordAll, split, foldl_recordOne debug _ first last rest (split ▸ final)]
  exact ⟨_, rfl, rfl⟩

/-- The record tells the announced time and expires by it, at every clock
reading of `n` whole seconds that the 64-bit clock has. -/
def KeepsTime (record : ServiceDiscoveryRecord) (t : ℤ) : Prop :=
  record.lastHeartbeat.toInt = t ∧
  ∀ n : ℤ, t ≤ n → n * 1000000000 < 2 ^ 63 →
    (record.isExpired (Int64.ofInt (n * 1000000000)) = true ↔
      record.getHeartbeatTimeout.toInt < n - t)

theorem keepsTime_iff (record : ServiceDiscoveryRecord) (t : ℤ) (nonneg : 0 ≤ t)
    (h : record.lastHeartbeat = (Int32.ofInt t).toInt64) : KeepsTime record t ↔ t < 2 ^ 31 := by
  have stored : record.lastHeartbeat.toInt = (Int32.ofInt t).toInt := by
    rw [h, Int32.toInt_toInt64]
  constructor
  · intro keeps
    have high := Int32.toInt_lt (Int32.ofInt t)
    have same := keeps.1
    omega
  · intro small
    have exact : record.lastHeartbeat.toInt = t := by
      rw [stored, Int32.toInt_ofInt]
      exact Int.bmod_eq_of_le (by simp [Int32.size]; omega) (by simp [Int32.size]; omega)
    refine ⟨exact, fun n later fits => ?_⟩
    have clock : (Int64.ofInt (n * 1000000000)).toInt = n * 1000000000 := by
      rw [Int64.toInt_ofInt]
      exact Int.bmod_eq_of_le (by simp [Int64.size]; omega) (by simp [Int64.size]; omega)
    rw [ServiceDiscoveryRecord.isExpired_iff record _ (by rw [exact]; omega)
      (by rw [exact, clock]; omega), exact, clock, ServiceDiscoveryRecord.Overdue, ← Int.sub_mul,
      Int.mul_tdiv_cancel _ (by decide)]
    rfl

theorem processMessage_keepsTime_iff (lib : Nlohmann) (debug : Bool) (order : Order)
    (services : Services) (message : Message) (before after : List Json)
    (members : List (String × Json)) (e : Entry) (t : ℤ)
    (route : message.routingkey = "service-answer")
    (body : lib.parse message.text = some (.array (before ++ .object members :: after)))
    (wellBefore : ∀ d ∈ before, wellFormed lib d = true)
    (carries : (Json.object members).asEntry lib = some e)
    (timestamp : (members.lookup "last_heartbeat").bind Json.integer? = some t)
    (last : ∀ d ∈ after, ∀ e', d.asEntry lib = some e' → e'.serviceId ≠ e.serviceId)
    (range : 0 ≤ t ∧ t < 2 ^ 33) :
    (∃ record, (servicesAfter (processMessage lib debug order message) services).find?
        e.serviceId = some record ∧ KeepsTime record t) ↔ t < 2 ^ 31 := by
  rw [servicesAfter_processMessage, messageEntries_array lib message _ route body]
  obtain ⟨record, found, heartbeat⟩ := lastHeartbeat_recordAll debug order services _ e
    (entriesFor_last lib before after _ e wellBefore carries last)
  have read : e.lastHeartbeat = Int32.ofInt t := by
    obtain ⟨_, same, _, _, _, announced, _⟩ := (asEntry_eq_some lib _ e).mp carries
    obtain ⟨value, present, integer⟩ := Option.bind_eq_some_iff.mp timestamp
    rw [← Json.object.inj same, present, Option.bind_some,
      int?_of_integer? lib value t integer] at announced
    exact (Option.some.inj announced).symm
  rw [found, ← keepsTime_iff record t range.1 (read ▸ heartbeat)]
  simp

theorem processMessage_keepsTime_now :
    ∃ record, (servicesAfter (processMessage sampleLib false .atEnd sampleAnswer) .empty).find?
      "a" = some record ∧ KeepsTime record 1000 :=
  (processMessage_keepsTime_iff sampleLib false .atEnd .empty sampleAnswer [] [] _
    (sampleEntry "up") 1000 rfl sampleLib_answer (fun _ member => nomatch member)
    (asEntry_of_announces _ _ _ (sampleDoc_announces "up")) rfl (fun _ member => nomatch member)
    (by decide)).mpr (by decide)

/-- The first second that does not fit, in January 2038. -/
def lateAnswer : Message := .answer "[\x7b\"service\":\"A\",\"service_id\":\"a\",\"heartbeat_timeout\":120,\"last_heartbeat\":2147483648,\"metadata\":\"up\"\x7d]"

def lateDoc : Json := .object
  [("heartbeat_timeout", .numberUnsigned 120), ("last_heartbeat", .numberUnsigned 2147483648),
    ("metadata", .string "up"), ("service", .string "A"), ("service_id", .string "a")]

def lateEntry : Entry := ⟨"A", "a", 120, Int32.ofInt 2147483648, "up"⟩

def lateLib : Nlohmann := .reading [(lateAnswer, .array [lateDoc])]

theorem processMessage_keepsTime_late :
    ¬ ∃ record, (servicesAfter (processMessage lateLib false .atEnd lateAnswer) .empty).find?
      "a" = some record ∧ KeepsTime record 2147483648 := by
  have parsed : lateLib.parse lateAnswer.text = some (.array [lateDoc]) := by
    simp [lateLib, Nlohmann.reading]
  have carried : lateDoc.asEntry lateLib = some lateEntry := rfl
  rintro ⟨record, found, keeps⟩
  rw [servicesAfter_processMessage, messageEntries_array lateLib lateAnswer _ rfl parsed,
    applied_cons, carried] at found
  obtain ⟨other, stored, heartbeat⟩ :=
    lastHeartbeat_recordAll false .atEnd .empty [lateEntry] lateEntry rfl
  obtain rfl : record = other := Option.some.inj (found.symm.trans stored)
  exact absurd ((keepsTime_iff record _ (by decide) heartbeat).mp keeps) (by decide)

end ServiceDiscoveryClient

end NetworkDiscovery

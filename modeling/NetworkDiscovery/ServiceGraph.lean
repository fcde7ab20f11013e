import NetworkDiscovery.ArrayDelivery
import NetworkDiscovery.RegistryHistory

/-! The page that draws the services of a broadcast, and what its drawing has to do
with the registry of a client that hears the same broadcast. A value that
JavaScript leaves undefined is `none`. -/

namespace NetworkDiscovery.ServiceGraph
open ServiceDiscoveryClient

/-- A property of a parsed value. Reading one of null is a `TypeError`; other values than
objects have no property of the names that the page reads. -/
def property (key : String) : Json → Option (Option Json)
  | .null => none
  | .object members => some (members.lookup key)
  | _ => some none

def falsy : Json → Bool
  | .null => true
  | .boolean value => !value
  | .numberInteger value => value == 0
  | .numberUnsigned value => value == 0
  | .numberFloat value => value == 0
  | .string value => value == ""
  | .array _ => false
  | .object _ => false

structure Node where
  id : Option Json
  name : Json
  val : Option Json

structure Link where
  source : Option Json
  target : Option Json

structure GraphData where
  nodes : List Node
  links : List Link

/-- `metadata || 'No metadata'` -/
def nodeName : Option Json → Json
  | some metadata => if falsy metadata then .string "No metadata" else metadata
  | none => .string "No metadata"

/-- The function given to `forEach`. An element before the first would be undefined. -/
def pushElement (serviceMessages : List Json) (data : GraphData) (serviceMessage : Json)
    (index : ℕ) : Option GraphData := do
  let id ← property "service_id" serviceMessage
  let metadata ← property "metadata" serviceMessage
  let val ← property "heartbeat_timeout" serviceMessage
  let nodes := data.nodes ++ [⟨id, nodeName metadata, val⟩]
  if index > 0 then
    let previous ← serviceMessages[index - 1]?
    let source ← property "service_id" previous
    let target ← property "service_id" serviceMessage
    return ⟨nodes, data.links ++ [⟨source, target⟩]⟩
  else
    return ⟨nodes, data.links⟩

def forEachFrom (serviceMessages : List Json) (data : GraphData) :
    (remaining : List Json) → (index : ℕ) → Option GraphData
  | [], _ => some data
  | serviceMessage :: rest, index => do
    forEachFrom serviceMessages (← pushElement serviceMessages data serviceMessage index) rest
      (index + 1)

/-- The data that the graph is given, unless an exception ends the call. Only arrays
have a `forEach` that can be called. -/
def onMessage (parse : String → Option Json) (body : String) : Option GraphData :=
  match parse body with
  | some (.array serviceMessages) => forEachFrom serviceMessages ⟨[], []⟩ serviceMessages 0
  | _ => none

/-! ### What is drawn -/

def member (key : String) (doc : Json) : Option Json := (doc.members?).bind (·.lookup key)

def node (doc : Json) : Node :=
  ⟨member "service_id" doc, nodeName (member "metadata" doc), member "heartbeat_timeout" doc⟩

def link (doc next : Json) : Link := ⟨member "service_id" doc, member "service_id" next⟩

theorem property_eq_some_iff (key : String) (doc : Json) (value : Option Json) :
    property key doc = some value ↔ doc ≠ .null ∧ member key doc = value := by
  cases doc <;> simp [property, member, Json.members?]

theorem pushElement_first (docs : List Json) (data after : GraphData) (doc : Json) :
    pushElement docs data doc 0 = some after ↔
      doc ≠ .null ∧ ⟨data.nodes ++ [node doc], data.links⟩ = after := by
  simp only [pushElement, Option.bind_eq_bind, Option.bind_eq_some_iff, property_eq_some_iff,
    Option.pure_def, gt_iff_lt, lt_irrefl, if_false, Option.some_inj]
  constructor
  · rintro ⟨_, ⟨defined, rfl⟩, _, ⟨_, rfl⟩, _, ⟨_, rfl⟩, rfl⟩
    exact ⟨defined, rfl⟩
  · rintro ⟨defined, rfl⟩
    exact ⟨_, ⟨defined, rfl⟩, _, ⟨defined, rfl⟩, _, ⟨defined, rfl⟩, rfl⟩

theorem pushElement_next (before rest : List Json) (previous doc : Json) (data after : GraphData)
    (drawn : previous ≠ .null) :
    pushElement (before ++ previous :: doc :: rest) data doc (before.length + 1) = some after ↔
      doc ≠ .null ∧ ⟨data.nodes ++ [node doc], data.links ++ [link previous doc]⟩ = after := by
  have found : (before ++ previous :: doc :: rest)[before.length + 1 - 1]? = some previous := by
    simp
  simp only [pushElement, found, Option.bind_eq_bind, Option.bind_eq_some_iff,
    property_eq_some_iff, Option.pure_def, gt_iff_lt, Nat.succ_pos, if_true, Option.bind_some,
    Option.some_inj]
  constructor
  · rintro ⟨_, ⟨defined, rfl⟩, _, ⟨_, rfl⟩, _, ⟨_, rfl⟩, _, ⟨_, rfl⟩, _, ⟨_, rfl⟩, rfl⟩
    exact ⟨defined, rfl⟩
  · rintro ⟨defined, rfl⟩
    exact ⟨_, ⟨defined, rfl⟩, _, ⟨defined, rfl⟩, _, ⟨defined, rfl⟩, _, ⟨drawn, rfl⟩, _,
      ⟨defined, rfl⟩, rfl⟩

theorem forEachFrom_next (before rest : List Json) (previous : Json) (data after : GraphData)
    (drawn : previous ≠ .null) :
    forEachFrom (before ++ previous :: rest) data rest (before.length + 1) = some after ↔
      .null ∉ rest ∧ ⟨data.nodes ++ rest.map node,
        data.links ++ (previous :: rest).zipWith link rest⟩ = after := by
  induction rest generalizing before previous data with
  | nil => simp [forEachFrom]
  | cons doc rest ih =>
    have shifted : before ++ previous :: doc :: rest = (before ++ [previous]) ++ doc :: rest := by
      simp
    have length : before.length + 1 + 1 = (before ++ [previous]).length + 1 := by simp
    simp only [forEachFrom, Option.bind_eq_bind, Option.bind_eq_some_iff,
      pushElement_next before rest previous doc data _ drawn]
    constructor
    · rintro ⟨_, ⟨defined, rfl⟩, onward⟩
      rw [shifted, length, ih _ doc _ defined] at onward
      have ⟨others, pushed⟩ := onward
      exact ⟨by simp [Ne.symm defined, others], by simpa using pushed⟩
    · rintro ⟨defined, pushed⟩
      have ⟨first, others⟩ := List.ne_and_not_mem_of_not_mem_cons defined
      refine ⟨_, ⟨Ne.symm first, rfl⟩, ?_⟩
      rw [shifted, length, ih _ doc _ (Ne.symm first)]
      exact ⟨others, by simpa using pushed⟩

theorem onMessage_eq_some_iff (parse : String → Option Json) (body : String) (data : GraphData) :
    onMessage parse body = some data ↔ ∃ docs, parse body = some (.array docs) ∧ .null ∉ docs ∧
      data = ⟨docs.map node, docs.zipWith link docs.tail⟩ := by
  cases parsed : parse body with
  | none => simp [onMessage, parsed]
  | some doc =>
    cases doc with
    | array docs =>
      simp only [onMessage, parsed, Option.some_inj, Json.array.injEq, exists_eq_left']
      cases docs with
      | nil => simp [forEachFrom, eq_comm]
      | cons first rest =>
        simp only [forEachFrom, Option.bind_eq_bind, Option.bind_eq_some_iff, pushElement_first]
        constructor
        · rintro ⟨_, ⟨defined, rfl⟩, onward⟩
          have ⟨others, pushed⟩ := (forEachFrom_next [] rest first _ data defined).mp onward
          exact ⟨by simp [Ne.symm defined, others], by simpa using pushed.symm⟩
        · rintro ⟨defined, pushed⟩
          have ⟨head, others⟩ := List.ne_and_not_mem_of_not_mem_cons defined
          refine ⟨_, ⟨Ne.symm head, rfl⟩, ?_⟩
          exact (forEachFrom_next [] rest first _ data (Ne.symm head)).mpr
            ⟨others, by simpa using pushed.symm⟩
    | _ => simp [onMessage, parsed]

/-! ### What is registered -/

theorem registered_iff_applied (lib : Nlohmann) (debug : Bool) (order : Order) (message : Message)
    (docs : List Json) (broadcasts : Broadcasts lib message docs) (x : String) :
    ((servicesAfter (processMessage lib debug order message) .empty).find? x).isSome ↔
      x ∈ (applied lib docs).map Entry.serviceId := by
  rw [servicesAfter_processMessage, messageEntries_array lib message docs broadcasts.1 broadcasts.2,
    find?_recordAll]
  by_cases announced : x ∈ (applied lib docs).map Entry.serviceId
  · have ⟨first, rest, last, split, isLast⟩ := exists_entriesFor x _ announced
    rw [split, foldl_recordOne debug _ first last rest isLast]
    exact iff_of_true rfl announced
  · rw [(entriesFor_eq_nil x _).mpr announced]
    exact iff_of_false Bool.false_ne_true announced

theorem node_id_of_asEntry (lib : Nlohmann) (doc : Json) (e : Entry)
    (carried : doc.asEntry lib = some e) : (node doc).id = some (.string e.serviceId) := by
  have ⟨members, object, _, named, _⟩ := (asEntry_eq_some lib doc e).mp carried
  rw [Option.bind_eq_some_iff] at named
  have ⟨value, found, text⟩ := named
  rw [Json.string?_eq_some] at text
  rw [node, member, object, ← text]
  exact found

theorem mem_applied_ids (lib : Nlohmann) (docs : List Json) (x : String) :
    x ∈ (applied lib docs).map Entry.serviceId ↔
      some (.string x) ∈ ((docs.takeWhile (wellFormed lib)).map node).map Node.id := by
  simp only [applied, List.mem_map, List.mem_filterMap, exists_exists_and_eq_and]
  constructor
  · rintro ⟨e, ⟨doc, leading, carried⟩, rfl⟩
    exact ⟨doc, leading, node_id_of_asEntry lib doc e carried⟩
  · rintro ⟨doc, leading, drawn⟩
    have well : wellFormed lib doc = true := List.mem_takeWhile_imp leading
    obtain ⟨e, carried⟩ := Option.isSome_iff_exists.mp well
    rw [node_id_of_asEntry lib doc e carried] at drawn
    exact ⟨e, ⟨doc, leading, carried⟩, Json.string.inj (Option.some.inj drawn)⟩

theorem zipWith_link (docs : List Json) :
    docs.zipWith link docs.tail =
      (docs.map node).zipWith (fun n m => ⟨n.id, m.id⟩) (docs.map node).tail := by
  rw [← List.map_tail, List.zipWith_map]
  rfl

/-- A client takes the first nodes of the drawing for services, all up to the first element
that is malformed for it. The drawing links each node to the one behind it. -/
theorem graph_shows_registry (lib : Nlohmann) (debug : Bool) (order : Order) (message : Message)
    (docs : List Json) (broadcasts : Broadcasts lib message docs)
    (parse : String → Option Json) (body : String) (same : parse body = some (.array docs))
    (data : GraphData) (drawn : onMessage parse body = some data) :
    (∀ x, ((servicesAfter (processMessage lib debug order message) .empty).find? x).isSome ↔
      some (.string x) ∈ (data.nodes.take (docs.takeWhile (wellFormed lib)).length).map Node.id) ∧
    ((∀ doc ∈ docs, WellFormedElement doc) → ∀ n ∈ data.nodes, ∃ x, n.id = some (.string x) ∧
      ((servicesAfter (processMessage lib debug order message) .empty).find? x).isSome) ∧
    data.links = data.nodes.zipWith (fun n m => ⟨n.id, m.id⟩) data.nodes.tail := by
  have ⟨docs', parsed, _, isData⟩ := (onMessage_eq_some_iff parse body data).mp drawn
  obtain rfl : docs = docs' := Json.array.inj (Option.some.inj (same.symm.trans parsed))
  subst isData
  have leading : (docs.map node).take (docs.takeWhile (wellFormed lib)).length =
      (docs.takeWhile (wellFormed lib)).map node := by
    rw [← List.map_take, ← List.prefix_iff_eq_take.mp (List.takeWhile_prefix _)]
  refine ⟨fun x => ?_, fun well n inside => ?_, zipWith_link docs⟩
  · rw [registered_iff_applied lib debug order message docs broadcasts, mem_applied_ids, leading]
  · have ⟨doc, listed, isNode⟩ := List.mem_map.mp inside
    have applies : ∀ doc ∈ docs, wellFormed lib doc = true :=
      fun doc listed => (wellFormed_iff lib doc).mpr (well doc listed)
    have ⟨e, carried⟩ := Option.isSome_iff_exists.mp (applies doc listed)
    refine ⟨e.serviceId, isNode ▸ node_id_of_asEntry lib doc e carried, ?_⟩
    rw [registered_iff_applied lib debug order message docs broadcasts,
      applied_of_wellFormed lib docs applies]
    exact List.mem_map_of_mem (List.mem_filterMap.mpr ⟨doc, listed, carried⟩)

theorem graph_shows_registry_twice :
    ((servicesAfter (processMessage RegistryHistory.raisingLib false .atEnd
      RegistryHistory.raisingAnswer) .empty).find? "a").isSome := by
  have broadcasts : Broadcasts RegistryHistory.raisingLib RegistryHistory.raisingAnswer
      [sampleDoc "up", RegistryHistory.raisedDoc] :=
    ⟨rfl, by simp [RegistryHistory.raisingLib, Nlohmann.reading]⟩
  have drawn : onMessage RegistryHistory.raisingLib.parse RegistryHistory.raisingAnswer.text =
      some ⟨[node (sampleDoc "up"), node RegistryHistory.raisedDoc],
        [⟨some (.string "a"), some (.string "a")⟩]⟩ :=
    (onMessage_eq_some_iff _ _ _).mpr ⟨_, broadcasts.2, by simp [sampleDoc, RegistryHistory.raisedDoc], rfl⟩
  obtain ⟨registered, _⟩ := graph_shows_registry RegistryHistory.raisingLib false .atEnd
    RegistryHistory.raisingAnswer _ broadcasts _ _ broadcasts.2 _ drawn
  have leading : [sampleDoc "up", RegistryHistory.raisedDoc].takeWhile
      (wellFormed RegistryHistory.raisingLib) = [sampleDoc "up", RegistryHistory.raisedDoc] := rfl
  rw [leading] at registered
  exact (registered "a").mpr (List.mem_cons_self)

end NetworkDiscovery.ServiceGraph

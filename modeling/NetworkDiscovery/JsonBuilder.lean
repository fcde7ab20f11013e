import NetworkDiscovery.NlohmannJson

/-! The builder of multilevel keys. A pointer walks down the tree part by part;
here the rest of the loop is a call on the value the pointer shows, and what
the call leaves is put back under the part, whether it returned or threw. -/

namespace NetworkDiscovery

/-- A call on a JSON value, which keeps what was done to it when it throws. -/
abbrev JsonCall := EStateM CppException Json Unit

namespace Json

def put (data : Json) (key : String) (value : Json) : Json :=
  match data with
  | object members => object (OrderedMembers.replace key value members)
  | other => other

/-- `find(key) != end()`: only objects are searched. -/
def contains (key : String) : Json → Bool
  | object members => (members.lookup key).isSome
  | _ => false

end Json

namespace JsonBuilder

/-- A call through the reference that `operator[]` gives. -/
def atKey (key : String) (call : JsonCall) : JsonCall := fun current =>
  match current.subscript key with
  | .error e => .error e current
  | .ok (element, current) =>
    match call.run element with
    | .ok _ element => .ok () (current.put key element)
    | .error e element => .error e (current.put key element)

/-- `getline` until it fails: at the end of the stream a token without
characters is none. -/
def splitFrom (delimiter : Char) : (token stream : List Char) → List String
  | [], [] => []
  | token, [] => [String.ofList token]
  | token, c :: stream =>
    if c = delimiter then String.ofList token :: splitFrom delimiter [] stream
    else splitFrom delimiter (token ++ [c]) stream

def splitString (input : String) (delimiter : Char) : List String :=
  splitFrom delimiter [] input.toList

/-- If the key doesn't exist yet, an empty object is created. -/
def ensureKey (keyPart : String) : JsonCall := do
  if (← get).contains keyPart then return ()
  else atKey keyPart (set (Json.object []))

/-- The loop over the key parts, from the current level on. -/
def setFrom (value : Json) : List String → JsonCall
  | [] => return ()
  | [keyPart] => atKey keyPart (set value)
  | keyPart :: rest => do
    ensureKey keyPart
    atKey keyPart (setFrom value rest)

def setMultilevelKey (key : String) (value : Json) : JsonCall :=
  setFrom value (splitString key '/')

def setKey (key : String) (value : Json) : JsonCall := setMultilevelKey key value

def toJson (lib : Nlohmann) (tree : Json) : Except CppException String := lib.dumped tree (some 4)

example : splitString "connection/game" '/' = ["connection", "game"] := by decide

example : splitString "a//b/" '/' = ["a", "", "b"] := by decide

end JsonBuilder

namespace Json

/-- The values that `operator[]` descends into. -/
def isLevel : Json → Bool
  | null | object _ => true
  | _ => false

def levelMembers (tree : Json) : List (String × Json) := tree.members?.getD []

def child (key : String) (tree : Json) : Json := (tree.levelMembers.lookup key).getD (object [])

/-- The tree with a value at the end of a path, and objects along the path. -/
def graft (value : Json) : List String → Json → Json
  | [], _ => value
  | part :: rest, tree =>
    object (OrderedMembers.store part (graft value rest (tree.child part)) tree.levelMembers)

def blocked : List String → Json → Bool
  | [], _ => false
  | part :: rest, tree => !tree.isLevel || blocked rest (tree.child part)

theorem graft_cons (value : Json) (part : String) (rest : List String) (tree : Json) :
    graft value (part :: rest) tree =
      object (OrderedMembers.store part (graft value rest (tree.child part)) tree.levelMembers) := rfl

theorem blocked_cons (part : String) (rest : List String) (tree : Json) :
    blocked (part :: rest) tree = (!tree.isLevel || blocked rest (tree.child part)) := rfl

theorem store_eq_nil (key : String) (value : Json) :
    OrderedMembers.store key value [] = [(key, value)] := rfl

theorem blocked_empty (parts : List String) : blocked parts (object []) = false := by
  induction parts with
  | nil => rfl
  | cons part rest ih => exact ih

theorem blocked_null (parts : List String) : blocked parts null = false := by
  cases parts with
  | nil => rfl
  | cons part rest => exact blocked_empty rest

theorem store_child (part : String) (rest : List String) (tree : Json)
    (stuck : blocked rest (tree.child part) = true) :
    object (OrderedMembers.store part (tree.child part) tree.levelMembers) = tree := by
  cases found : tree.levelMembers.lookup part with
  | none =>
    rw [child, found, Option.getD_none, blocked_empty] at stuck
    cases stuck
  | some element =>
    have level : tree = object tree.levelMembers := by
      cases tree <;> first | rfl | cases found
    rw [child, found, Option.getD_some, OrderedMembers.store_lookup part element _ found, ← level]

end Json

namespace JsonBuilder
open OrderedMembers (store)

def stored (key : String) (members : List (String × Json)) :
    EStateM.Result CppException Json Unit → EStateM.Result CppException Json Unit
  | .ok _ element => .ok () (.object (store key element members))
  | .error e element => .error e (.object (store key element members))

theorem atKey_run (key : String) (call : JsonCall) (tree : Json) :
    (atKey key call).run tree =
      if tree.isLevel then
        stored key tree.levelMembers (call.run ((tree.levelMembers.lookup key).getD .null))
      else .error .typeError tree := by
  cases tree with
  | null =>
    show (atKey key call) .null = stored key [] (call.run .null)
    simp only [atKey, Json.subscript]
    cases call.run .null <;> simp [stored, Json.put, OrderedMembers.replace, Json.store_eq_nil]
  | object members =>
    show (atKey key call) (.object members) = stored key members _
    simp only [atKey, Json.subscript, Json.levelMembers, Json.members?, Option.getD_some]
    cases found : members.lookup key with
    | some element =>
      have kept (e : Json) : OrderedMembers.replace key e members = store key e members := by
        rw [store, found, Option.isSome_some, if_pos rfl]
      cases result : call.run element <;> simp [stored, result, Json.put, kept]
    | none =>
      have kept (e : Json) : OrderedMembers.replace key e (OrderedMembers.insert key .null members) =
          store key e members := by
        rw [OrderedMembers.replace_insert_self key _ _ members found, store, found]
        rfl
      cases result : call.run .null <;> simp [stored, result, Json.put, kept]
  | _ => rfl

theorem stored_stored (key : String) (element : Json) (members : List (String × Json))
    (result : EStateM.Result CppException Json Unit) :
    stored key (store key element members) result = stored key members result := by
  cases result <;> simp [stored, OrderedMembers.store_store_self]

theorem setFrom_last (value : Json) (part : String) (tree : Json) :
    (setFrom value [part]).run tree =
      if tree.isLevel then .ok () (.object (store part value tree.levelMembers))
      else .error .typeError tree := by
  rw [setFrom, atKey_run]
  rfl

theorem ensureKey_run (part : String) (tree : Json) :
    (ensureKey part).run tree =
      if tree.isLevel then .ok () (match tree.levelMembers.lookup part with
        | some _ => tree
        | none => .object (store part (.object []) tree.levelMembers))
      else .error .typeError tree := by
  have contains : tree.contains part = (tree.levelMembers.lookup part).isSome := by
    cases tree <;> rfl
  have search : (ensureKey part).run tree =
      if tree.contains part then .ok () tree else (atKey part (set (Json.object []))).run tree := by
    by_cases present : tree.contains part <;> simp [ensureKey, EStateM.run_bind, present]
  rw [search, contains, atKey_run]
  cases found : tree.levelMembers.lookup part with
  | none => cases tree.isLevel <;> rfl
  | some element =>
    have level : tree.isLevel = true := by
      cases tree <;> first | rfl | cases found
    simp [level]

theorem setFrom_next (value : Json) (part next : String) (rest : List String) (tree : Json) :
    (setFrom value (part :: next :: rest)).run tree =
      if tree.isLevel then
        stored part tree.levelMembers ((setFrom value (next :: rest)).run (tree.child part))
      else .error .typeError tree := by
  have turn : setFrom value (part :: next :: rest) =
      (do ensureKey part; atKey part (setFrom value (next :: rest))) := rfl
  have created (members : List (String × Json)) : (Json.object members).levelMembers = members := rfl
  rw [turn, EStateM.run_bind, ensureKey_run]
  cases level : tree.isLevel with
  | false => rfl
  | true =>
    rw [if_pos rfl, if_pos rfl, Json.child]
    cases found : tree.levelMembers.lookup part with
    | some element => simp [atKey_run, level, found]
    | none =>
      show (atKey part _).run (Json.object _) = _
      rw [atKey_run, created, OrderedMembers.lookup_store_self, stored_stored]
      rfl

/-- The walk throws at the first value that is no level, before any change:
below a level that is created or converted there is nothing to throw at. -/
theorem setFrom_run (value : Json) (parts : List String) (some_part : parts ≠ []) (tree : Json) :
    (setFrom value parts).run tree =
      if Json.blocked parts tree then .error .typeError tree
      else .ok () (Json.graft value parts tree) := by
  induction parts generalizing tree with
  | nil => exact absurd rfl some_part
  | cons part rest ih =>
    cases rest with
    | nil =>
      rw [setFrom_last]
      cases level : tree.isLevel <;> simp [Json.blocked, Json.graft, level]
    | cons next rest =>
      rw [setFrom_next, ih (List.cons_ne_nil next rest), Json.blocked_cons part,
        Json.graft_cons value part]
      cases level : tree.isLevel with
      | false => rfl
      | true =>
        cases stuck : Json.blocked (next :: rest) (tree.child part) with
        | false => rfl
        | true =>
          have same := Json.store_child part (next :: rest) tree stuck
          show EStateM.Result.error _ (Json.object _) = EStateM.Result.error _ tree
          rw [same]

end JsonBuilder

end NetworkDiscovery

import Mathlib.Data.Rat.Defs
import Mathlib.Data.String.Basic
import NetworkDiscovery.Library.OrderedMembers

/-! The JSON values of nlohmann::json with the accessors the service uses.
Parsing and printing belong to the library and enter as a parameter. A
`std::string` is a `String` holding one character for each byte. -/

namespace NetworkDiscovery

/-- What the modelled calls throw. All of them derive from `std::exception`. -/
inductive CppException
  | parseError
  | typeError
  | outOfRange
  deriving DecidableEq, Repr

/-- A double is kept by its exact value: parsed and stored numbers are finite.
The members of an object stand in the order of their keys, as in `std::map`. -/
inductive Json
  | null
  | boolean (value : Bool)
  | numberInteger (value : Int64)
  | numberUnsigned (value : UInt64)
  | numberFloat (value : ℚ)
  | string (value : String)
  | array (elements : List Json)
  | object (members : List (String × Json))

/-- The code outside the repository: `parse` gives nothing where it throws
`parse_error`, `dump` gives nothing where a string is not valid UTF-8, and
`castOutOfRange` is the undefined `static_cast<int>` of a double beyond int. -/
structure Nlohmann where
  parse : String → Option Json
  dump : Json → Option ℕ → Option String
  castOutOfRange : ℚ → Int32

/-- `dump(indent)`, with the compact form for no indentation -/
def Nlohmann.dumped (lib : Nlohmann) (data : Json) (indent : Option ℕ) :
    Except CppException String :=
  match lib.dump data indent with
  | some text => .ok text
  | none => .error .typeError

namespace Json

/-- `operator[]` on a mutable value: the element, and the value afterwards.
A null turns into an object and a missing key is inserted as null. -/
def subscript (key : String) : Json → Except CppException (Json × Json)
  | null => .ok (null, object [(key, null)])
  | object members =>
    match members.lookup key with
    | some value => .ok (value, object members)
    | none => .ok (null, object (OrderedMembers.insert key null members))
  | _ => .error .typeError

def string? : Json → Option String
  | string value => some value
  | _ => none

def integer? : Json → Option ℤ
  | numberInteger value => some value.toInt
  | numberUnsigned value => some value.toNat
  | _ => none

def getString : Json → Except CppException String
  | string value => .ok value
  | _ => .error .typeError

/-- `static_cast<int>` of a double -/
def floatToInt (lib : Nlohmann) (value : ℚ) : Int32 :=
  let truncated := value.num.tdiv value.den
  if -2147483648 ≤ truncated ∧ truncated < 2147483648 then Int32.ofInt truncated
  else lib.castOutOfRange value

/-- `get<int>()`: numbers of every kind and booleans are cast to 32 bits. -/
def getInt (lib : Nlohmann) : Json → Except CppException Int32
  | numberUnsigned value => .ok (Int32.ofInt value.toNat)
  | numberInteger value => .ok (Int32.ofInt value.toInt)
  | numberFloat value => .ok (floatToInt lib value)
  | boolean value => .ok (if value then 1 else 0)
  | _ => .error .typeError

def int? (lib : Nlohmann) (j : Json) : Option Int32 := (getInt lib j).toOption

/-- `data[key].get<std::string>()`, with the value of `data` afterwards -/
def stringField (key : String) (data : Json) : Except CppException (String × Json) := do
  let (element, data) ← data.subscript key
  let value ← element.getString
  return (value, data)

def intField (lib : Nlohmann) (key : String) (data : Json) : Except CppException (Int32 × Json) := do
  let (element, data) ← data.subscript key
  let value ← element.getInt lib
  return (value, data)

def members? : Json → Option (List (String × Json))
  | object members => some members
  | _ => none

theorem stringField_object (key : String) (members : List (String × Json)) :
    stringField key (object members) =
      match (members.lookup key).bind string? with
      | some value => .ok (value, object members)
      | none => .error .typeError := by
  cases found : members.lookup key with
  | none => simp [stringField, subscript, found, bind, Except.bind, getString]
  | some element =>
    cases element <;>
      simp [stringField, subscript, found, bind, Except.bind, pure, Except.pure, getString, string?]

theorem intField_object (lib : Nlohmann) (key : String) (members : List (String × Json)) :
    intField lib key (object members) =
      match (members.lookup key).bind (int? lib) with
      | some value => .ok (value, object members)
      | none => .error .typeError := by
  cases found : members.lookup key with
  | none => simp [intField, subscript, found, bind, Except.bind, getInt]
  | some element =>
    cases element <;>
      simp [intField, subscript, found, bind, Except.bind, pure, Except.pure, getInt, int?,
        Except.toOption]

/-- Only an object yields a string field: null becomes an object whose member
is null again, and every other kind refuses the subscript. -/
theorem stringField_not_object (key : String) (data : Json) (h : data.members? = none) :
    stringField key data = .error .typeError := by
  cases data with
  | object members => cases h
  | _ => rfl

end Json

end NetworkDiscovery

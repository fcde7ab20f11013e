import Mathlib.Algebra.Field.Rat
import NetworkDiscovery.Library.Utf8Text
import NetworkDiscovery.BuilderPaths

/-! The values whose text carries them: valid UTF-8 in every string and a finite
double behind every number. The builder keeps a tree among them. Reading the
text back gives the value again, but for the kind of its nonnegative integers. -/

namespace NetworkDiscovery
open Utf8Text

/-- A finite value of a binary floating-point type. -/
def IsBinary (precision : ℕ) (least greatest : ℤ) (value : ℚ) : Prop :=
  ∃ significand exponent : ℤ, significand.natAbs < 2 ^ precision ∧ least ≤ exponent ∧
    exponent ≤ greatest ∧ value = significand * 2 ^ exponent

def IsFloat (value : ℚ) : Prop := IsBinary 24 (-149) 104 value

def IsDouble (value : ℚ) : Prop := IsBinary 53 (-1074) 971 value

theorem IsFloat.isDouble {value : ℚ} (finite : IsFloat value) : IsDouble value := by
  obtain ⟨significand, exponent, small, low, high, same⟩ := finite
  have wider : 2 ^ 24 ≤ 2 ^ 53 := by decide
  exact ⟨significand, exponent, by omega, by omega, by omega, same⟩

namespace Json

/-- The values that `dump` prints without an exception and without loss. -/
inductive Dumpable : Json → Prop
  | null : Dumpable null
  | boolean (value : Bool) : Dumpable (boolean value)
  | numberInteger (value : Int64) : Dumpable (numberInteger value)
  | numberUnsigned (value : UInt64) : Dumpable (numberUnsigned value)
  | numberFloat (value : ℚ) (finite : IsDouble value) : Dumpable (numberFloat value)
  | string (value : String) (valid : IsUtf8 value) : Dumpable (string value)
  | array (elements : List Json) (each : ∀ element ∈ elements, Dumpable element) :
      Dumpable (array elements)
  | object (members : List (String × Json)) (sorted : (members.map Prod.fst).Pairwise (· < ·))
      (keys : ∀ member ∈ members, IsUtf8 member.1)
      (values : ∀ member ∈ members, Dumpable member.2) : Dumpable (object members)

mutual

def normalized : Json → Json
  | numberInteger value =>
    if 0 ≤ value then numberUnsigned value.toUInt64 else numberInteger value
  | array elements => array (normalizedAll elements)
  | object members => object (normalizedMembers members)
  | other => other

def normalizedAll : List Json → List Json
  | [] => []
  | element :: rest => element.normalized :: normalizedAll rest

def normalizedMembers : List (String × Json) → List (String × Json)
  | [] => []
  | (key, value) :: rest => (key, value.normalized) :: normalizedMembers rest

end

/-- Equal but for the kinds of nonnegative integers, which `operator==` passes over too. -/
def Equal (a b : Json) : Prop := a.normalized = b.normalized

/-- What is relied on of the library at one value: the text is UTF-8 and parses
back to the value. -/
def Restores (lib : Nlohmann) (data : Json) (indent : Option ℕ) : Prop :=
  ∃ text, lib.dump data indent = some text ∧ IsUtf8 text ∧
    ∃ back, lib.parse text = some back ∧ Equal back data

theorem lookup_normalizedMembers (key : String) (members : List (String × Json)) :
    (normalizedMembers members).lookup key = (members.lookup key).map normalized := by
  induction members with
  | nil => rfl
  | cons entry rest ih =>
    obtain ⟨other, value⟩ := entry
    rw [normalizedMembers, OrderedMembers.lookup_cons_if, OrderedMembers.lookup_cons_if, ih]
    split_ifs <;> rfl

theorem string?_normalized (data : Json) : data.normalized.string? = data.string? := by
  cases data with
  | numberInteger value =>
    rw [normalized]
    split_ifs <;> rfl
  | _ => rfl

theorem toNat_toUInt64 (value : Int64) (nonneg : 0 ≤ value) :
    (value.toUInt64.toNat : ℤ) = value.toInt := by
  have bound : 0 ≤ value.toInt := Int64.le_iff_toInt_le.mp nonneg
  rw [Int64.toNat_toUInt64_of_le nonneg, ← Int64.toNat_toInt, Int.toNat_of_nonneg bound]

theorem int?_normalized (lib : Nlohmann) (data : Json) :
    data.normalized.int? lib = data.int? lib := by
  cases data with
  | numberInteger value =>
    rw [normalized]
    split_ifs with nonneg
    · show some (Int32.ofInt _) = some (Int32.ofInt _)
      rw [toNat_toUInt64 value nonneg]
    · rfl
  | _ => rfl

theorem Equal.string?_eq {a b : Json} (equal : Equal a b) : a.string? = b.string? := by
  rw [← string?_normalized a, ← string?_normalized b, equal]

theorem Equal.int?_eq {a b : Json} (equal : Equal a b) (lib : Nlohmann) :
    a.int? lib = b.int? lib := by
  rw [← int?_normalized lib a, ← int?_normalized lib b, equal]

theorem Equal.lookup_eq {a : Json} {members : List (String × Json)}
    (equal : Equal a (object members)) :
    ∃ others, a = object others ∧
      ∀ key, (others.lookup key).map normalized = (members.lookup key).map normalized := by
  cases a with
  | object others =>
    refine ⟨others, rfl, fun key => ?_⟩
    have same : normalizedMembers others = normalizedMembers members := object.inj equal
    rw [← lookup_normalizedMembers, ← lookup_normalizedMembers, same]
  | numberInteger value =>
    rw [Equal, normalized] at equal
    split_ifs at equal <;> cases equal
  | _ => cases equal

/-! ### The builder -/

theorem Dumpable.levelMembers {tree : Json} (dumpable : Dumpable tree) :
    (tree.levelMembers.map Prod.fst).Pairwise (· < ·) ∧
    (∀ member ∈ tree.levelMembers, IsUtf8 member.1) ∧
    ∀ member ∈ tree.levelMembers, Dumpable member.2 := by
  cases dumpable with
  | object members sorted keys values => exact ⟨sorted, keys, values⟩
  | _ => exact ⟨.nil, nofun, nofun⟩

theorem dumpable_empty : Dumpable (object []) := .object [] .nil nofun nofun

theorem Dumpable.child {tree : Json} (dumpable : Dumpable tree) (part : String) :
    Dumpable (tree.child part) := by
  rw [Json.child]
  cases found : tree.levelMembers.lookup part with
  | none => exact dumpable_empty
  | some element =>
    have member : (part, element) ∈ tree.levelMembers := by
      obtain ⟨before, after, split, -⟩ := List.lookup_eq_some_iff.mp found
      rw [split]
      exact List.mem_append_right before List.mem_cons_self
    exact dumpable.levelMembers.2.2 (part, element) member

theorem Dumpable.graft {value tree : Json} (parts : List String) (fits : Dumpable value)
    (valid : ∀ part ∈ parts, IsUtf8 part) (dumpable : Dumpable tree) :
    Dumpable (Json.graft value parts tree) := by
  induction parts generalizing tree with
  | nil => exact fits
  | cons part rest ih =>
    have ⟨own, later⟩ := List.forall_mem_cons.mp valid
    have ⟨sorted, keys, values⟩ := dumpable.levelMembers
    rw [graft_cons]
    refine .object _ (OrderedMembers.store_sorted part _ _ sorted) ?_ ?_
    · intro member stored
      rcases OrderedMembers.mem_store part _ _ member stored with rfl | old
      · exact own
      · exact keys member old
    · intro member stored
      rcases OrderedMembers.mem_store part _ _ member stored with rfl | old
      · exact ih later (dumpable.child part)
      · exact values member old

end Json

namespace JsonBuilder

theorem splitFrom_isUtf8 (delimiter : Char) (ascii : delimiter.toNat < 128)
    (token stream : List Char) (valid : Encoded (token ++ stream)) :
    ∀ part ∈ splitFrom delimiter token stream, IsUtf8 part := by
  induction stream generalizing token with
  | nil =>
    cases token with
    | nil => exact nofun
    | cons first token =>
      intro part member
      obtain rfl := List.mem_singleton.mp member
      rw [List.append_nil] at valid
      rwa [IsUtf8, String.toList_ofList]
  | cons c stream ih =>
    rw [splitFrom]
    split_ifs with cut
    · have ⟨before, after⟩ := valid.split token stream c (by rwa [cut])
      refine List.forall_mem_cons.mpr ⟨?_, ih [] after⟩
      rwa [IsUtf8, String.toList_ofList]
    · exact ih (token ++ [c]) (by simpa using valid)

theorem splitString_isUtf8 (key : String) (valid : IsUtf8 key) :
    ∀ part ∈ splitString key '/', IsUtf8 part :=
  splitFrom_isUtf8 '/' (by decide) [] key.toList valid

theorem attempt_dumpable (call : String × Json) (tree : Json) (valid : IsUtf8 call.1)
    (fits : Json.Dumpable call.2) (dumpable : Json.Dumpable tree) :
    Json.Dumpable (attempt tree call).2 := by
  by_cases some_part : splitString call.1 '/' = []
  · rw [attempt, setKey, setMultilevelKey, some_part]
    exact dumpable
  · rw [attempt_eq call tree some_part]
    split_ifs
    · exact dumpable
    · exact .graft _ fits (splitString_isUtf8 call.1 valid) dumpable

end JsonBuilder

end NetworkDiscovery

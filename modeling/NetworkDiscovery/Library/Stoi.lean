import Mathlib.Algebra.Order.Group.Int
import Mathlib.Data.List.Basic
import Mathlib.Data.List.TakeWhile
import Mathlib.Tactic.Common

/-! `std::stoi` of a decimal text: blanks, a sign and digits, whatever follows
them. What is accepted is exactly what begins with a numeral of 32 bits. -/

namespace Stoi

inductive Failure
  | invalidArgument
  | outOfRange
  deriving DecidableEq, Repr

/-- `std::isspace` in the C locale. -/
def isSpace (c : Char) : Bool := c = ' ' || ('\t' ≤ c && c ≤ '\r')

def signed : List Char → ℤ × List Char
  | '-' :: rest => (-1, rest)
  | '+' :: rest => (1, rest)
  | unsigned => (1, unsigned)

def stoi (text : List Char) : Except Failure Int32 :=
  let (sign, unsigned) := signed (text.dropWhile isSpace)
  let digits := unsigned.takeWhile Char.isDigit
  if digits = [] then .error .invalidArgument
  else
    let value := sign * Nat.ofDigitChars 10 digits 0
    if -2 ^ 31 ≤ value ∧ value < 2 ^ 31 then .ok (Int32.ofInt value) else .error .outOfRange

def Signs (sign : List Char) (magnitude : ℕ) (value : ℤ) : Prop :=
  sign = ['-'] ∧ value = -magnitude ∨ (sign = [] ∨ sign = ['+']) ∧ value = magnitude

/-- Blanks, a sign, digits and a rest that does not go on with a digit. -/
def Numeral (text : List Char) (value : ℤ) : Prop :=
  ∃ blanks sign digits rest, text = blanks ++ (sign ++ (digits ++ rest)) ∧
    (∀ c ∈ blanks, isSpace c = true) ∧ digits ≠ [] ∧ (∀ c ∈ digits, c.isDigit = true) ∧
    (∀ c ∈ rest.head?, c.isDigit = false) ∧ Signs sign (Nat.ofDigitChars 10 digits 0) value

theorem takeWhile_of_head {p : Char → Bool} (front rest : List Char)
    (all : ∀ c ∈ front, p c = true) (stop : ∀ c ∈ rest.head?, p c = false) :
    (front ++ rest).takeWhile p = front := by
  rw [List.takeWhile_append_of_pos all]
  cases rest with
  | nil => simp
  | cons c rest => simp [stop c rfl]

theorem dropWhile_of_head {p : Char → Bool} (front rest : List Char)
    (all : ∀ c ∈ front, p c = true) (stop : ∀ c ∈ rest.head?, p c = false) :
    (front ++ rest).dropWhile p = rest := by
  rw [List.dropWhile_append_of_pos all]
  cases rest with
  | nil => simp
  | cons c rest => simp [stop c rfl]

theorem isDigit_apart {c : Char} (digit : c.isDigit = true) :
    isSpace c = false ∧ c ≠ '-' ∧ c ≠ '+' := by
  refine ⟨?_, ?_, ?_⟩
  · rw [← Bool.not_eq_true]
    intro space
    simp only [isSpace, Bool.or_eq_true, Bool.and_eq_true, decide_eq_true_iff] at space
    simp only [Char.isDigit, Bool.and_eq_true, decide_eq_true_iff] at digit
    rcases space with rfl | ⟨_, low⟩
    · exact absurd digit.1 (by decide)
    · have small : c.val ≤ 13 := low
      have large : 48 ≤ c.val := digit.1
      exact absurd (UInt32.le_trans large small) (by decide)
  · rintro rfl
    exact absurd digit (by decide)
  · rintro rfl
    exact absurd digit (by decide)

theorem signed_unsigned (c : Char) (rest : List Char) (positive : c ≠ '-') (unsigned : c ≠ '+') :
    signed (c :: rest) = (1, c :: rest) := by
  unfold signed
  split <;> simp_all

theorem stoi_of_signed (text unsigned digits : List Char) (sign : ℤ)
    (split : signed (text.dropWhile isSpace) = (sign, unsigned))
    (read : unsigned.takeWhile Char.isDigit = digits) (some_digit : digits ≠ []) :
    stoi text = if -2 ^ 31 ≤ sign * Nat.ofDigitChars 10 digits 0 ∧
        sign * Nat.ofDigitChars 10 digits 0 < 2 ^ 31 then
      .ok (Int32.ofInt (sign * Nat.ofDigitChars 10 digits 0)) else .error .outOfRange := by
  rw [stoi, split]
  simp only [read, if_neg some_digit]

theorem stoi_of_numeral {text : List Char} {value : ℤ} (numeral : Numeral text value) :
    stoi text = if -2 ^ 31 ≤ value ∧ value < 2 ^ 31 then .ok (Int32.ofInt value)
      else .error .outOfRange := by
  obtain ⟨blanks, sign, digits, rest, rfl, spaces, some_digit, all, stop, signs⟩ := numeral
  have read := takeWhile_of_head digits rest all stop
  obtain ⟨d, ds, rfl⟩ := List.exists_cons_of_ne_nil some_digit
  have ⟨filled, not_minus, not_plus⟩ := isDigit_apart (all d List.mem_cons_self)
  rcases signs with ⟨rfl, rfl⟩ | ⟨rfl | rfl, rfl⟩
  · have unspaced := dropWhile_of_head blanks (['-'] ++ (d :: ds ++ rest)) spaces (by rintro _ ⟨⟩; rfl)
    have split : signed (List.dropWhile isSpace (blanks ++ (['-'] ++ (d :: ds ++ rest)))) =
        (-1, d :: ds ++ rest) := by rw [unspaced]; rfl
    rw [stoi_of_signed _ _ _ _ split read some_digit, Int.neg_mul, Int.one_mul]
  · have unspaced := dropWhile_of_head blanks ([] ++ (d :: ds ++ rest)) spaces (by simp [filled])
    have split : signed (List.dropWhile isSpace (blanks ++ ([] ++ (d :: ds ++ rest)))) =
        (1, d :: ds ++ rest) := by
      rw [unspaced]
      exact signed_unsigned d (ds ++ rest) not_minus not_plus
    rw [stoi_of_signed _ _ _ _ split read some_digit, Int.one_mul]
  · have unspaced := dropWhile_of_head blanks (['+'] ++ (d :: ds ++ rest)) spaces (by rintro _ ⟨⟩; rfl)
    have split : signed (List.dropWhile isSpace (blanks ++ (['+'] ++ (d :: ds ++ rest)))) =
        (1, d :: ds ++ rest) := by rw [unspaced]; rfl
    rw [stoi_of_signed _ _ _ _ split read some_digit, Int.one_mul]

theorem signed_spec (text : List Char) : ∃ sign unsigned, ∀ magnitude : ℕ,
    signed text = ((signed text).1, unsigned) ∧ text = sign ++ unsigned ∧
      Signs sign magnitude ((signed text).1 * magnitude) := by
  unfold signed
  split
  case h_1 rest => exact ⟨['-'], rest, fun magnitude => ⟨rfl, rfl, .inl ⟨rfl, by omega⟩⟩⟩
  case h_2 rest => exact ⟨['+'], rest, fun magnitude => ⟨rfl, rfl, .inr ⟨.inr rfl, by omega⟩⟩⟩
  case h_3 => exact ⟨[], text, fun magnitude => ⟨rfl, rfl, .inr ⟨.inl rfl, by omega⟩⟩⟩

theorem head?_dropWhile (p : Char → Bool) (text : List Char) :
    ∀ c ∈ (text.dropWhile p).head?, p c = false := by
  intro c first
  have := List.head?_dropWhile_not p text
  rw [first] at this
  simpa using this

theorem stoi_eq_ok_iff (text : List Char) (n : Int32) : stoi text = .ok n ↔ Numeral text n.toInt := by
  constructor
  · intro accepted
    have ⟨sign, unsigned, split⟩ := signed_spec (text.dropWhile isSpace)
    have ⟨same, unspaced, _⟩ := split 0
    by_cases absent : unsigned.takeWhile Char.isDigit = []
    · rw [stoi, same] at accepted
      simp [absent] at accepted
    · rw [stoi_of_signed _ _ _ _ same rfl absent] at accepted
      split_ifs at accepted with fits
      have value : n.toInt = (signed (text.dropWhile isSpace)).1 *
          Nat.ofDigitChars 10 (unsigned.takeWhile Char.isDigit) 0 := by
        rw [← Except.ok.inj accepted, Int32.toInt_ofInt_of_le fits.1 fits.2]
      refine ⟨text.takeWhile isSpace, sign, unsigned.takeWhile Char.isDigit,
        unsigned.dropWhile Char.isDigit, ?_, ?_, absent, ?_, head?_dropWhile _ _, ?_⟩
      · rw [List.takeWhile_append_dropWhile, ← unspaced, List.takeWhile_append_dropWhile]
      · exact fun c member => List.mem_takeWhile_imp member
      · exact fun c member => List.mem_takeWhile_imp member
      · rw [value]
        exact (split _).2.2
  · intro numeral
    have low := n.le_toInt
    have high := n.toInt_lt
    rw [stoi_of_numeral numeral, if_pos ⟨by omega, by omega⟩, Int32.ofInt_toInt]

theorem stoi_toString (n : Int32) (blanks rest : List Char) (spaces : ∀ c ∈ blanks, isSpace c = true)
    (stop : ∀ c ∈ rest.head?, c.isDigit = false) :
    stoi (blanks ++ ((toString n.toInt).toList ++ rest)) = .ok n := by
  rw [stoi_eq_ok_iff]
  have digits (m : ℕ) : ∀ c ∈ Nat.toDigits 10 m, c.isDigit = true := fun c member =>
    Nat.isDigit_of_mem_toDigits (by decide) (by decide) member
  rw [Int.toString_eq_repr, Int.repr_eq_if]
  split_ifs with sign
  · refine ⟨blanks, [], Nat.toDigits 10 n.toInt.toNat, rest, ?_, spaces, Nat.toDigits_ne_nil,
      digits _, stop, .inr ⟨.inl rfl, ?_⟩⟩
    · rw [Nat.toList_repr, List.nil_append]
    · rw [Nat.ofDigitChars_ten_toDigits]
      omega
  · refine ⟨blanks, ['-'], Nat.toDigits 10 (-n.toInt).toNat, rest, ?_, spaces, Nat.toDigits_ne_nil,
      digits _, stop, .inl ⟨rfl, ?_⟩⟩
    · rw [String.toList_append, Nat.toList_repr, List.append_assoc]
      rfl
    · rw [Nat.ofDigitChars_ten_toDigits]
      omega

end Stoi

import Mathlib.Data.String.Basic

/-! UTF-8 in strings that hold one character for each byte. Beside the ASCII
characters themselves no encoding has a byte below 128, so a valid text that is
cut at an ASCII character leaves a valid text on each side. -/

namespace Utf8Text

def encodeChar (c : Char) : List Char :=
  (String.utf8EncodeChar c).map fun byte => Char.ofNat byte.toNat

def encode (text : List Char) : List Char := text.flatMap encodeChar

def Encoded (bytes : List Char) : Prop := ∃ text, encode text = bytes

def IsUtf8 (s : String) : Prop := Encoded s.toList

theorem toNat_ofByte (byte : UInt8) : (Char.ofNat byte.toNat).toNat = byte.toNat := by
  have valid : byte.toNat.isValidChar := by
    have bound := byte.toNat_lt
    simp only [Nat.isValidChar]
    omega
  rw [Char.ofNat, dif_pos valid]
  rfl

theorem encodeChar_ascii (c : Char) (ascii : c.toNat < 128) : encodeChar c = [c] := by
  have small : c.toNat % 256 = c.toNat := by omega
  have single : String.utf8EncodeChar c = [UInt8.ofNat c.toNat] := by
    have bound : c.val.toNat ≤ 127 := Nat.le_of_lt_succ ascii
    simp only [String.utf8EncodeChar, if_pos bound]
    rfl
  rw [encodeChar, single, List.map_cons, UInt8.toNat_ofNat', small, Char.ofNat_toNat]
  rfl

theorem le_of_mem_encodeChar (c : Char) (beyond : 128 ≤ c.toNat) (b : Char)
    (member : b ∈ encodeChar c) : 128 ≤ b.toNat := by
  have bytes : ∀ byte ∈ String.utf8EncodeChar c, 128 ≤ byte.toNat := by
    have beyond : ¬ c.val.toNat ≤ 127 := Nat.not_le_of_lt beyond
    simp only [String.utf8EncodeChar, if_neg beyond]
    split_ifs <;>
      simp only [List.forall_mem_cons, List.not_mem_nil, UInt8.toNat_ofNat', false_implies,
        implies_true, and_true] <;>
      omega
  obtain ⟨byte, encoded, rfl⟩ := List.mem_map.mp member
  rw [toNat_ofByte]
  exact bytes byte encoded

theorem encodeChar_of_mem (c d : Char) (ascii : c.toNat < 128) (member : c ∈ encodeChar d) :
    encodeChar d = [c] := by
  by_cases single : d.toNat < 128
  · rw [encodeChar_ascii d single, List.mem_singleton] at member
    rw [encodeChar_ascii d single, member]
  · have above := le_of_mem_encodeChar d (Nat.le_of_not_lt single) c member
    omega

theorem encode_cons (c : Char) (rest : List Char) :
    encode (c :: rest) = encodeChar c ++ encode rest := rfl

theorem encode_ascii (text : List Char) (ascii : ∀ c ∈ text, c.toNat < 128) :
    encode text = text := by
  induction text with
  | nil => rfl
  | cons c rest ih =>
    have ⟨first, later⟩ := List.forall_mem_cons.mp ascii
    rw [encode_cons, encodeChar_ascii c first, ih later]
    rfl

theorem encode_split (text a b : List Char) (c : Char) (ascii : c.toNat < 128)
    (cut : encode text = a ++ c :: b) :
    ∃ before after, encode before = a ∧ encode after = b := by
  induction text generalizing a with
  | nil => cases a <;> cases cut
  | cons d rest ih =>
    rw [encode_cons] at cut
    rcases List.append_eq_append_iff.mp cut with ⟨left, rfl, later⟩ | ⟨right, split, here⟩
    · obtain ⟨before, after, left, right⟩ := ih left later
      exact ⟨d :: before, after, by rw [encode_cons, left], right⟩
    · cases right with
      | nil =>
        obtain ⟨before, after, left, right⟩ := ih [] here.symm
        refine ⟨d :: before, after, ?_, right⟩
        rw [encode_cons, left, split, List.append_nil, List.append_nil]
      | cons inner right =>
        obtain ⟨rfl, rfl⟩ := List.cons.inj here
        have own : encodeChar d = [c] := by
          refine encodeChar_of_mem c d ascii ?_
          rw [split]
          exact List.mem_append_right a List.mem_cons_self
        rw [own] at split
        cases a with
        | nil =>
          have whole : right = [] := (List.cons.inj split).2.symm
          exact ⟨[], rest, rfl, by rw [whole]; rfl⟩
        | cons first a => simp at split

theorem Encoded.split (a b : List Char) (c : Char) (ascii : c.toNat < 128)
    (encoded : Encoded (a ++ c :: b)) : Encoded a ∧ Encoded b := by
  have ⟨text, cut⟩ := encoded
  obtain ⟨before, after, left, right⟩ := encode_split text a b c ascii cut
  exact ⟨⟨before, left⟩, ⟨after, right⟩⟩

theorem toNat_lt_of_isAlphanum (c : Char) (alphanum : c.isAlphanum) : c.toNat < 128 := by
  have ranges : (decide (c.val ≥ 65 ∧ c.val ≤ 90) || (c.val ≥ 97 && c.val ≤ 122) ||
      (c.val ≥ 48 && c.val ≤ 57)) = true := alphanum
  show c.val.toNat < 128
  simp only [Bool.or_eq_true, Bool.and_eq_true, decide_eq_true_eq, ge_iff_le,
    UInt32.le_iff_toNat_le, UInt32.reduceToNat] at ranges
  omega

theorem isUtf8_of_ascii (s : String) (ascii : s.toList.all fun c => c.toNat < 128) : IsUtf8 s := by
  refine ⟨s.toList, encode_ascii s.toList fun c member => ?_⟩
  simpa using List.all_eq_true.mp ascii c member

end Utf8Text

import Mathlib.Data.List.Basic
import Mathlib.Tactic.Common

/-! Reading a stream piece by piece with `getline`. A call that finds the
delimiter consumes it. At the end of the stream a call sets `eof`, and it fails
only if it has extracted nothing; every call after that fails. A loop over the
calls thus splits a text at the delimiter, without a piece behind the last one. -/

namespace Getline

structure Stream (α : Type*) where
  rest : List α
  eof : Bool := false
  fail : Bool := false

section
variable {α : Type*}

def Stream.good (s : Stream α) : Bool := !s.eof && !s.fail

def Stream.budget (s : Stream α) : Nat := if s.good then s.rest.length + 1 else 0

variable [DecidableEq α]

/-- The string and the stream after one call. A stream that is not good leaves
the string as it was held. -/
def getline (d : α) (held : List α) (s : Stream α) : List α × Stream α :=
  if s.good then
    match s.rest.dropWhile (· != d) with
    | _ :: later => (s.rest.takeWhile (· != d), ⟨later, false, false⟩)
    | [] => (s.rest, ⟨[], true, s.rest.isEmpty⟩)
  else (held, { s with fail := true })

theorem getline_bad (d : α) (held : List α) (s : Stream α) (bad : s.good = false) :
    getline d held s = (held, { s with fail := true }) := by
  rw [getline, bad]
  rfl

theorem budget_getline (d : α) (held : List α) (s : Stream α)
    (read : (getline d held s).2.fail = false) : (getline d held s).2.budget < s.budget := by
  cases good : s.good with
  | false => simp [getline_bad d held s good] at read
  | true =>
    have shorter := (List.dropWhile_suffix (· != d) (l := s.rest)).length_le
    rw [getline, if_pos good]
    conv_rhs => rw [Stream.budget, if_pos good]
    cases found : s.rest.dropWhile (· != d) with
    | nil => exact Nat.succ_pos _
    | cons e later =>
      rw [found, List.length_cons] at shorter
      exact Nat.succ_lt_succ shorter

/-- The strings that the body of `while (getline(s, held))` sees, in turn. -/
def tokensFrom (d : α) (held : List α) (s : Stream α) : List (List α) :=
  if _read : (getline d held s).2.fail = false then
    (getline d held s).1 :: tokensFrom d (getline d held s).1 (getline d held s).2
  else []
termination_by s.budget
decreasing_by exact budget_getline d held s _read

def tokens (d : α) (text : List α) : List (List α) := tokensFrom d [] ⟨text, false, false⟩

end

section
variable {α : Type*} (d : α) (a b : List α)

theorem getLast?_line (more : b ≠ []) : (a ++ d :: b).getLast? = b.getLast? := by
  have found := List.getLast?_eq_some_getLast more
  rw [List.getLast?_append, List.getLast?_cons_of_ne_nil more, found, Option.some_or]

theorem getLast?_line_nil : (a ++ [d]).getLast? = some d := List.getLast?_concat

end

section
variable {α : Type*} [DecidableEq α] (d : α) (held a b : List α)

theorem bne_of_notMem (clean : d ∉ a) : ∀ x ∈ a, (x != d) = true := fun _ member =>
  bne_iff_ne.mpr fun same => clean (same ▸ member)

theorem takeWhile_line (clean : d ∉ a) : (a ++ d :: b).takeWhile (· != d) = a := by
  simp [List.takeWhile_append_of_pos (bne_of_notMem d a clean)]

theorem dropWhile_line (clean : d ∉ a) : (a ++ d :: b).dropWhile (· != d) = d :: b := by
  simp [List.dropWhile_append_of_pos (bne_of_notMem d a clean)]

theorem dropWhile_last (clean : d ∉ a) : a.dropWhile (· != d) = [] := by
  have passed : (a ++ []).dropWhile (· != d) = [] :=
    List.dropWhile_append_of_pos (bne_of_notMem d a clean)
  rwa [List.append_nil] at passed

theorem getline_line (clean : d ∉ a) :
    getline d held ⟨a ++ d :: b, false, false⟩ = (a, ⟨b, false, false⟩) := by
  simp only [getline, dropWhile_line d a b clean, takeWhile_line d a b clean]
  rfl

theorem getline_last (clean : d ∉ a) :
    getline d held ⟨a, false, false⟩ = (a, ⟨[], true, a.isEmpty⟩) := by
  simp only [getline, dropWhile_last d a clean]
  rfl

theorem tokensFrom_bad (s : Stream α) (bad : s.good = false) : tokensFrom d held s = [] := by
  rw [tokensFrom, getline_bad d held s bad]
  rfl

theorem tokensFrom_line (clean : d ∉ a) :
    tokensFrom d held ⟨a ++ d :: b, false, false⟩ = a :: tokensFrom d a ⟨b, false, false⟩ := by
  rw [tokensFrom, getline_line d held a b clean]
  rfl

theorem tokensFrom_last (clean : d ∉ a) :
    tokensFrom d held ⟨a, false, false⟩ = if a = [] then [] else [a] := by
  rw [tokensFrom, getline_last d held a clean]
  cases a with
  | nil => rfl
  | cons x rest =>
    show (x :: rest) :: tokensFrom d (x :: rest) _ = _
    rw [tokensFrom_bad d (x :: rest) _ rfl]
    rfl

@[elab_as_elim]
theorem text_induction {motive : List α → Prop} (nil : motive [])
    (last : ∀ a, a ≠ [] → d ∉ a → motive a)
    (line : ∀ a b, d ∉ a → motive b → motive (a ++ d :: b)) (text : List α) : motive text := by
  induction size : text.length using Nat.strongRecOn generalizing text with
  | _ n ih =>
    by_cases found : d ∈ text
    · have ⟨a, b, split, clean⟩ := List.eq_append_cons_of_mem found
      subst split
      refine line a b clean (ih b.length ?_ b rfl)
      simp only [List.length_append, List.length_cons] at size
      omega
    · by_cases empty : text = []
      · exact empty ▸ nil
      · exact last text empty found

theorem tokensFrom_held (text : List α) :
    tokensFrom d held ⟨text, false, false⟩ = tokens d text := by
  induction text using text_induction d with
  | nil => rw [tokens, tokensFrom_last d _ [] (by simp), tokensFrom_last d _ [] (by simp)]
  | last a _ clean => rw [tokens, tokensFrom_last d _ a clean, tokensFrom_last d _ a clean]
  | line a b clean => rw [tokens, tokensFrom_line d _ a b clean, tokensFrom_line d _ a b clean]

@[simp] theorem tokens_nil : tokens d [] = [] := by
  rw [tokens, tokensFrom_last d [] [] List.not_mem_nil, if_pos rfl]

theorem tokens_last (some_char : a ≠ []) (clean : d ∉ a) : tokens d a = [a] := by
  rw [tokens, tokensFrom_last d [] a clean, if_neg some_char]

theorem tokens_line (clean : d ∉ a) : tokens d (a ++ d :: b) = a :: tokens d b := by
  rw [tokens, tokensFrom_line d [] a b clean, tokensFrom_held]

theorem notMem_tokens (text : List α) : ∀ token ∈ tokens d text, d ∉ token := by
  induction text using text_induction d with
  | nil => simp
  | last a some_char clean => simpa [tokens_last d a some_char clean] using clean
  | line a b clean ih => simpa [tokens_line d a b clean] using ⟨clean, ih⟩

theorem tokens_eq_nil (text : List α) : tokens d text = [] ↔ text = [] := by
  induction text using text_induction d with
  | nil => simp
  | last a some_char clean => simp [tokens_last d a some_char clean, some_char]
  | line a b clean => simp [tokens_line d a b clean]

theorem tokens_concat (text : List α) (some_char : text ≠ []) (open_end : text.getLast? ≠ some d) :
    tokens d (text ++ [d]) = tokens d text := by
  induction text using text_induction d with
  | nil => exact absurd rfl some_char
  | last a some_char clean =>
    rw [tokens_line d a [] clean, tokens_nil, tokens_last d a some_char clean]
  | line a b clean ih =>
    have more : b ≠ [] := by
      rintro rfl
      exact open_end (getLast?_line_nil d a)
    rw [getLast?_line d a b more] at open_end
    rw [List.append_assoc, List.cons_append, tokens_line d a _ clean, tokens_line d a b clean,
      ih more open_end]

theorem intercalate_tokens (text : List α) :
    [d].intercalate (tokens d text) =
      if text.getLast? = some d then text.dropLast else text := by
  induction text using text_induction d with
  | nil => simp
  | last a some_char clean =>
    have open_end : a.getLast? ≠ some d := fun last => clean (List.mem_of_getLast? last)
    rw [tokens_last d a some_char clean, if_neg open_end, List.intercalate_singleton]
  | line a b clean ih =>
    rw [tokens_line d a b clean]
    by_cases empty : b = []
    · subst empty
      rw [getLast?_line_nil, if_pos rfl, tokens_nil, List.intercalate_singleton,
        List.dropLast_concat]
    · have more : tokens d b ≠ [] := mt (tokens_eq_nil d b).mp empty
      rw [List.intercalate_cons_of_ne_nil more, ih, getLast?_line d a b empty]
      split
      · rw [List.dropLast_append_of_ne_nil (List.cons_ne_nil d b), List.dropLast_cons_of_ne_nil empty]
        simp
      · simp

theorem length_tokens (text : List α) :
    (tokens d text).length = if text = [] then 0
      else if text.getLast? = some d then text.count d else text.count d + 1 := by
  induction text using text_induction d with
  | nil => simp
  | last a some_char clean =>
    have open_end : a.getLast? ≠ some d := fun last => clean (List.mem_of_getLast? last)
    rw [tokens_last d a some_char clean, if_neg some_char, if_neg open_end,
      List.count_eq_zero_of_not_mem clean]
    rfl
  | line a b clean ih =>
    have counted : (a ++ d :: b).count d = b.count d + 1 := by
      rw [List.count_append, List.count_eq_zero_of_not_mem clean, List.count_cons_self, Nat.zero_add]
    have some_char := List.append_ne_nil_of_right_ne_nil a (List.cons_ne_nil d b)
    rw [tokens_line d a b clean, List.length_cons, if_neg some_char, counted]
    by_cases empty : b = []
    · subst empty
      rw [getLast?_line_nil, if_pos rfl, tokens_nil, List.length_nil, List.count_nil]
    · rw [ih, if_neg empty, getLast?_line d a b empty]
      split <;> rfl

theorem tokens_inj : tokens d a = tokens d b ↔
    a = b ∨ (a ≠ [] ∧ a.getLast? ≠ some d ∧ b = a ++ [d]) ∨
      (b ≠ [] ∧ b.getLast? ≠ some d ∧ a = b ++ [d]) := by
  refine ⟨fun same => ?_, ?_⟩
  · have empty : a = [] ↔ b = [] := by rw [← tokens_eq_nil d a, same, tokens_eq_nil]
    have joined := congrArg [d].intercalate same
    rw [intercalate_tokens, intercalate_tokens] at joined
    by_cases first : a.getLast? = some d <;> by_cases second : b.getLast? = some d
    · have ⟨_, left⟩ := List.getLast?_eq_some_iff.mp first
      have ⟨_, right⟩ := List.getLast?_eq_some_iff.mp second
      rw [if_pos first, if_pos second, left, right, List.dropLast_concat, List.dropLast_concat] at joined
      exact .inl (by rw [left, right, joined])
    · have ⟨_, left⟩ := List.getLast?_eq_some_iff.mp first
      rw [if_pos first, if_neg second, left, List.dropLast_concat] at joined
      have some_char : b ≠ [] := fun none => by simp [empty.mpr none] at first
      exact .inr (.inr ⟨some_char, second, by rw [left, joined]⟩)
    · have ⟨_, right⟩ := List.getLast?_eq_some_iff.mp second
      rw [if_neg first, if_pos second, right, List.dropLast_concat] at joined
      have some_char : a ≠ [] := fun none => by simp [empty.mp none] at second
      exact .inr (.inl ⟨some_char, first, by rw [right, joined]⟩)
    · rw [if_neg first, if_neg second] at joined
      exact .inl joined
  · rintro (rfl | ⟨some_char, open_end, rfl⟩ | ⟨some_char, open_end, rfl⟩)
    · rfl
    · exact (tokens_concat d a some_char open_end).symm
    · exact tokens_concat d b some_char open_end

theorem tokens_lines (lines : List (List α)) (clean : ∀ line ∈ lines, d ∉ line) (text : List α) :
    tokens d ((lines.flatMap fun line => line ++ [d]) ++ text) = lines ++ tokens d text := by
  induction lines with
  | nil => rfl
  | cons line rest ih =>
    rw [List.forall_mem_cons] at clean
    rw [List.flatMap_cons, List.append_assoc, List.append_assoc, List.singleton_append,
      tokens_line d line _ clean.1, ih clean.2, List.cons_append]

/-- The delimiter after the last line may be missing if that line is not empty. -/
theorem tokens_unended (lines : List (List α)) (clean : ∀ line ∈ lines, d ∉ line)
    (filled : ∀ line ∈ lines, line ≠ []) (text : List α)
    (ended : text ++ [d] = lines.flatMap fun line => line ++ [d]) : tokens d text = lines := by
  rcases List.eq_nil_or_concat lines with rfl | ⟨before, line, rfl⟩
  · simp at ended
  · rw [List.concat_eq_append] at clean filled ended ⊢
    rw [List.flatMap_append, List.flatMap_singleton, ← List.append_assoc] at ended
    have split := List.append_cancel_right ended
    have known : line ∈ before ++ [line] := by simp
    rw [split, tokens_lines d before (fun a member => clean a (List.mem_append_left _ member)),
      tokens_last d line (filled line known) (clean line known)]

end

end Getline

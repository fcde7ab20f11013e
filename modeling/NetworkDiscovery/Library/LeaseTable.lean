import Mathlib.Data.List.Basic
import Mathlib.Data.List.Induction
import Mathlib.Logic.Function.Basic
import Mathlib.Order.Lattice
import Mathlib.Tactic.Common

/-! Leases: a key is held up to a deadline unless it is renewed in time, and a
sweep drops what has run out by the clock it reads for each key. Whatever came
before, a key is held exactly if its last renewal outlives the sweeps since. -/

namespace LeaseTable

inductive Event (κ τ : Type*)
  | renew (k : κ) (deadline : τ)
  | sweep (clock : κ → τ)

section
variable {κ τ α : Type*} [LinearOrder τ] (k : κ) (deadline : τ)

def Spares (events : List (Event κ τ)) : Prop :=
  (∀ other, .renew k other ∉ events) ∧ ∀ clock, .sweep clock ∈ events → clock k < deadline

/-- The last renewal of the key, which no sweep after it has found run out. -/
def Outlives (events : List (Event κ τ)) : Prop :=
  ∃ before after, events = before ++ .renew k deadline :: after ∧ Spares k deadline after

theorem spares_nil : Spares k deadline [] :=
  ⟨fun _ => List.not_mem_nil, fun _ member => absurd member List.not_mem_nil⟩

theorem spares_append_iff (first second : List (Event κ τ)) :
    Spares k deadline (first ++ second) ↔ Spares k deadline first ∧ Spares k deadline second := by
  simp only [Spares, List.mem_append, not_or, or_imp, forall_and]
  exact and_and_and_comm

theorem spares_flatMap_iff (events : α → List (Event κ τ)) (l : List α) :
    Spares k deadline (l.flatMap events) ↔ ∀ a ∈ l, Spares k deadline (events a) := by
  induction l with
  | nil => simp [spares_nil]
  | cons a rest ih => rw [List.flatMap_cons, spares_append_iff, ih, List.forall_mem_cons]

theorem not_outlives_nil : ¬Outlives k deadline [] := by
  rintro ⟨before, after, split, _⟩
  simp at split

theorem outlives_append_iff (first second : List (Event κ τ)) :
    Outlives k deadline (first ++ second) ↔
      Outlives k deadline second ∨ Outlives k deadline first ∧ Spares k deadline second := by
  constructor
  · rintro ⟨before, after, split, spared⟩
    rcases List.append_eq_append_iff.mp split with ⟨rest, first_end, second_eq⟩ | ⟨rest, head, tail⟩
    · exact .inl ⟨rest, after, second_eq, spared⟩
    · cases rest with
      | nil => exact .inl ⟨[], after, tail.symm, spared⟩
      | cons event rest =>
        obtain ⟨rfl, rfl⟩ := List.cons.inj tail
        have ⟨middle, last⟩ := (spares_append_iff k deadline rest second).mp spared
        exact .inr ⟨⟨before, rest, head, middle⟩, last⟩
  · rintro (⟨before, after, split, spared⟩ | ⟨⟨before, after, split, spared⟩, later⟩)
    · exact ⟨first ++ before, after, by rw [split, List.append_assoc], spared⟩
    · refine ⟨before, after ++ second, by rw [split, List.append_assoc, List.cons_append], ?_⟩
      exact (spares_append_iff k deadline after second).mpr ⟨spared, later⟩

theorem outlives_renew_iff (other : κ) (renewed : τ) :
    Outlives k deadline [.renew other renewed] ↔ other = k ∧ renewed = deadline := by
  constructor
  · rintro ⟨before, after, split, _⟩
    have member : Event.renew k deadline ∈ [Event.renew other renewed] := by simp [split]
    have ⟨key, value⟩ := Event.renew.inj (List.mem_singleton.mp member)
    exact ⟨key.symm, value.symm⟩
  · rintro ⟨rfl, rfl⟩
    exact ⟨[], [], rfl, spares_nil other renewed⟩

theorem not_outlives_sweep (clock : κ → τ) : ¬Outlives k deadline [.sweep clock] := by
  rintro ⟨before, after, split, _⟩
  have member : Event.renew k deadline ∈ [Event.sweep clock] := by simp [split]
  cases List.mem_singleton.mp member

theorem outlives_flatMap_iff (events : α → List (Event κ τ)) (l : List α) :
    Outlives k deadline (l.flatMap events) ↔ ∃ before a after, l = before ++ a :: after ∧
      Outlives k deadline (events a) ∧ ∀ b ∈ after, Spares k deadline (events b) := by
  induction l with
  | nil => simp [not_outlives_nil]
  | cons head rest ih =>
    rw [List.flatMap_cons, outlives_append_iff, ih, spares_flatMap_iff]
    constructor
    · rintro (⟨before, a, after, rfl, own, spared⟩ | ⟨own, spared⟩)
      · exact ⟨head :: before, a, after, rfl, own, spared⟩
      · exact ⟨[], head, rest, rfl, own, spared⟩
    · rintro ⟨before, a, after, split, own, spared⟩
      cases before with
      | nil =>
        obtain ⟨rfl, rfl⟩ := List.cons.inj split
        exact .inr ⟨own, spared⟩
      | cons _ before => exact .inl ⟨before, a, after, (List.cons.inj split).2, own, spared⟩

variable [DecidableEq κ] (events : List (Event κ τ))

def step (table : κ → Option τ) : Event κ τ → κ → Option τ
  | .renew k deadline => Function.update table k (some deadline)
  | .sweep clock => fun k => (table k).filter fun deadline => clock k < deadline

def run (events : List (Event κ τ)) : κ → Option τ := events.foldl step fun _ => none

theorem run_concat (event : Event κ τ) : run (events ++ [event]) = step (run events) event :=
  List.foldl_concat step _ event events

/-- A key is held up to the deadline of its last renewal, if that outlives the sweeps since. -/
theorem run_eq_some_iff : run events k = some deadline ↔ Outlives k deadline events := by
  induction events using List.reverseRecOn with
  | nil => simp [run, not_outlives_nil]
  | append_singleton events event ih =>
    rw [run_concat, outlives_append_iff, ← ih]
    cases event with
    | renew other renewed =>
      rw [outlives_renew_iff, step]
      by_cases same : k = other
      · subst same
        have renews : ¬Spares k deadline [.renew k renewed] := fun spared =>
          spared.1 renewed List.mem_cons_self
        simp [renews]
      · have spared : Spares k deadline [.renew other renewed] := by
          simp [Spares, same]
        simp [Function.update_of_ne same, Ne.symm same, spared]
    | sweep clock =>
      have spared : Spares k deadline [.sweep clock] ↔ clock k < deadline := by
        simp [Spares]
      rw [step, Option.filter_eq_some_iff, or_iff_right (not_outlives_sweep k deadline clock),
        spared, decide_eq_true_iff]

theorem run_isSome_iff : (run events k).isSome ↔ ∃ deadline, Outlives k deadline events := by
  simp only [Option.isSome_iff_exists, run_eq_some_iff]

end

end LeaseTable

import Mathlib.Data.List.Basic
import Mathlib.Data.List.Induction
import Mathlib.Tactic.Common

/-! Runs of a partial step function under a sequence of actions. An invariant
may speak of the actions taken so far, and the order in which actions happened
is told by the subsequences of the run. Where every action can be taken in
every state, the run is a fold. -/

namespace ActionRuns

variable {σ α : Type*} (step : σ → α → Option σ)

def run (s : σ) (actions : List α) : Option σ := actions.foldlM step s

def Throughout (P : σ → α → Prop) (s : σ) (actions : List α) : Prop :=
  ∀ before a after t, actions = before ++ a :: after → run step s before = some t → P t a

theorem run_append (s : σ) (before after : List α) :
    run step s (before ++ after) = (run step s before).bind fun t => run step t after := by
  rw [run, List.foldlM_append]
  rfl

theorem run_concat (s : σ) (actions : List α) (a : α) :
    run step s (actions ++ [a]) = (run step s actions).bind fun t => step t a := by
  rw [run_append]
  apply congrArg
  funext t
  cases last : step t a <;> simp [run, last]

theorem run_cons_iff (s t : σ) (a : α) (rest : List α) :
    run step s (a :: rest) = some t ↔ ∃ u, step s a = some u ∧ run step u rest = some t := by
  rw [run, List.foldlM_cons, Option.bind_eq_bind, Option.bind_eq_some_iff]
  rfl

theorem run_split (s t : σ) (before after : List α) (a : α)
    (ran : run step s (before ++ a :: after) = some t) :
    ∃ u v, run step s before = some u ∧ step u a = some v ∧ run step v after = some t := by
  rw [run_append, Option.bind_eq_some_iff] at ran
  have ⟨u, first, rest⟩ := ran
  rw [run, List.foldlM_cons, Option.bind_eq_bind, Option.bind_eq_some_iff] at rest
  have ⟨v, taken, last⟩ := rest
  exact ⟨u, v, first, taken, last⟩

theorem run_mem (s t : σ) (actions : List α) (a : α) (ran : run step s actions = some t)
    (member : a ∈ actions) :
    ∃ before after u v, actions = before ++ a :: after ∧ run step s before = some u ∧
      step u a = some v ∧ run step v after = some t := by
  have ⟨before, after, split⟩ := List.append_of_mem member
  rw [split] at ran
  have ⟨u, v, first, taken, last⟩ := run_split step s t before after a ran
  exact ⟨before, after, u, v, split, first, taken, last⟩

@[elab_as_elim]
theorem run_induction {s : σ} {motive : List α → σ → Prop} (start : motive [] s)
    (next : ∀ actions t a t', run step s actions = some t → motive actions t →
      step t a = some t' → motive (actions ++ [a]) t')
    (actions : List α) (t : σ) (ran : run step s actions = some t) : motive actions t := by
  induction actions using List.reverseRecOn generalizing t with
  | nil =>
    have same : s = t := Option.some.inj ran
    exact same ▸ start
  | append_singleton actions a ih =>
    rw [run_concat, Option.bind_eq_some_iff] at ran
    have ⟨u, first, taken⟩ := ran
    exact next actions u a t first (ih u first) taken

theorem run_bounded (ok : α → Prop) (Q : σ → Prop) (f : σ → ℕ)
    (each : ∀ t a t', ok a → Q t → step t a = some t' → Q t' ∧ f t' ≤ f t) (s t : σ)
    (actions : List α) (ran : run step s actions = some t) (allowed : ∀ a ∈ actions, ok a)
    (first : Q s) : Q t ∧ f t ≤ f s := by
  revert allowed
  refine run_induction step (fun _ => ⟨first, Nat.le_refl _⟩) ?_ actions t ran
  intro actions u a u' _ ih taken allowed
  have ⟨holds, less⟩ := ih fun b member => allowed b (by simp [member])
  have ⟨kept, last⟩ := each u a u' (allowed a (by simp)) holds taken
  exact ⟨kept, Nat.le_trans last less⟩

theorem throughout_append (P : σ → α → Prop) (s t : σ) (before after : List α)
    (ran : run step s before = some t) (all : Throughout step P s (before ++ after)) :
    Throughout step P s before ∧ Throughout step P t after := by
  refine ⟨fun b a c u split reached => ?_, fun b a c u split reached => ?_⟩
  · apply all b a (c ++ after) u _ reached
    rw [split, List.append_assoc, List.cons_append]
  · apply all (before ++ b) a c u
    · rw [split, List.append_assoc]
    · rw [run_append, ran]
      exact reached

theorem throughout_nil (P : σ → α → Prop) (s : σ) : Throughout step P s [] := by
  intro before a after _ split
  simp at split

theorem throughout_cons (P : σ → α → Prop) (s : σ) (a : α) (rest : List α) (first : P s a)
    (later : ∀ t, step s a = some t → Throughout step P t rest) :
    Throughout step P s (a :: rest) := by
  intro before b after t split reached
  cases before with
  | nil =>
    obtain ⟨rfl, rfl⟩ := List.cons.inj split
    obtain rfl : s = t := Option.some.inj reached
    exact first
  | cons _ before =>
    obtain ⟨rfl, rfl⟩ := List.cons.inj split
    have ⟨u, taken, onward⟩ := (run_cons_iff step s t _ before).mp reached
    exact later u taken before b after t rfl onward

theorem throughout_mono {P Q : σ → α → Prop} {s : σ} {actions : List α}
    (weaker : ∀ t a, P t a → Q t a) (all : Throughout step P s actions) :
    Throughout step Q s actions := fun before a after t split reached =>
  weaker t a (all before a after t split reached)

def Always (P : List α → σ → Prop) (s : σ) (actions : List α) : Prop :=
  ∀ before after t, actions = before ++ after → run step s before = some t → P before t

theorem always_left {P : List α → σ → Prop} {s : σ} {actions later : List α}
    (all : Always step P s (actions ++ later)) : Always step P s actions :=
  fun before after t split =>
    all before (after ++ later) t (by rw [split, List.append_assoc])

theorem always_last {P : List α → σ → Prop} {s t : σ} {actions : List α}
    (all : Always step P s actions) (ran : run step s actions = some t) : P actions t :=
  all actions [] t (List.append_nil actions).symm ran

theorem always_nil {P : List α → σ → Prop} {s : σ} (first : P [] s) : Always step P s [] := by
  intro before after t split reached
  obtain ⟨rfl, rfl⟩ := List.append_eq_nil_iff.mp split.symm
  obtain rfl : s = t := Option.some.inj reached
  exact first

theorem always_cons {P : List α → σ → Prop} {s : σ} {a : α} {rest : List α} (first : P [] s)
    (later : ∀ t, step s a = some t → Always step (fun before u => P (a :: before) u) t rest) :
    Always step P s (a :: rest) := by
  intro before after t split reached
  cases before with
  | nil =>
    obtain rfl : s = t := Option.some.inj reached
    exact first
  | cons _ before =>
    obtain ⟨rfl, rfl⟩ := List.cons.inj split
    have ⟨u, taken, onward⟩ := (run_cons_iff step s t _ before).mp reached
    exact later u taken before after t rfl onward

/-- Run induction for the runs whose states and actions keep to given conditions. -/
@[elab_as_elim]
theorem run_induction_under {P : List α → σ → Prop} {Q : σ → α → Prop} {s : σ}
    {motive : List α → σ → Prop} (start : motive [] s)
    (next : ∀ actions t a t', run step s actions = some t →
      Always step P s (actions ++ [a]) → Throughout step Q s (actions ++ [a]) →
      motive actions t → step t a = some t' → motive (actions ++ [a]) t')
    (actions : List α) (t : σ) (ran : run step s actions = some t)
    (always : Always step P s actions) (through : Throughout step Q s actions) :
    motive actions t := by
  revert always through
  refine run_induction step (fun _ _ => start) ?_ actions t ran
  intro actions u a u' reached ih taken always through
  have earlier := (throughout_append step Q s u actions [a] reached through).1
  exact next actions u a u' reached always through (ih (always_left step always) earlier) taken

section
variable {x y a : α} {l actions before after : List α}

theorem concat_sublist_concat :
    (l ++ [x]).Sublist (actions ++ [a]) ↔
      (l ++ [x]).Sublist actions ∨ x = a ∧ l.Sublist actions := by
  have reversed (m : List α) : m.Sublist actions ↔ m.reverse.Sublist actions.reverse :=
    List.reverse_sublist.symm
  rw [← List.reverse_sublist, reversed, reversed]
  simp only [List.reverse_append, List.reverse_singleton, List.singleton_append]
  rw [List.cons_sublist_cons']

theorem concat_sublist_of_notMem (absent : y ∉ after)
    (h : (l ++ [y]).Sublist (before ++ after)) : (l ++ [y]).Sublist before := by
  induction after using List.reverseRecOn with
  | nil => simpa using h
  | append_singleton after a ih =>
    rw [List.mem_append, List.mem_singleton, not_or] at absent
    rw [← List.append_assoc, concat_sublist_concat] at h
    have shorter := h.resolve_right fun last => absent.2 last.1
    exact ih absent.1 shorter

theorem sublist_of_concat_sublist (absent : y ∉ after)
    (h : (l ++ [y]).Sublist (before ++ y :: after)) : l.Sublist before := by
  rw [List.append_cons before] at h
  have ends := concat_sublist_concat.mp (concat_sublist_of_notMem absent h)
  rcases ends with earlier | last
  · exact (List.sublist_append_left l [y]).trans earlier
  · exact last.2

theorem notMem_after {s t : σ}
    (never : ∀ actions u, run step s actions = some u → y ∈ actions → step u x = none)
    (ran : run step s (before ++ y :: after) = some t) : x ∉ after := by
  intro member
  have ⟨c, d, split⟩ := List.append_of_mem member
  rw [split, ← List.cons_append, ← List.append_assoc] at ran
  have ⟨u, v, first, taken, _⟩ := run_split step s t _ d x ran
  have past : y ∈ before ++ y :: c := by simp
  rw [never _ u first past] at taken
  cases taken

end

section
variable {σ α : Type*} (next : σ → α → σ) (P : σ → α → Prop)

def Along (s : σ) (actions : List α) : Prop :=
  ∀ before a after, actions = before ++ a :: after → P (before.foldl next s) a

theorem along_left (s : σ) (actions later : List α) (all : Along next P s (actions ++ later)) :
    Along next P s actions := by
  intro before a after split
  exact all before a (after ++ later) (by rw [split, List.append_assoc, List.cons_append])

theorem along_concat (s : σ) (actions : List α) (a : α) :
    Along next P s (actions ++ [a]) ↔ Along next P s actions ∧ P (actions.foldl next s) a := by
  refine ⟨fun all => ⟨along_left next P s actions [a] all, all actions a [] rfl⟩, ?_⟩
  · rintro ⟨earlier, last⟩ before b after split
    rcases List.eq_nil_or_concat after with rfl | ⟨rest, c, rfl⟩
    · have ⟨same, here⟩ := List.append_inj' split rfl
      exact same ▸ (List.cons.inj here).1 ▸ last
    · rw [List.concat_eq_append, ← List.cons_append, ← List.append_assoc] at split
      exact earlier before b rest (List.append_inj' split rfl).1

theorem seen_iff {β : Type*} (seen : σ → β) (Touches : σ → α → Prop)
    (frame : ∀ t a, ¬Touches t a → seen (next t a) = seen t) (s : σ) (actions : List α) (b : β) :
    seen (actions.foldl next s) = b ↔
      Along next (fun t a => ¬Touches t a) s actions ∧ seen s = b ∨
      ∃ before a after, actions = before ++ a :: after ∧ Touches (before.foldl next s) a ∧
        seen (next (before.foldl next s) a) = b ∧
        Along next (fun t a => ¬Touches t a) (next (before.foldl next s) a) after := by
  have along_nil (t : σ) : Along next (fun t a => ¬Touches t a) t [] := by
    intro before a after split
    simp at split
  induction actions using List.reverseRecOn with
  | nil => simp [along_nil]
  | append_singleton actions a ih =>
    rw [List.foldl_concat, along_concat]
    by_cases touched : Touches (actions.foldl next s) a
    · constructor
      · exact fun last => .inr ⟨actions, a, [], rfl, touched, last, along_nil _⟩
      · rintro (⟨⟨_, untouched⟩, _⟩ | ⟨before, c, after, split, _, last, along⟩)
        · exact absurd touched untouched
        · rcases List.eq_nil_or_concat after with rfl | ⟨rest, d, rfl⟩
          · have ⟨same, here⟩ := List.append_inj' split rfl
            obtain ⟨rfl, _⟩ := List.cons.inj here
            rwa [same]
          · rw [List.concat_eq_append, ← List.cons_append, ← List.append_assoc] at split
            have ⟨same, here⟩ := List.append_inj' split rfl
            obtain ⟨rfl, _⟩ := List.cons.inj here
            rw [List.concat_eq_append, along_concat] at along
            rw [same, List.foldl_append] at touched
            exact absurd touched along.2
    · rw [frame _ a touched]
      refine ih.trans ⟨?_, ?_⟩
      · rintro (⟨along, first⟩ | ⟨before, c, after, rfl, set, last, along⟩)
        · exact .inl ⟨⟨along, touched⟩, first⟩
        · refine .inr ⟨before, c, after ++ [a], by simp, set, last, (along_concat ..).mpr ⟨along, ?_⟩⟩
          rwa [List.foldl_append] at touched
      · rintro (⟨⟨along, _⟩, first⟩ | ⟨before, c, after, split, set, last, along⟩)
        · exact .inl ⟨along, first⟩
        · rcases List.eq_nil_or_concat after with rfl | ⟨rest, d, rfl⟩
          · have ⟨same, here⟩ := List.append_inj' split rfl
            obtain ⟨rfl, _⟩ := List.cons.inj here
            rw [← same] at set
            exact absurd set touched
          · rw [List.concat_eq_append, ← List.cons_append, ← List.append_assoc] at split
            have same := (List.append_inj' split rfl).1
            rw [List.concat_eq_append, along_concat] at along
            exact .inr ⟨before, c, rest, same, set, last, along.1⟩

end

end ActionRuns

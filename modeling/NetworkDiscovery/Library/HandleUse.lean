import NetworkDiscovery.Library.ActionRuns

/-! Traces of a program that works with handles, one at a time. A handle is
acquired, used, and released before the next one is acquired. Such a trace shows
for every handle how often it has been acquired and released, and that it is
used only in between. -/

namespace HandleUse

inductive Use (η : Type*)
  | acquire (h : η)
  | use (h : η)
  | release (h : η)
  | other
  deriving DecidableEq

section
variable {η : Type*} [DecidableEq η]

def next : Option η → Use η → Option (Option η)
  | held, .other => some held
  | none, .acquire h => some (some h)
  | some held, .use h => if h = held then some (some held) else none
  | some held, .release h => if h = held then some none else none
  | _, _ => none

def Disciplined (trace : List (Use η)) : Prop := ActionRuns.run next none trace = some none

def Balanced (trace : List (Use η)) (held : Option η) : Prop :=
  ∀ h, trace.count (.acquire h) = trace.count (.release h) + if held = some h then 1 else 0

theorem disciplined_append (first second : List (Use η)) (left : Disciplined first)
    (right : Disciplined second) : Disciplined (first ++ second) := by
  rw [Disciplined, ActionRuns.run_append, left, Option.bind_some]
  exact right

theorem disciplined_other (trace : List (Use η)) (others : ∀ u ∈ trace, u = .other) :
    Disciplined trace := by
  induction trace with
  | nil => rfl
  | cons u rest ih =>
    have ⟨first, later⟩ := List.forall_mem_cons.mp others
    subst first
    exact ih later

theorem run_uses (h : η) (trace : List (Use η)) (uses : ∀ u ∈ trace, u = .use h) :
    ActionRuns.run next (some h) trace = some (some h) := by
  induction trace with
  | nil => rfl
  | cons u rest ih =>
    have ⟨first, later⟩ := List.forall_mem_cons.mp uses
    subst first
    rw [ActionRuns.run, List.foldlM_cons, next, if_pos rfl]
    exact ih later

theorem disciplined_session (h : η) (trace : List (Use η)) (uses : ∀ u ∈ trace, u = .use h) :
    Disciplined (.acquire h :: (trace ++ [.release h])) := by
  have held := run_uses h trace uses
  have opened : ActionRuns.run next (some h) (trace ++ [.release h]) = some none := by
    rw [ActionRuns.run_concat, held, Option.bind_some, next, if_pos rfl]
  exact opened

theorem balanced_next (trace : List (Use η)) (before after : Option η) (u : Use η)
    (balanced : Balanced trace before) (allowed : next before u = some after) :
    Balanced (trace ++ [u]) after := by
  intro h
  have counts := balanced h
  rw [List.count_append, List.count_append]
  cases u with
  | other =>
    cases before <;> cases allowed <;> simpa using counts
  | acquire a =>
    cases before with
    | some held => cases allowed
    | none =>
      obtain rfl := Option.some.inj allowed
      by_cases same : a = h <;> simp_all
  | use a =>
    cases before with
    | none => cases allowed
    | some held =>
      rw [next] at allowed
      split at allowed
      case isTrue =>
        obtain rfl := Option.some.inj allowed
        simpa using counts
      case isFalse => cases allowed
  | release a =>
    cases before with
    | none => cases allowed
    | some held =>
      rw [next] at allowed
      split at allowed
      case isTrue same =>
        obtain rfl := Option.some.inj allowed
        subst same
        by_cases same : a = h <;> simp_all
      case isFalse => cases allowed

theorem balanced_run (trace : List (Use η)) (held : Option η)
    (ran : ActionRuns.run next none trace = some held) : Balanced trace held :=
  ActionRuns.run_induction next (fun h => by simp)
    (fun trace before u after _ balanced taken => balanced_next trace before after u balanced taken)
    trace held ran

theorem Disciplined.balanced {before after : List (Use η)} (all : Disciplined (before ++ after)) :
    ∃ held, Balanced before held := by
  rw [Disciplined, ActionRuns.run_append, Option.bind_eq_some_iff] at all
  have ⟨held, ran, _⟩ := all
  exact ⟨held, balanced_run before held ran⟩

theorem Disciplined.released {trace : List (Use η)} (all : Disciplined trace) (h : η) :
    trace.count (.acquire h) = trace.count (.release h) :=
  balanced_run trace none all h

theorem Disciplined.held {before after : List (Use η)} {u : Use η} {h : η}
    (all : Disciplined (before ++ u :: after)) (uses : u = .use h ∨ u = .release h) :
    before.count (.acquire h) = before.count (.release h) + 1 := by
  have ⟨held, _, ran, allowed, _⟩ := ActionRuns.run_split next none none before after u all
  have counts := balanced_run before held ran h
  cases held with
  | none => rcases uses with rfl | rfl <;> cases allowed
  | some a =>
    have same : h = a := by
      by_contra other
      rcases uses with rfl | rfl <;> simp [next, other] at allowed
    rw [counts, same, if_pos rfl]

end

end HandleUse

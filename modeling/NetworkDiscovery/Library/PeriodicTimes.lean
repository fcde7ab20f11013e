import Mathlib.Data.List.Basic
import Mathlib.Data.List.Pairwise
import Mathlib.Algebra.Order.Group.Int
import Mathlib.Tactic.Linarith
import Mathlib.Tactic.Ring

/-! The times at which a periodic task has acted. They are spaced if the task
sleeps between its actions, which bounds how many fit into a window, and they
cover a span of time if it never sleeps for too long. -/

namespace PeriodicTimes

variable {gap now later t : ℤ} {times : List ℤ}

def Spaced (gap : ℤ) (times : List ℤ) : Prop := times.Pairwise fun a b => a + gap ≤ b

theorem spaced_nil (gap : ℤ) : Spaced gap [] := List.Pairwise.nil

theorem Spaced.concat (spaced : Spaced gap times) (last : ∀ a ∈ times, a + gap ≤ t) :
    Spaced gap (times ++ [t]) := by
  refine List.pairwise_append.mpr ⟨spaced, List.pairwise_singleton _ t, fun a member b same => ?_⟩
  rw [List.mem_singleton.mp same]
  exact last a member

theorem Spaced.length_le (spaced : Spaced gap (t :: times)) (bounded : ∀ a ∈ t :: times, a ≤ later) :
    times.length * gap ≤ later - t := by
  induction times generalizing t with
  | nil =>
    have own := bounded t List.mem_cons_self
    simpa using own
  | cons next rest ih =>
    have ⟨first, others⟩ := List.pairwise_cons.mp spaced
    have apart := first next List.mem_cons_self
    have remaining := ih others fun a member => bounded a (List.mem_cons_of_mem t member)
    rw [List.length_cons]
    push_cast
    linarith

/-- A window of time holds at most one time more than the gaps that fit into it. -/
theorem Spaced.window (spaced : Spaced gap times) (nonneg : 0 ≤ gap) (ordered : now ≤ later) :
    (times.filter fun a => now ≤ a ∧ a ≤ later).length * gap ≤ later - now + gap := by
  have inside := spaced.sublist (List.filter_sublist (p := fun a => now ≤ a ∧ a ≤ later))
  have bounds : ∀ a ∈ times.filter fun a => now ≤ a ∧ a ≤ later, now ≤ a ∧ a ≤ later :=
    fun a member => by simpa using (List.mem_filter.mp member).2
  cases within : times.filter fun a => now ≤ a ∧ a ≤ later with
  | nil =>
    rw [List.length_nil]
    push_cast
    linarith
  | cons first rest =>
    rw [within] at inside bounds
    have count := Spaced.length_le inside fun a member => (bounds a member).2
    have early := (bounds first List.mem_cons_self).1
    rw [List.length_cons]
    push_cast
    linarith

/-- From the first of the times on, no moment until now is further than the delay
from the last time before it. -/
def Covers (delay now : ℤ) (times : List ℤ) : Prop :=
  ∀ moment ≤ now, (∃ t ∈ times, t ≤ moment) → ∃ t ∈ times, t ≤ moment ∧ moment ≤ t + delay

variable {delay : ℤ}

theorem covers_nil (delay now : ℤ) : Covers delay now [] := by
  rintro moment _ ⟨t, member, _⟩
  cases member

theorem Covers.pass (covers : Covers delay now times) (member : t ∈ times) (past : t ≤ now)
    (recent : later ≤ t + delay) : Covers delay later times := by
  intro moment until_later since
  by_cases known : moment ≤ now
  · exact covers moment known since
  · exact ⟨t, member, past.trans (not_le.mp known).le, until_later.trans recent⟩

theorem Covers.concat (covers : Covers delay now times) (nonneg : 0 ≤ delay) :
    Covers delay now (times ++ [now]) := by
  rintro moment until_now ⟨t, member, past⟩
  rcases List.mem_append.mp member with old | new
  · have ⟨t', known, bounds⟩ := covers moment until_now ⟨t, old, past⟩
    exact ⟨t', List.mem_append_left _ known, bounds⟩
  · rw [List.mem_singleton.mp new] at past
    exact ⟨now, by simp, past, by omega⟩

end PeriodicTimes

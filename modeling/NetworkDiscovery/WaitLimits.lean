import Mathlib.Algebra.BigOperators.Group.List.Basic
import Mathlib.Algebra.Order.Ring.Int
import NetworkDiscovery.EndpointCheck

/-! How long the check of an endpoint may wait. The timeout holds for each address
by itself, so a host with several addresses is waited for several times as long. -/

namespace NetworkDiscovery.SocketUtil

def waitLimit : SysCall → Option ℤ
  | .select _ seconds microseconds => some (seconds.toInt * 10 ^ 6 + microseconds.toInt)
  | _ => none

def waitLimits (calls : List SysCall) : List ℤ := calls.filterMap waitLimit

def Awaited (timeoutMs : Int32) (p : Address) : Prop :=
  0 ≤ timeoutMs ∧ ¬p.sockfd < 0 ∧ ¬Refused p

instance (timeoutMs : Int32) (p : Address) : Decidable (Awaited timeoutMs p) :=
  inferInstanceAs (Decidable (_ ∧ _))

theorem timeval_of_timeout (timeoutMs : Int32) (given : 0 ≤ timeoutMs) :
    0 ≤ (timeoutMs / 1000).toInt ∧ 0 ≤ (timeoutMs % 1000 * 1000).toInt ∧
      (timeoutMs % 1000 * 1000).toInt < 10 ^ 6 ∧
      (timeoutMs / 1000).toInt * 10 ^ 6 + (timeoutMs % 1000 * 1000).toInt =
        timeoutMs.toInt * 1000 := by
  have nonneg : 0 ≤ timeoutMs.toInt := Int32.le_iff_toInt_le.mp given
  have thousand : (1000 : Int32).toInt = 1000 := by decide
  have seconds : (timeoutMs / 1000).toInt = timeoutMs.toInt / 1000 := by
    rw [Int32.toInt_div_of_ne_right _ _ (by decide), thousand, Int.tdiv_eq_ediv_of_nonneg nonneg]
  have rest : (timeoutMs % 1000).toInt = timeoutMs.toInt % 1000 := by
    rw [Int32.toInt_mod, thousand, Int.tmod_eq_emod_of_nonneg nonneg]
  have microseconds : (timeoutMs % 1000 * 1000).toInt = timeoutMs.toInt % 1000 * 1000 := by
    rw [Int32.toInt_mul, rest, thousand, Int.bmod_eq_of_le] <;> omega
  rw [seconds, microseconds]
  omega

theorem waitLimits_address (timeoutMs : Int32) (p : Address) :
    waitLimits (addressCalls timeoutMs p) =
      if Awaited timeoutMs p then [timeoutMs.toInt * 1000] else [] := by
  by_cases unopened : p.sockfd < 0
  · simp [waitLimits, addressCalls, waitLimit, Awaited, unopened]
  · by_cases refused : Refused p
    · simp [waitLimits, addressCalls, sessionCalls, waitLimit, Awaited, unopened, refused]
    · by_cases given : 0 ≤ timeoutMs
      · have whole := (timeval_of_timeout timeoutMs given).2.2.2
        by_cases failed : WaitFailed timeoutMs p <;>
          simp [waitLimits, addressCalls, sessionCalls, waitLimit, Awaited, unopened, refused, given,
            failed, ← whole, List.filterMap_cons]
      · have ready : ¬WaitFailed timeoutMs p := fun failed => given failed.1
        simp [waitLimits, addressCalls, sessionCalls, waitLimit, Awaited, unopened, refused, given,
          ready]

theorem waitLimits_flatMap (timeoutMs : Int32) (addresses : List Address) :
    waitLimits (addresses.flatMap (addressCalls timeoutMs)) =
      List.replicate (addresses.countP fun p => Awaited timeoutMs p) (timeoutMs.toInt * 1000) := by
  induction addresses with
  | nil => rfl
  | cons p rest ih =>
    rw [List.flatMap_cons, waitLimits, List.filterMap_append]
    rw [waitLimits] at ih
    rw [ih]
    have own := waitLimits_address timeoutMs p
    rw [waitLimits] at own
    rw [own]
    by_cases awaited : Awaited timeoutMs p <;> simp [awaited, List.replicate_succ]

theorem tried_sublist (timeoutMs : Int32) (addresses : List Address) :
    (tried timeoutMs addresses).Sublist addresses := by
  induction addresses with
  | nil => exact List.Sublist.refl _
  | cons p rest ih =>
    rw [tried]
    split_ifs
    · exact (List.nil_sublist rest).cons_cons p
    · exact ih.cons_cons p

theorem select_called (timeoutMs : Int32) (p : Address) (fd seconds microseconds : Int32)
    (called : .select fd seconds microseconds ∈ addressCalls timeoutMs p) :
    0 ≤ timeoutMs ∧ seconds = timeoutMs / 1000 ∧ microseconds = timeoutMs % 1000 * 1000 := by
  unfold addressCalls sessionCalls at called
  split_ifs at called <;> simp_all

end NetworkDiscovery.SocketUtil

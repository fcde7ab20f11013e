import Mathlib.Tactic.Linarith
import Mathlib.Tactic.NormNum
import NetworkDiscovery.NlohmannJson

/-! A discovered service: its announced data and the expiry test. Times are the
64-bit counts of std::chrono, the system clock ticking in nanoseconds. -/

namespace NetworkDiscovery

/-- `metadataJson` is the lazily parsed cache of `metadata`. -/
structure ServiceDiscoveryRecord where
  serviceType : String
  lastHeartbeatSeconds : Int64
  heartbeatTimeout : Int32
  serviceUid : String
  metadata : String
  metadataJson : Option Json
  debug : Bool

namespace ServiceDiscoveryRecord

def create (serviceUid serviceType : String) (heartbeatTimeout lastHeartbeat : Int32)
    (debug : Bool) : ServiceDiscoveryRecord where
  serviceType := serviceType
  lastHeartbeatSeconds := lastHeartbeat.toInt64
  heartbeatTimeout := heartbeatTimeout
  serviceUid := serviceUid
  metadata := ""
  metadataJson := none
  debug := debug

def lastHeartbeat (r : ServiceDiscoveryRecord) : Int64 := r.lastHeartbeatSeconds

/-- `duration_cast<seconds>(now - last)`: the seconds widen to nanoseconds for
the subtraction, and the cast back truncates toward zero. -/
def timeDifference (now last : Int64) : Int64 := (now - last * 1000000000) / 1000000000

def isExpired (r : ServiceDiscoveryRecord) (now : Int64) : Bool :=
  decide (r.heartbeatTimeout.toInt < (timeDifference now r.lastHeartbeat).toInt)

def updateHeartbeat (r : ServiceDiscoveryRecord) (lastHeartbeat : Int32) :
    ServiceDiscoveryRecord :=
  { r with lastHeartbeatSeconds := lastHeartbeat.toInt64 }

def updateMetadata (r : ServiceDiscoveryRecord) (metadata : String) : ServiceDiscoveryRecord :=
  { r with metadata := metadata, metadataJson := none }

/-- The lazily parsed metadata, null if there is none. An exception of `parse`
leaves before the cache is stored. -/
def getMetadataJson (lib : Nlohmann) : EStateM CppException ServiceDiscoveryRecord (Option Json) := do
  if (← get).metadata.isEmpty then return none
  if (← get).metadataJson.isNone then
    match lib.parse (← get).metadata with
    | some parsed => modify fun r => { r with metadataJson := some parsed }
    | none => throw .parseError
  return (← get).metadataJson

theorem getMetadataJson_run (lib : Nlohmann) (r : ServiceDiscoveryRecord) :
    (getMetadataJson lib).run r =
      if r.metadata = "" then .ok none r
      else match r.metadataJson with
        | some json => .ok (some json) r
        | none => match lib.parse r.metadata with
          | some json => .ok (some json) { r with metadataJson := some json }
          | none => .error .parseError r := by
  have pointer (r : ServiceDiscoveryRecord) :
      (metadataJson <$> (get : EStateM CppException _ _)).run r = .ok r.metadataJson r := rfl
  by_cases empty : r.metadata = ""
  · simp [getMetadataJson, EStateM.run_bind, empty]
  · cases cache : r.metadataJson with
    | some json => simp [getMetadataJson, EStateM.run_bind, empty, cache, pointer]
    | none =>
      cases parsed : lib.parse r.metadata with
      | some json => simp [getMetadataJson, EStateM.run_bind, empty, cache, parsed, pointer]
      | none => simp [getMetadataJson, EStateM.run_bind, empty, cache, parsed]

def getHeartbeatTimeout (r : ServiceDiscoveryRecord) : Int32 := r.heartbeatTimeout

def getMetadata (r : ServiceDiscoveryRecord) : String := r.metadata

def getServiceType (r : ServiceDiscoveryRecord) : String := r.serviceType

def getServiceUid (r : ServiceDiscoveryRecord) : String := r.serviceUid

inductive Reachable : ServiceDiscoveryRecord → Prop
  | create (serviceUid serviceType : String) (heartbeatTimeout lastHeartbeat : Int32)
      (debug : Bool) :
      Reachable (create serviceUid serviceType heartbeatTimeout lastHeartbeat debug)
  | updateHeartbeat (r : ServiceDiscoveryRecord) (lastHeartbeat : Int32) :
      Reachable r → Reachable (r.updateHeartbeat lastHeartbeat)
  | updateMetadata (r : ServiceDiscoveryRecord) (metadata : String) :
      Reachable r → Reachable (r.updateMetadata metadata)

theorem Reachable.exists_heartbeat {r : ServiceDiscoveryRecord} (reachable : Reachable r) :
    ∃ heartbeat : Int32, r.lastHeartbeat = heartbeat.toInt64 := by
  induction reachable with
  | create _ _ _ heartbeat _ => exact ⟨heartbeat, rfl⟩
  | updateHeartbeat _ heartbeat _ _ => exact ⟨heartbeat, rfl⟩
  | updateMetadata _ _ _ ih => exact ih

/-- The expiry rule in whole seconds, without machine arithmetic. -/
def Overdue (now : ℤ) (last timeout : ℤ) : Prop :=
  timeout < (now - last * 1000000000).tdiv 1000000000

instance (now last timeout : ℤ) : Decidable (Overdue now last timeout) :=
  inferInstanceAs (Decidable (timeout < (now - last * 1000000000).tdiv 1000000000))

def DifferenceFits (now : Int64) (lastHeartbeat : Int32) : Prop :=
  -2 ^ 63 ≤ now.toInt - lastHeartbeat.toInt * 1000000000 ∧
    now.toInt - lastHeartbeat.toInt * 1000000000 < 2 ^ 63

instance (now : Int64) (lastHeartbeat : Int32) : Decidable (DifferenceFits now lastHeartbeat) :=
  inferInstanceAs (Decidable (_ ∧ _))

theorem toInt64_inj {a b : Int32} (h : a.toInt64 = b.toInt64) : a = b := by
  have same := congrArg Int64.toInt h
  rw [Int32.toInt_toInt64, Int32.toInt_toInt64] at same
  exact Int32.toInt_inj.mp same

def ExactDifference (now last : Int64) : Prop :=
  (last * 1000000000).toInt = last.toInt * 1000000000 ∧
  (now - last * 1000000000).toInt = now.toInt - last.toInt * 1000000000 ∧
  (timeDifference now last).toInt = (now.toInt - last.toInt * 1000000000).tdiv 1000000000

instance (now last : Int64) : Decidable (ExactDifference now last) :=
  inferInstanceAs (Decidable (_ ∧ _ ∧ _))

theorem exactDifference (now last : Int64)
    (widened : -2 ^ 63 ≤ last.toInt * 1000000000 ∧ last.toInt * 1000000000 < 2 ^ 63)
    (difference : -2 ^ 63 ≤ now.toInt - last.toInt * 1000000000 ∧
      now.toInt - last.toInt * 1000000000 < 2 ^ 63) :
    ExactDifference now last := by
  have billion : (1000000000 : Int64).toInt = 1000000000 := rfl
  have nanos : (last * 1000000000).toInt = last.toInt * 1000000000 := by
    rw [Int64.toInt_mul, billion]
    refine Int.bmod_eq_of_le ?_ ?_ <;> norm_num <;> omega
  have gap : (now - last * 1000000000).toInt = now.toInt - last.toInt * 1000000000 := by
    rw [Int64.toInt_sub, nanos]
    refine Int.bmod_eq_of_le ?_ ?_ <;> norm_num <;> omega
  refine ⟨nanos, gap, ?_⟩
  rw [timeDifference, Int64.toInt_div, gap, billion]
  have lower : (-2 ^ 63 : ℤ).tdiv 1000000000 ≤ _ := Int.tdiv_le_tdiv (by norm_num) difference.1
  have upper : _ ≤ (2 ^ 63 : ℤ).tdiv 1000000000 := Int.tdiv_le_tdiv (by norm_num) difference.2.le
  rw [show (-2 ^ 63 : ℤ).tdiv 1000000000 = -9223372036 from rfl] at lower
  rw [show (2 ^ 63 : ℤ).tdiv 1000000000 = 9223372036 from rfl] at upper
  refine Int.bmod_eq_of_le ?_ ?_ <;> norm_num <;> omega

theorem isExpired_of_exact (r : ServiceDiscoveryRecord) (now : Int64)
    (exact : ExactDifference now r.lastHeartbeat) :
    r.isExpired now = true ↔
      Overdue now.toInt r.lastHeartbeat.toInt r.heartbeatTimeout.toInt := by
  rw [isExpired, decide_eq_true_iff, exact.2.2, Overdue]

theorem isExpired_iff (r : ServiceDiscoveryRecord) (now : Int64)
    (widened : -2 ^ 63 ≤ r.lastHeartbeat.toInt * 1000000000 ∧
      r.lastHeartbeat.toInt * 1000000000 < 2 ^ 63)
    (difference : -2 ^ 63 ≤ now.toInt - r.lastHeartbeat.toInt * 1000000000 ∧
      now.toInt - r.lastHeartbeat.toInt * 1000000000 < 2 ^ 63) :
    r.isExpired now = true ↔
      Overdue now.toInt r.lastHeartbeat.toInt r.heartbeatTimeout.toInt := by
  exact isExpired_of_exact r now (exactDifference now _ widened difference)

theorem isExpired_of_fits (r : ServiceDiscoveryRecord) (now : Int64) (heartbeat : Int32)
    (announced : r.lastHeartbeat = heartbeat.toInt64) (fits : DifferenceFits now heartbeat) :
    r.isExpired now = true ↔ Overdue now.toInt heartbeat.toInt r.heartbeatTimeout.toInt := by
  have low := Int32.le_toInt heartbeat
  have high := Int32.toInt_lt heartbeat
  have same : r.lastHeartbeat.toInt = heartbeat.toInt := by rw [announced, Int32.toInt_toInt64]
  rw [isExpired_iff r now (by rw [same]; omega) (by rw [same]; exact fits), same]

end ServiceDiscoveryRecord

end NetworkDiscovery

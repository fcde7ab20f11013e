import Mathlib.Data.List.Pairwise
import NetworkDiscovery.Library.ActionRuns
import NetworkDiscovery.Library.TruncatedDivision
import NetworkDiscovery.ServiceDiscoveryClient

/-! Expiry over time. A record expires at an exact nanosecond and stays expired
until its next heartbeat, so a sweep that reads the clock anew for every record
is bounded by its first and its last reading. -/

namespace NetworkDiscovery

namespace ServiceDiscoveryRecord

/-- The clock readings for which the difference to every 32-bit heartbeat fits. -/
def InClockRange (now : Int64) : Prop :=
  0 ≤ now.toInt ∧ now.toInt ≤ 2 ^ 63 - 1 - 2 ^ 31 * 10 ^ 9

theorem Reachable.exactDifference {r : ServiceDiscoveryRecord} (reachable : Reachable r)
    (now : Int64) (range : InClockRange now) : ExactDifference now r.lastHeartbeat := by
  obtain ⟨heartbeat, stored⟩ := reachable.exists_heartbeat
  have same : r.lastHeartbeat.toInt = heartbeat.toInt := by rw [stored, Int32.toInt_toInt64]
  have low := Int32.le_toInt heartbeat
  have high := Int32.toInt_lt heartbeat
  obtain ⟨early, late⟩ := range
  refine ServiceDiscoveryRecord.exactDifference now _ ?_ ?_ <;> rw [same] <;> omega

theorem Overdue.mono {now later last earlier timeout : ℤ}
    (h : Overdue now last timeout) (time : now ≤ later) (heartbeat : earlier ≤ last) :
    Overdue later earlier timeout := by
  have gap : now - last * 1000000000 ≤ later - earlier * 1000000000 := by omega
  exact lt_of_lt_of_le h (Int.tdiv_le_tdiv (by norm_num) gap)

theorem expired_later (r : ServiceDiscoveryRecord) (now later : Int64)
    (defined : ExactDifference now r.lastHeartbeat)
    (later_defined : ExactDifference later r.lastHeartbeat) (time : now.toInt ≤ later.toInt)
    (expired : r.isExpired now = true) : r.isExpired later = true := by
  rw [isExpired_of_exact r now defined] at expired
  rw [isExpired_of_exact r later later_defined]
  exact expired.mono time le_rfl

theorem overdue_iff (now last timeout : ℤ) :
    (0 ≤ timeout → (Overdue now last timeout ↔
      (timeout + 1) * 10 ^ 9 ≤ now - last * 10 ^ 9)) ∧
    (timeout < 0 → (Overdue now last timeout ↔ timeout * 10 ^ 9 < now - last * 10 ^ 9)) := by
  have billion : (10 : ℤ) ^ 9 = 1000000000 := by norm_num
  rw [billion]
  exact ⟨fun nonneg => TruncatedDivision.lt_tdiv_iff_of_nonneg (by norm_num) nonneg,
    fun negative => TruncatedDivision.lt_tdiv_iff_of_neg (by norm_num) negative⟩

/-- The expiry test is exact to the nanosecond at every reading of the clock
range, and monotone in the time and in the heartbeat. -/
def ExactExpiry (r : ServiceDiscoveryRecord) : Prop :=
  (∀ now, InClockRange now → ExactDifference now r.lastHeartbeat ∧
    (0 ≤ r.heartbeatTimeout.toInt → (r.isExpired now = true ↔
      (r.heartbeatTimeout.toInt + 1) * 10 ^ 9 ≤ now.toInt - r.lastHeartbeat.toInt * 10 ^ 9)) ∧
    (r.heartbeatTimeout.toInt < 0 → (r.isExpired now = true ↔
      r.heartbeatTimeout.toInt * 10 ^ 9 < now.toInt - r.lastHeartbeat.toInt * 10 ^ 9))) ∧
  (∀ now later, InClockRange now → InClockRange later → now.toInt ≤ later.toInt →
    r.isExpired now = true → r.isExpired later = true) ∧
  ∀ now (heartbeat : Int32), InClockRange now → r.lastHeartbeat.toInt ≤ heartbeat.toInt →
    r.isExpired now = false → (r.updateHeartbeat heartbeat).isExpired now = false

theorem exactExpiry (r : ServiceDiscoveryRecord) (reachable : Reachable r) : ExactExpiry r := by
  have exact (r : ServiceDiscoveryRecord) (reachable : Reachable r) (now : Int64)
      (range : InClockRange now) :=
    isExpired_of_exact r now (reachable.exactDifference now range)
  refine ⟨fun now range => ?_, fun now later range later_range time expired => ?_,
    fun now heartbeat range larger live => ?_⟩
  · rw [exact r reachable now range]
    exact ⟨reachable.exactDifference now range, overdue_iff _ _ _⟩
  · exact expired_later r now later (reachable.exactDifference now range)
      (reachable.exactDifference later later_range) time expired
  · have updated := Reachable.updateHeartbeat r heartbeat reachable
    rw [← Bool.not_eq_true, exact _ updated now range]
    rw [← Bool.not_eq_true, exact r reachable now range] at live
    intro expired
    have stored : (r.updateHeartbeat heartbeat).lastHeartbeat.toInt = heartbeat.toInt :=
      Int32.toInt_toInt64 heartbeat
    rw [stored] at expired
    exact live (expired.mono le_rfl larger)

theorem exactExpiry_updated :
    ExactExpiry ((create "a" "A" (-5) 1000 false).updateHeartbeat (-2000)) :=
  exactExpiry _ (.updateHeartbeat _ _ (.create "a" "A" (-5) 1000 false))

end ServiceDiscoveryRecord

/-! ### The loop of check_services -/

namespace SweepLoop
open ServiceDiscoveryRecord ServiceDiscoveryClient ActionRuns

/-- The loop between two iterations: the map in its iteration order, the place
of the iterator in it, and the ids whose expiry has been tested. -/
structure Sweep where
  services : List (String × ServiceDiscoveryRecord)
  it : ℕ
  examined : List String

def begin (services : Services) : Sweep := ⟨services.entries, 0, []⟩

/-- One iteration, at the clock reading that its call of `is_expired` takes.
`erase` gives the iterator of the element behind, in the place of the erased one. -/
def step (s : Sweep) (now : Int64) : Option Sweep :=
  match s.services[s.it]? with
  | none => none
  | some service =>
    if service.2.isExpired now then
      some ⟨s.services.eraseIdx s.it, s.it, s.examined ++ [service.1]⟩
    else some ⟨s.services, s.it + 1, s.examined ++ [service.1]⟩

/-- `it == services.end()` -/
def Ended (s : Sweep) : Prop := s.it = s.services.length

def survivors (services : List (String × ServiceDiscoveryRecord)) (readings : List Int64) :
    List (String × ServiceDiscoveryRecord) :=
  ((services.zip readings).filter fun judged => !judged.1.2.isExpired judged.2).map Prod.fst

theorem survivors_cons (service : String × ServiceDiscoveryRecord)
    (rest : List (String × ServiceDiscoveryRecord)) (now : Int64) (later : List Int64) :
    survivors (service :: rest) (now :: later) =
      if service.2.isExpired now then survivors rest later
      else service :: survivors rest later := by
  by_cases expired : service.2.isExpired now <;> simp [survivors, expired]

theorem step_expired (passed rest : List (String × ServiceDiscoveryRecord))
    (service : String × ServiceDiscoveryRecord) (seen : List String) (now : Int64)
    (expired : service.2.isExpired now = true) :
    step ⟨passed ++ service :: rest, passed.length, seen⟩ now =
      some ⟨passed ++ rest, passed.length, seen ++ [service.1]⟩ := by
  simp [step, expired, List.eraseIdx_append_of_length_le]

theorem step_live (passed rest : List (String × ServiceDiscoveryRecord))
    (service : String × ServiceDiscoveryRecord) (seen : List String) (now : Int64)
    (live : service.2.isExpired now = false) :
    step ⟨passed ++ service :: rest, passed.length, seen⟩ now =
      some ⟨passed ++ service :: rest, (passed ++ [service]).length, seen ++ [service.1]⟩ := by
  simp [step, live]

theorem run_remaining (remaining passed : List (String × ServiceDiscoveryRecord))
    (seen : List String) (readings : List Int64) (enough : readings.length = remaining.length) :
    run step ⟨passed ++ remaining, passed.length, seen⟩ readings =
      some ⟨passed ++ survivors remaining readings,
        (passed ++ survivors remaining readings).length, seen ++ remaining.map Prod.fst⟩ := by
  induction remaining generalizing passed seen readings with
  | nil =>
    obtain rfl : readings = [] := List.length_eq_zero_iff.mp enough
    simp [run, survivors]
  | cons service rest ih =>
    cases readings with
    | nil => cases enough
    | cons now later =>
      have fewer : later.length = rest.length := Nat.succ.inj enough
      rw [run, List.foldlM_cons, survivors_cons]
      by_cases expired : service.2.isExpired now
      · rw [step_expired passed rest service seen now expired, if_pos expired]
        have tail := ih passed (seen ++ [service.1]) later fewer
        simpa [run] using tail
      · have live : service.2.isExpired now = false := by simpa using expired
        rw [step_live passed rest service seen now live, if_neg expired]
        have tail := ih (passed ++ [service]) (seen ++ [service.1]) later fewer
        simpa [run] using tail

theorem run_begin (services : Services) (readings : List Int64)
    (enough : readings.length = services.entries.length) :
    run step (begin services) readings =
      some ⟨survivors services.entries readings, (survivors services.entries readings).length,
        services.keys⟩ :=
  run_remaining services.entries [] [] readings enough

theorem zip_fst (services : Services) (readings : List Int64)
    (enough : readings.length = services.entries.length) :
    (services.entries.zip readings).map Prod.fst = services.entries :=
  List.map_fst_zip enough.ge

/-- The loop is the sweep of the model, with the clock that each record met. -/
theorem survivors_eq_checkServices (services : Services) (readings : List Int64)
    (enough : readings.length = services.entries.length) :
    ∃ clock : String → Int64,
      (∀ judged ∈ services.entries.zip readings, clock judged.1.1 = judged.2) ∧
      survivors services.entries readings = (checkServices clock services).entries := by
  let times := services.keys.zip readings
  have distinct : (times.map Prod.fst).Nodup := by
    rw [List.map_fst_zip (by simp [UnorderedMap.keys, enough])]
    exact services.nodup
  let clock (id : String) : Int64 := (times.lookup id).getD 0
  have met : ∀ judged ∈ services.entries.zip readings, clock judged.1.1 = judged.2 := by
    rintro ⟨service, now⟩ member
    have timed : (service.1, now) ∈ times := by
      show _ ∈ (services.entries.map Prod.fst).zip readings
      rw [List.zip_map_left]
      exact List.mem_map.mpr ⟨(service, now), member, rfl⟩
    have found := (UnorderedMap.lookup_eq_some_iff_mem distinct service.1 now).mpr timed
    simp [clock, found]
  refine ⟨clock, met, ?_⟩
  show _ = checkFrom clock [] services.entries
  rw [checkFrom_eq, List.nil_append]
  conv_rhs => rw [← zip_fst services readings enough, List.filter_map]
  rw [survivors]
  apply congrArg
  refine List.filter_congr fun judged member => ?_
  rw [Function.comp_apply, met judged member]

theorem first_le {readings : List Int64} (sorted : readings.Pairwise fun a b => a.toInt ≤ b.toInt)
    {first now : Int64} (starts : first ∈ readings.head?) (member : now ∈ readings) :
    first.toInt ≤ now.toInt := by
  have least := sorted.rel_head_of_rel_head_head member le_rfl
  rwa [List.head_of_mem_head? starts] at least

theorem le_last {readings : List Int64} (sorted : readings.Pairwise fun a b => a.toInt ≤ b.toInt)
    {last now : Int64} (ends : last ∈ readings.getLast?) (member : now ∈ readings) :
    now.toInt ≤ last.toInt := by
  have greatest := sorted.rel_getLast_of_rel_getLast_getLast member le_rfl
  rwa [List.getLast_of_mem_getLast? ends] at greatest

/-- What a sweep promises when its calls of `is_expired` read the given times:
an end, each record tested once, and for the records whose time differences are
all defined, what is expired at first is gone and what is live at last is kept. -/
def SweepBounded (services : Services) (readings : List Int64) : Prop :=
  ∃ s, run step (begin services) readings = some s ∧ Ended s ∧
    s.examined = services.keys ∧ services.keys.Nodup ∧
    s.services.Sublist services.entries ∧
    ∀ service ∈ services.entries, (∀ now ∈ readings, ExactDifference now service.2.lastHeartbeat) →
      (∀ first ∈ readings.head?, service.2.isExpired first = true → service ∉ s.services) ∧
      ∀ last ∈ readings.getLast?, service.2.isExpired last = false → service ∈ s.services

theorem sweep_bounded (services : Services) (readings : List Int64)
    (enough : readings.length = services.entries.length)
    (sorted : readings.Pairwise fun a b => a.toInt ≤ b.toInt) :
    SweepBounded services readings := by
  have whole := zip_fst services readings enough
  refine ⟨_, run_begin services readings enough, rfl, rfl, services.nodup, ?_, ?_⟩
  · have kept : (survivors services.entries readings).Sublist
        ((services.entries.zip readings).map Prod.fst) := List.filter_sublist.map Prod.fst
    rwa [whole] at kept
  · intro service member defined
    constructor
    · intro first starts expired kept
      obtain ⟨⟨_, now⟩, judged, rfl⟩ := List.mem_map.mp kept
      obtain ⟨paired, live⟩ := List.mem_filter.mp judged
      have read := (List.of_mem_zip paired).2
      have late := expired_later _ first now (defined first (List.mem_of_mem_head? starts))
        (defined now read) (first_le sorted starts read) expired
      simp [late] at live
    · intro last ends live
      rw [← whole] at member
      obtain ⟨⟨_, now⟩, paired, rfl⟩ := List.mem_map.mp member
      have read := (List.of_mem_zip paired).2
      refine List.mem_map.mpr ⟨_, List.mem_filter.mpr ⟨paired, ?_⟩, rfl⟩
      by_contra expired
      have late := expired_later _ now last (defined now read)
        (defined last (List.mem_of_mem_getLast? ends)) (le_last sorted ends read)
        (by simpa using expired)
      rw [late] at live
      cases live

def sampleRegistry : Services :=
  (UnorderedMap.empty.emplace .atEnd "a" (ServiceDiscoveryRecord.create "a" "A" 120 900 false)).emplace
    .atEnd "b" (ServiceDiscoveryRecord.create "b" "B" 120 1000 false)

def sampleReadings : List Int64 := [1100000000000, 1100000000500]

theorem sweep_bounded_sample : SweepBounded sampleRegistry sampleReadings :=
  sweep_bounded sampleRegistry sampleReadings rfl (by decide)

example : survivors sampleRegistry.entries sampleReadings =
    [("b", ServiceDiscoveryRecord.create "b" "B" 120 1000 false)] := rfl

end SweepLoop

end NetworkDiscovery

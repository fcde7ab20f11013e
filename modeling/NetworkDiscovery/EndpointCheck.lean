import NetworkDiscovery.SocketUtil

/-! What the check of an endpoint calls in all, and what it reports. An address is
taken for connected where no error is found, though without a timeout nothing
has waited for its connection. -/

namespace NetworkDiscovery.SocketUtil

def Refused (p : Address) : Prop := p.connected < 0 ∧ p.errno ≠ EINPROGRESS

instance (p : Address) : Decidable (Refused p) := inferInstanceAs (Decidable (_ ∧ _))

def WaitFailed (timeoutMs : Int32) (p : Address) : Prop := 0 ≤ timeoutMs ∧ p.selected ≤ 0

instance (timeoutMs : Int32) (p : Address) : Decidable (WaitFailed timeoutMs p) :=
  inferInstanceAs (Decidable (_ ∧ _))

def Accepted (timeoutMs : Int32) (p : Address) : Prop :=
  ¬p.sockfd < 0 ∧ ¬Refused p ∧ ¬WaitFailed timeoutMs p ∧ p.soError = 0

instance (timeoutMs : Int32) (p : Address) : Decidable (Accepted timeoutMs p) :=
  inferInstanceAs (Decidable (_ ∧ _))

def sessionCalls (timeoutMs : Int32) (p : Address) : List SysCall :=
  [.getFlags p.sockfd, .setFlags p.sockfd (p.flags ||| O_NONBLOCK), .connect p.sockfd] ++
    if Refused p then []
    else (if 0 ≤ timeoutMs then
        [.select p.sockfd (timeoutMs / 1000) (timeoutMs % 1000 * 1000)] else []) ++
      if WaitFailed timeoutMs p then [] else [.getsockopt p.sockfd p.soError]

def addressCalls (timeoutMs : Int32) (p : Address) : List SysCall :=
  .socket p.sockfd :: if p.sockfd < 0 then [] else sessionCalls timeoutMs p ++ [.close p.sockfd]

theorem checkError_run (p : Address) (calls : List SysCall) :
    (checkError p).run calls =
      pure (decide (p.soError = 0), calls ++ [.getsockopt p.sockfd p.soError, .close p.sockfd]) := by
  by_cases failed : p.soError = 0
  · simp [checkError, sys, failed]
  · simp [checkError, sys, giveUp, failed]

theorem awaitConnection_run (timeoutMs : Int32) (p : Address) (calls : List SysCall) :
    (awaitConnection timeoutMs p).run calls =
      pure (decide (¬WaitFailed timeoutMs p ∧ p.soError = 0), calls ++
        ((if 0 ≤ timeoutMs then
            [.select p.sockfd (timeoutMs / 1000) (timeoutMs % 1000 * 1000)] else []) ++
          if WaitFailed timeoutMs p then [] else [.getsockopt p.sockfd p.soError]) ++
        [.close p.sockfd]) := by
  by_cases waits : 0 ≤ timeoutMs
  · by_cases late : p.selected ≤ 0
    · have failed : WaitFailed timeoutMs p := ⟨waits, late⟩
      simp [awaitConnection, sys, giveUp, waits, late, failed]
    · have ready : ¬WaitFailed timeoutMs p := fun failed => late failed.2
      simp [awaitConnection, sys, checkError_run, waits, late, ready]
  · have ready : ¬WaitFailed timeoutMs p := fun failed => waits failed.1
    simp [awaitConnection, checkError_run, waits, ready]

theorem tryAddress_run (timeoutMs : Int32) (p : Address) (calls : List SysCall) :
    (tryAddress timeoutMs p).run calls =
      pure (decide (Accepted timeoutMs p), calls ++ addressCalls timeoutMs p) := by
  by_cases unopened : p.sockfd < 0
  · simp [tryAddress, sys, Accepted, addressCalls, unopened]
  · by_cases refused : Refused p
    · have answers : p.connected < 0 ∧ p.errno ≠ EINPROGRESS := refused
      simp [tryAddress, sys, giveUp, Accepted, addressCalls, sessionCalls, unopened, refused, answers]
    · have answers : ¬(p.connected < 0 ∧ p.errno ≠ EINPROGRESS) := refused
      simp only [tryAddress, sys, StateT.run_bind, StateT.run_modify, pure_bind, if_neg unopened,
        if_neg answers, awaitConnection_run]
      simp [Accepted, addressCalls, sessionCalls, unopened, refused]

def tried (timeoutMs : Int32) : List Address → List Address
  | [] => []
  | p :: rest => p :: if Accepted timeoutMs p then [] else tried timeoutMs rest

theorem tryAddresses_run (timeoutMs : Int32) (addresses : List Address) (calls : List SysCall) :
    (tryAddresses timeoutMs addresses).run calls =
      pure (decide (∃ p ∈ tried timeoutMs addresses, Accepted timeoutMs p),
        calls ++ (tried timeoutMs addresses).flatMap (addressCalls timeoutMs)) := by
  induction addresses generalizing calls with
  | nil => simp [tryAddresses, tried]
  | cons p rest ih =>
    rw [tryAddresses, StateT.run_bind, tryAddress_run, pure_bind]
    by_cases accepted : Accepted timeoutMs p
    · simp [tried, accepted]
    · simp [tried, accepted, ih]

theorem checkTCPEndpoint_run (host : String) (port : Int32) (resolved : Option (List Address))
    (timeoutMs : Int32) :
    (checkTCPEndpoint host port resolved timeoutMs).run [] =
      pure (decide (∃ p ∈ tried timeoutMs (resolved.getD []), Accepted timeoutMs p),
        .getaddrinfo host (toString port) ::
          ((tried timeoutMs (resolved.getD [])).flatMap (addressCalls timeoutMs) ++
            if resolved.isSome then [.freeaddrinfo] else [])) := by
  cases resolved with
  | none => rfl
  | some addresses => simp [checkTCPEndpoint, sys, tryAddresses_run]

def verdict (host : String) (port : Int32) (resolved : Option (List Address)) (timeoutMs : Int32) :
    Bool := ((checkTCPEndpoint host port resolved timeoutMs).run []).1

def checkCalls (host : String) (port : Int32) (resolved : Option (List Address))
    (timeoutMs : Int32) : List SysCall :=
  ((checkTCPEndpoint host port resolved timeoutMs).run []).2

theorem verdict_iff (host : String) (port : Int32) (resolved : Option (List Address))
    (timeoutMs : Int32) : verdict host port resolved timeoutMs = true ↔
      ∃ p ∈ tried timeoutMs (resolved.getD []), Accepted timeoutMs p := by
  rw [verdict, checkTCPEndpoint_run]
  exact decide_eq_true_iff

theorem checkCalls_eq (host : String) (port : Int32) (resolved : Option (List Address))
    (timeoutMs : Int32) : checkCalls host port resolved timeoutMs =
      .getaddrinfo host (toString port) ::
        ((tried timeoutMs (resolved.getD [])).flatMap (addressCalls timeoutMs) ++
          if resolved.isSome then [.freeaddrinfo] else []) := by
  rw [checkCalls, checkTCPEndpoint_run]
  rfl

section

/-- What the system promises of its answers: a descriptor that is not opened or
refused does not connect, one that `connect` or, after a wait, `select` and
`SO_ERROR` report as connected does. -/
structure Coherent (timeoutMs : Int32) (p : Address) : Prop where
  opened : p.established = true → ¬p.sockfd < 0
  unrefused : p.established = true → ¬Refused p
  immediate : ¬p.sockfd < 0 → ¬p.connected < 0 → p.established = true
  writable : ¬p.sockfd < 0 → p.connected < 0 → p.errno = EINPROGRESS → 0 ≤ timeoutMs →
    0 < p.selected → p.soError = 0 → p.established = true

def ReportsEstablished (host : String) (port : Int32) (resolved : Option (List Address))
    (timeoutMs : Int32) : Prop :=
  verdict host port resolved timeoutMs = true ↔
    ∃ p ∈ tried timeoutMs (resolved.getD []), p.established = true

def Pending (timeoutMs : Int32) (p : Address) : Prop :=
  timeoutMs < 0 ∧ ¬p.sockfd < 0 ∧ p.connected < 0 ∧ p.errno = EINPROGRESS ∧ p.soError = 0 ∧
    p.established = false

def Abandoned (timeoutMs : Int32) (p : Address) : Prop :=
  p.established = true ∧ (WaitFailed timeoutMs p ∨ p.soError ≠ 0)

theorem pending_iff (timeoutMs : Int32) (p : Address) (coherent : Coherent timeoutMs p) :
    Pending timeoutMs p ↔ Accepted timeoutMs p ∧ p.established = false := by
  constructor
  · rintro ⟨no_wait, opened, _, in_progress, no_error, unconnected⟩
    have unrefused : ¬Refused p := fun refused => refused.2 in_progress
    have unfailed : ¬WaitFailed timeoutMs p := fun failed => Int32.not_le.mpr no_wait failed.1
    exact ⟨⟨opened, unrefused, unfailed, no_error⟩, unconnected⟩
  · rintro ⟨⟨opened, unrefused, unfailed, no_error⟩, unconnected⟩
    have not_established : p.established ≠ true := Bool.eq_false_iff.mp unconnected
    have begun : p.connected < 0 := by
      by_contra immediate
      exact not_established (coherent.immediate opened immediate)
    have in_progress : p.errno = EINPROGRESS := by
      by_contra other
      exact unrefused ⟨begun, other⟩
    have no_wait : timeoutMs < 0 := by
      by_contra wait
      have waits := Int32.not_lt.mp wait
      have ready : 0 < p.selected := Int32.not_le.mp fun late => unfailed ⟨waits, late⟩
      exact not_established (coherent.writable opened begun in_progress waits ready no_error)
    exact ⟨no_wait, opened, begun, in_progress, no_error, unconnected⟩

theorem abandoned_iff (timeoutMs : Int32) (p : Address) (coherent : Coherent timeoutMs p) :
    Abandoned timeoutMs p ↔ ¬Accepted timeoutMs p ∧ p.established = true := by
  constructor
  · rintro ⟨established, given_up⟩
    refine ⟨?_, established⟩
    rintro ⟨_, _, unfailed, no_error⟩
    exact given_up.elim unfailed fun error => error no_error
  · rintro ⟨rejected, established⟩
    refine ⟨established, ?_⟩
    by_contra neither
    have ⟨unfailed, no_error⟩ := not_or.mp neither
    exact rejected ⟨coherent.opened established, coherent.unrefused established, unfailed,
      not_not.mp no_error⟩

theorem accepted_unique (timeoutMs : Int32) (addresses : List Address) (p q : Address)
    (first : p ∈ tried timeoutMs addresses) (second : q ∈ tried timeoutMs addresses)
    (accepted : Accepted timeoutMs p) (also : Accepted timeoutMs q) : p = q := by
  induction addresses with
  | nil => cases first
  | cons head rest ih =>
    rw [tried] at first second
    by_cases stops : Accepted timeoutMs head
    · rw [if_pos stops, List.mem_singleton] at first second
      rw [first, second]
    · rw [if_neg stops, List.mem_cons] at first second
      have later := first.resolve_left fun here => stops (here ▸ accepted)
      have also_later := second.resolve_left fun here => stops (here ▸ also)
      exact ih later also_later

/-- A connection left pending comes after one that was given up although it came
to stand, and where one was given up like that, some address is taken for connected. -/
def MistakesCancel (resolved : Option (List Address)) (timeoutMs : Int32) : Prop :=
  ((∃ p ∈ tried timeoutMs (resolved.getD []), Pending timeoutMs p) →
    ∃ p ∈ tried timeoutMs (resolved.getD []), Abandoned timeoutMs p) ∧
  ((∃ p ∈ tried timeoutMs (resolved.getD []), Abandoned timeoutMs p) →
    ∃ p ∈ tried timeoutMs (resolved.getD []), Accepted timeoutMs p)

def silentHost : Address := ⟨3, 2, -1, EINPROGRESS, 0, 0, false⟩

theorem silentHost_coherent (timeoutMs : Int32) : Coherent timeoutMs silentHost := by
  refine ⟨fun no => ?_, fun no => ?_, fun _ no => ?_, fun _ _ _ _ no => ?_⟩
  · cases no
  · cases no
  · exact absurd (by decide) no
  · exact absurd no (by decide)

end

end NetworkDiscovery.SocketUtil

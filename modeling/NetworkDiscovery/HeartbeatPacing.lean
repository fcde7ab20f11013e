import NetworkDiscovery.Library.PeriodicTimes
import NetworkDiscovery.RegistryOrigins

/-! The presences of one client over time. However its connection comes and
goes, the sleep of the heartbeat thread keeps them apart; and as long as nothing
holds the thread up or stops it, none is far from the next. -/

namespace NetworkDiscovery.DiscoveryNetwork
open ActionRuns PeriodicTimes

def period (seconds : Int32) : ℤ := max 0 (seconds.toInt * 10 ^ 9)

theorem period_nonneg (seconds : Int32) : 0 ≤ period seconds := le_max_left 0 _

theorem sleepUntil_eq (now : ℤ) (seconds : Int32) : sleepUntil now seconds = now + period seconds :=
  rfl

section
variable {ι : Type*} [DecidableEq ι] {lib : Nlohmann} {settings : ι → Settings}
  {actions : List (Action ι)} {s : Network ι}

def beats (s : Network ι) (i : ι) : List ℤ :=
  (s.published.filter fun p => p.sender = i).map Presence.sentAt

theorem mem_beats (s : Network ι) (i : ι) (t : ℤ) :
    t ∈ beats s i ↔ ∃ p ∈ s.published, p.sender = i ∧ p.sentAt = t := by
  simp [beats, and_assoc]

theorem beats_step (t t' : Network ι) (a : Action ι) (taken : step lib settings t a = some t')
    (i : ι) :
    (∃ reading, a = .heartbeat i reading ∧ beats t' i = beats t i ++ [t.now]) ∨
      beats t' i = beats t i ∧ ∀ reading, a = .heartbeat i reading →
        ¬((t.nodes i).connected = true ∧ (t.nodes i).heartbeatEnabled = true) := by
  have effect := step_effect lib settings t t' a taken
  by_cases beat : ∃ j reading, a = .heartbeat j reading
  · obtain ⟨j, reading, rfl⟩ := beat
    have ⟨_, _, published⟩ := effect.heartbeat j reading rfl
    split_ifs at published with publishes
    · have ⟨p, ⟨sender, sentAt, _⟩, grown⟩ := published
      by_cases own : j = i
      · subst own
        exact .inl ⟨reading, rfl, by simp [beats, grown, sender, sentAt]⟩
      · refine .inr ⟨by simp [beats, grown, sender, own], ?_⟩
        rintro other ⟨⟩
        exact absurd rfl own
    · refine .inr ⟨by rw [beats, published, beats], ?_⟩
      rintro other ⟨⟩
      rwa [Bool.and_eq_true] at publishes
  · have silent := effect.silent fun j reading is => beat ⟨j, reading, is⟩
    exact .inr ⟨by rw [beats, silent, beats], fun reading is => absurd ⟨i, reading, is⟩ beat⟩

theorem later_step (t t' : Network ι) (a : Action ι) (taken : step lib settings t a = some t') :
    t.now ≤ t'.now := by
  rw [(step_effect lib settings t t' a taken).now]
  cases a <;> simp

theorem beats_le_now (ran : run (step lib settings) (start settings) actions = some s) (i : ι) :
    ∀ t ∈ beats s i, t ≤ s.now := by
  intro t member
  obtain ⟨p, published, _, rfl⟩ := (mem_beats s i t).mp member
  exact (run_published ran p published).1

structure Paced (settings : ι → Settings) (i : ι) (s : Network ι) : Prop where
  spaced : Spaced (period (settings i).heartbeatInterval) (beats s i)
  asleep : ∀ t ∈ beats s i, t + period (settings i).heartbeatInterval ≤ (s.nodes i).nextHeartbeat

theorem run_paced (ran : run (step lib settings) (start settings) actions = some s) (i : ι) :
    Paced settings i s := by
  refine run_induction (step lib settings) ?_ ?_ actions s ran
  · exact ⟨spaced_nil _, nofun⟩
  · intro actions t a t' reached ih taken
    have effect := step_effect lib settings t t' a taken
    have nonneg := period_nonneg (settings i).heartbeatInterval
    rcases beats_step t t' a taken i with ⟨reading, is, grown⟩ | ⟨same, _⟩
    · have ⟨awake, slept, _⟩ := effect.heartbeat i reading is
      rw [sleepUntil_eq] at slept
      have apart : ∀ u ∈ beats t i, u + period (settings i).heartbeatInterval ≤ t.now :=
        fun u member => (ih.asleep u member).trans awake
      refine ⟨grown ▸ ih.spaced.concat apart, fun u member => ?_⟩
      rw [grown, List.mem_append, List.mem_singleton] at member
      rw [slept]
      rcases member with old | rfl
      · have before := apart u old
        omega
      · exact le_rfl
    · refine ⟨same ▸ ih.spaced, fun u member => ?_⟩
      have before := ih.asleep u (same ▸ member)
      by_cases beat : ∃ reading, a = .heartbeat i reading
      · have ⟨reading, is⟩ := beat
        have ⟨awake, slept, _⟩ := effect.heartbeat i reading is
        rw [slept, sleepUntil_eq]
        omega
      · rwa [effect.nextHeartbeat i fun reading is => beat ⟨reading, is⟩]

variable (lib settings)

theorem heartbeats_limited (actions : List (Action ι)) (s : Network ι)
    (ran : run (step lib settings) (start settings) actions = some s) (i : ι) (opens closes : ℤ)
    (ordered : opens ≤ closes) :
    ((beats s i).filter fun t => opens ≤ t ∧ t ≤ closes).length *
        period (settings i).heartbeatInterval ≤
      closes - opens + period (settings i).heartbeatInterval :=
  (run_paced ran i).spaced.window (period_nonneg _) ordered

def Steady (i : ι) (s : Network ι) : Prop :=
  beats s i ≠ [] → (s.nodes i).connected = true ∧ (s.nodes i).heartbeatEnabled = true

def Prompt (i : ι) (oversleep : ℕ) (s : Network ι) : Prop :=
  s.now ≤ (s.nodes i).nextHeartbeat + oversleep

instance (i : ι) (oversleep : ℕ) (s : Network ι) : Decidable (Prompt i oversleep s) :=
  inferInstanceAs (Decidable (_ ≤ _))

structure Regular (i : ι) (oversleep : ℕ) (s : Network ι) : Prop where
  covers : Covers (period (settings i).heartbeatInterval + oversleep) s.now (beats s i)
  recent : beats s i ≠ [] → ∃ t ∈ beats s i,
    (s.nodes i).nextHeartbeat ≤ t + period (settings i).heartbeatInterval

variable {lib settings} {i : ι} {oversleep : ℕ}

theorem Regular.step {t t' : Network ι} {a : Action ι} (regular : Regular settings i oversleep t)
    (taken : step lib settings t a = some t') (past : ∀ u ∈ beats t i, u ≤ t.now)
    (steady : Steady i t) (prompt : Prompt i oversleep t') :
    Regular settings i oversleep t' := by
  have effect := step_effect lib settings t t' a taken
  have nonneg := period_nonneg (settings i).heartbeatInterval
  rcases beats_step t t' a taken i with ⟨reading, rfl, grown⟩ | ⟨same, stopped⟩
  · have ⟨_, slept, _⟩ := effect.heartbeat i reading rfl
    have still : t'.now = t.now := effect.now
    have longer : 0 ≤ period (settings i).heartbeatInterval + oversleep := by omega
    refine ⟨?_, fun _ => ⟨t.now, by simp [grown], slept.le⟩⟩
    rw [grown, still]
    exact regular.covers.concat longer
  · by_cases silent : beats t i = []
    · rw [silent] at same
      exact ⟨same ▸ covers_nil _ _, fun some => absurd same some⟩
    · have asleep := effect.nextHeartbeat i fun reading is => stopped reading is (steady silent)
      have ⟨u, member, recent⟩ := regular.recent silent
      rw [Prompt, asleep] at prompt
      refine ⟨?_, fun _ => ⟨u, same ▸ member, asleep ▸ recent⟩⟩
      rw [same]
      exact regular.covers.pass member (past u member) (by omega)

variable (lib settings i oversleep)

theorem heartbeats_regular (actions : List (Action ι)) (s : Network ι)
    (ran : run (step lib settings) (start settings) actions = some s)
    (undisturbed : Always (step lib settings) (fun _ t => Steady i t ∧ Prompt i oversleep t)
      (start settings) actions) :
    Covers (period (settings i).heartbeatInterval + oversleep) s.now (beats s i) := by
  suffices regular : Regular settings i oversleep s from regular.covers
  refine run_induction_under (step lib settings) (Q := fun _ _ => True) ?_ ?_ actions s ran
    undisturbed (fun _ _ _ _ _ _ => trivial)
  · exact ⟨covers_nil _ _, fun some => absurd rfl some⟩
  · intro actions t a t' reached always _ ih taken
    have steady := (always_last _ (always_left _ always) reached).1
    have after : run (DiscoveryNetwork.step lib settings) (start settings) (actions ++ [a]) = some t' := by
      rw [run_concat, reached]
      exact taken
    exact ih.step taken (beats_le_now reached i) steady (always_last _ always after).2

end

def twoBeats : List (Action Bool) :=
  [.addMetadata false (.int "load" 7), .connection false true, .heartbeat false 5000000000,
    .wait 10000000000, .heartbeat false 5500000000]

theorem twoBeats_ran : ∃ s, run (step ClientMembers.loadLib pairSettings) (start pairSettings)
    twoBeats = some s ∧ s.now = 10000000000 ∧ beats s false = [0, 10000000000] :=
  ⟨_, rfl, rfl, rfl⟩

theorem heartbeats_limited_twoBeats :
    ([0, 10000000000].filter fun t : ℤ => 0 ≤ t ∧ t ≤ 10000000000).length * period 10 ≤
      10000000000 - 0 + period 10 := by
  have ⟨s, ran, _, times⟩ := twoBeats_ran
  have limited := heartbeats_limited ClientMembers.loadLib pairSettings twoBeats s ran false 0
    10000000000 (by decide)
  rwa [times] at limited

theorem heartbeats_regular_twoBeats : Covers (period 10 + 0) 10000000000 [0, 10000000000] := by
  have ⟨s, ran, now, times⟩ := twoBeats_ran
  have regular := heartbeats_regular ClientMembers.loadLib pairSettings false 0 twoBeats s ran ?_
  · rwa [now, times] at regular
  · refine always_cons _ ⟨fun some => absurd rfl some, by decide⟩ fun t taken => ?_
    obtain rfl := Option.some.inj taken
    refine always_cons _ ⟨fun some => absurd rfl some, by decide⟩ fun t taken => ?_
    obtain rfl := Option.some.inj taken
    refine always_cons _ ⟨fun some => absurd rfl some, by decide⟩ fun t taken => ?_
    obtain rfl := Option.some.inj taken
    refine always_cons _ ⟨fun _ => ⟨rfl, rfl⟩, by decide⟩ fun t taken => ?_
    obtain rfl := Option.some.inj taken
    refine always_cons _ ⟨fun _ => ⟨rfl, rfl⟩, by decide⟩ fun t taken => ?_
    obtain rfl := Option.some.inj taken
    exact always_nil _ ⟨fun _ => ⟨rfl, rfl⟩, by decide⟩

end NetworkDiscovery.DiscoveryNetwork

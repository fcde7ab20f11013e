import Mathlib.Logic.Function.Basic
import NetworkDiscovery.Library.ActionRuns

/-! The life of a client: its constructor, calls of connect, the statements of
its destructor, and the three threads that run meanwhile. A run is a sequence
of the actions of all of them. The order of a few actions in it decides
whether the destructor leaves nothing behind. -/

namespace NetworkDiscovery.ClientLifecycle
open ActionRuns

/-- The threads that repeat `while (!stor_monitoring)`. -/
inductive Worker
  | monitor
  | heartbeat
  deriving DecidableEq

/-- Where such a thread stands: before the test of the flag, before its work,
before it reads its interval, in its sleep. -/
inductive Loop
  | unstarted
  | test
  | work
  | interval
  | asleep
  | finished
  deriving DecidableEq

/-- The work is check_services, or the look at the channel and send_presence. -/
inductive LoopAction
  | test
  | work
  | interval
  | wake
  deriving DecidableEq

inductive Dispatch
  | starting
  | dispatching
  | left
  deriving DecidableEq

inductive Leaving
  | brokenOff
  | noEvents
  deriving DecidableEq

inductive DispatchAction
  | enter
  | callback
  | leave (way : Leaving)
  deriving DecidableEq

inductive Owner
  | starting (w : Worker)
  | detaching (w : Worker)
  | alive
  | breaking
  | freeing
  | joiningMonitor
  | joiningLibevent
  | returned
  | crashed
  deriving DecidableEq

inductive Action
  | start (w : Worker)
  | detach (w : Worker)
  | connect
  | stop
  | loopbreak
  | free
  | joinMonitor
  | joinLibevent
  | loop (w : Worker) (action : LoopAction)
  | libevent (action : DispatchAction)
  deriving DecidableEq

structure Life where
  owner : Owner
  storMonitoring : Bool
  eventBreak : Bool
  loop : Worker → Loop
  joinable : Worker → Bool
  libevent : Option Dispatch

def constructed : Life where
  owner := .starting .monitor
  storMonitoring := false
  eventBreak := false
  loop _ := .unstarted
  joinable _ := false
  libevent := none

def loopStep (storMonitoring : Bool) : Loop → LoopAction → Option Loop
  | .test, .test => some (if storMonitoring then .finished else .work)
  | .work, .work => some .interval
  | .interval, .interval => some .asleep
  | .asleep, .wake => some .test
  | _, _ => none

/-- The dispatch ends when it is told to break off, or without events or on an
error. Callbacks deliver messages and reconnect after a channel error. -/
def dispatchStep (eventBreak : Bool) : Dispatch → DispatchAction → Option Dispatch
  | .starting, .enter => some .dispatching
  | .dispatching, .callback => some .dispatching
  | .dispatching, .leave .brokenOff => if eventBreak then some .left else none
  | .dispatching, .leave .noEvents => some .left
  | _, _ => none

def Life.statement (s : Life) (place : Owner) (after : Life) : Option Life :=
  if s.owner = place then some after else none

def Worker.detached : Worker → Owner
  | .monitor => .starting .heartbeat
  | .heartbeat => .alive

/-- A join waits, and the null pointer of a client that never connected crashes. -/
def step (s : Life) : Action → Option Life
  | .start w => s.statement (.starting w)
      { s with owner := .detaching w, loop := Function.update s.loop w .test,
               joinable := Function.update s.joinable w true }
  | .detach w => s.statement (.detaching w)
      { s with owner := w.detached, joinable := Function.update s.joinable w false }
  | .connect => s.statement .alive { s with libevent := some (s.libevent.getD .starting) }
  | .stop => s.statement .alive { s with owner := .breaking, storMonitoring := true }
  | .loopbreak => s.statement .breaking { s with owner := .freeing, eventBreak := true }
  | .free => s.statement .freeing { s with owner := .joiningMonitor }
  | .joinMonitor =>
    if s.joinable .monitor = true ∧ s.loop .monitor ≠ .finished then none
    else s.statement .joiningMonitor { s with owner := .joiningLibevent }
  | .joinLibevent =>
    match s.libevent with
    | none => s.statement .joiningLibevent { s with owner := .crashed }
    | some .left => s.statement .joiningLibevent { s with owner := .returned }
    | some _ => none
  | .loop w action =>
    (loopStep s.storMonitoring (s.loop w) action).map fun l =>
      { s with loop := Function.update s.loop w l }
  | .libevent action =>
    (s.libevent.bind fun d => dispatchStep s.eventBreak d action).map fun d =>
      { s with libevent := some d, eventBreak := s.eventBreak && action ≠ .enter }

/-- What a client may rely on: libevent_thread is set when the destructor uses
it, the event base is freed after its thread has left the dispatch, and no loop
touches the client, as all of its actions but waking do, after the return. -/
def Sound (s : Life) : Action → Prop
  | .joinLibevent => s.libevent ≠ none
  | .free => s.libevent = none ∨ s.libevent = some .left
  | .loop _ action => s.owner = .returned → action = .wake
  | _ => True

/-- The order of actions that keeps the client's threads apart from its end. -/
structure InTime (actions : List Action) : Prop where
  connected : [.connect, .joinLibevent].Sublist actions
  left : ∃ way, [.libevent (.leave way), .free].Sublist actions
  stopped : ∀ w, [.stop, .loop w .test, .joinLibevent].Sublist actions

/-! ### What one action does -/

/-- How many of its statements the owner has behind it, the calls of connect apart. -/
def Owner.stage : Owner → ℕ
  | .starting .monitor => 0
  | .detaching .monitor => 1
  | .starting .heartbeat => 2
  | .detaching .heartbeat => 3
  | .alive => 4
  | .breaking => 5
  | .freeing => 6
  | .joiningMonitor => 7
  | .joiningLibevent => 8
  | .returned => 9
  | .crashed => 9

def Action.stage : Action → Option ℕ
  | .start .monitor => some 0
  | .detach .monitor => some 1
  | .start .heartbeat => some 2
  | .detach .heartbeat => some 3
  | .stop => some 4
  | .loopbreak => some 5
  | .free => some 6
  | .joinMonitor => some 7
  | .joinLibevent => some 8
  | _ => none

theorem stage_inj (a b : Action) (k : ℕ) (ha : a.stage = some k) (hb : b.stage = some k) :
    a = b := by
  unfold Action.stage at ha hb
  split at ha <;> cases ha <;> split at hb <;> first | rfl | cases hb

structure Effect (s : Life) (a : Action) (s' : Life) : Prop where
  stated : ∀ k, a.stage = some k → s.owner.stage = k ∧ s'.owner.stage = k + 1
  sameOwner : a.stage = none → s'.owner = s.owner
  alive : a = .connect → s.owner = .alive
  flag : s'.storMonitoring = true ↔ s.storMonitoring = true ∨ a = .stop
  started : ∀ w, a = .start w → s'.loop w = .test
  looped : ∀ w action, a = .loop w action →
    loopStep s.storMonitoring (s.loop w) action = some (s'.loop w)
  sameLoop : ∀ w, a ≠ .start w → (∀ action, a ≠ .loop w action) → s'.loop w = s.loop w
  connects : a = .connect → s'.libevent = some (s.libevent.getD .starting)
  dispatched : ∀ action, a = .libevent action → ∃ d d', s.libevent = some d ∧
    dispatchStep s.eventBreak d action = some d' ∧ s'.libevent = some d'
  sameLibevent : a ≠ .connect → (∀ action, a ≠ .libevent action) → s'.libevent = s.libevent
  crashes : s'.owner = .crashed → s.owner = .crashed ∨ s.libevent = none

theorem statement_eq_some (s after s' : Life) (place : Owner) :
    s.statement place after = some s' ↔ s.owner = place ∧ after = s' := by
  unfold Life.statement
  split_ifs with here <;> simp [here]

theorem step_effect (s s' : Life) (a : Action) (taken : step s a = some s') : Effect s a s' := by
  cases a with
  | start w =>
    have ⟨here, next⟩ := (statement_eq_some _ _ _ _).mp taken
    subst next
    cases w <;> constructor <;> simp [Action.stage, here, Owner.stage] <;>
      exact fun _ other => Function.update_of_ne (Ne.symm other) _ _
  | detach w =>
    have ⟨here, next⟩ := (statement_eq_some _ _ _ _).mp taken
    subst next
    cases w <;> constructor <;> simp [Action.stage, here, Owner.stage, Worker.detached]
  | joinMonitor =>
    rw [step] at taken
    split_ifs at taken
    have ⟨here, next⟩ := (statement_eq_some _ _ _ _).mp taken
    subst next
    constructor <;> simp [Action.stage, here, Owner.stage]
  | joinLibevent =>
    rw [step] at taken
    split at taken
    · have ⟨here, next⟩ := (statement_eq_some _ _ _ _).mp taken
      subst next
      constructor <;> simp_all [Action.stage, Owner.stage]
    · have ⟨here, next⟩ := (statement_eq_some _ _ _ _).mp taken
      subst next
      constructor <;> simp [Action.stage, here, Owner.stage]
    · cases taken
  | loop w action =>
    have ⟨l, moved, next⟩ := Option.map_eq_some_iff.mp taken
    subst next
    constructor <;> simp_all [Action.stage]
    exact fun _ other => Function.update_of_ne (Ne.symm other) _ _
  | libevent action =>
    have ⟨d', found, next⟩ := Option.map_eq_some_iff.mp taken
    have ⟨d, before, moved⟩ := Option.bind_eq_some_iff.mp found
    subst next
    constructor <;> simp_all [Action.stage]
  | connect | stop | loopbreak | free =>
    have ⟨here, next⟩ := (statement_eq_some _ _ _ _).mp taken
    subst next
    constructor <;> simp [Action.stage, here, Owner.stage]

/-! ### What the actions of a run tell about the state it has reached -/

theorem pair_sublist_concat (x y a : Action) (actions : List Action) :
    [x, y].Sublist (actions ++ [a]) ↔ [x, y].Sublist actions ∨ y = a ∧ x ∈ actions := by
  have split : [x, y] = [x] ++ [y] := rfl
  rw [split, concat_sublist_concat, List.singleton_sublist]

variable (actions : List Action) (s : Life)

theorem run_stated (ran : run step constructed actions = some s) :
    ∀ a k, a.stage = some k → (a ∈ actions ↔ k < s.owner.stage) := by
  refine run_induction step ?_ ?_ actions s ran
  · intro a k _
    simp [constructed, Owner.stage]
  · intro actions t b t' _ ih taken a k place
    have effect := step_effect t t' b taken
    have before := ih a k place
    rw [List.mem_append, List.mem_singleton, before]
    cases stage : b.stage with
    | none =>
      have other : a ≠ b := fun same => by simp [same, stage] at place
      rw [effect.sameOwner stage]
      simp [other]
    | some j =>
      have ⟨here, next⟩ := effect.stated j stage
      have same : a = b ↔ k = j := by
        refine ⟨fun equal => ?_, fun equal => stage_inj a b j (equal ▸ place) stage⟩
        rw [equal, stage] at place
        exact (Option.some.inj place).symm
      rw [here, next, same]
      omega

theorem run_stopped (ran : run step constructed actions = some s) :
    s.storMonitoring = true ↔ .stop ∈ actions := by
  refine run_induction step ?_ ?_ actions s ran
  · simp [constructed]
  · intro actions t b t' _ ih taken
    rw [(step_effect t t' b taken).flag, ih, List.mem_append, List.mem_singleton, eq_comm]

theorem run_connected (ran : run step constructed actions = some s) :
    s.libevent ≠ none ↔ .connect ∈ actions := by
  refine run_induction step ?_ ?_ actions s ran
  · simp [constructed]
  · intro actions t b t' _ ih taken
    have effect := step_effect t t' b taken
    rw [List.mem_append, List.mem_singleton, ← ih]
    by_cases connects : b = .connect
    · simp [effect.connects connects, connects]
    · by_cases dispatched : ∃ action, b = .libevent action
      · have ⟨action, is⟩ := dispatched
        have ⟨d, d', before, _, after⟩ := effect.dispatched action is
        simp [before, after]
      · rw [effect.sameLibevent connects (by simpa using dispatched)]
        simp [Ne.symm connects]

theorem dispatchStep_leaves (eventBreak : Bool) (d d' : Dispatch) (action : DispatchAction)
    (moved : dispatchStep eventBreak d action = some d') :
    d ≠ .left ∧ (d' = .left ↔ ∃ way, .leave way = action) := by
  unfold dispatchStep at moved
  split at moved
  · cases moved
    simp
  · cases moved
    simp
  · split_ifs at moved
    cases moved
    simp
  · cases moved
    simp
  · cases moved

theorem run_left (ran : run step constructed actions = some s) :
    s.libevent = some .left ↔ ∃ way, .libevent (.leave way) ∈ actions := by
  refine run_induction step ?_ ?_ actions s ran
  · simp [constructed]
  · intro actions t b t' _ ih taken
    have effect := step_effect t t' b taken
    simp only [List.mem_append, List.mem_singleton, exists_or, ← ih]
    by_cases connects : b = .connect
    · rw [effect.connects connects]
      cases t.libevent <;> simp [connects]
    · by_cases dispatched : ∃ action, b = .libevent action
      · have ⟨action, is⟩ := dispatched
        have ⟨d, d', before, moved, after⟩ := effect.dispatched action is
        have ⟨inside, leaves⟩ := dispatchStep_leaves _ d d' action moved
        simp [before, after, is, inside, leaves]
      · rw [effect.sameLibevent connects (by simpa using dispatched)]
        have other (way : Leaving) : .libevent (.leave way) ≠ b :=
          fun same => dispatched ⟨_, same.symm⟩
        simp [other]

theorem loopStep_test (storMonitoring : Bool) (l l' : Loop) (action : LoopAction)
    (moved : loopStep storMonitoring l action = some l') :
    l ≠ .finished ∧ l' ≠ .unstarted ∧
      (l' = .finished ↔ .test = action ∧ storMonitoring = true) := by
  unfold loopStep at moved
  split at moved <;> cases moved
  · cases storMonitoring <;> simp
  · simp
  · simp
  · simp

theorem run_finished (w : Worker) (ran : run step constructed actions = some s) :
    s.loop w = .finished ↔ [.stop, .loop w .test].Sublist actions := by
  refine run_induction step ?_ ?_ actions s ran
  · simp [constructed]
  · intro actions t b t' reached ih taken
    have effect := step_effect t t' b taken
    rw [pair_sublist_concat, ← ih, ← run_stopped actions t reached]
    by_cases starts : b = .start w
    · have running : t.loop w ≠ .finished := by
        intro finished
        have stopped : .stop ∈ actions := (ih.mp finished).subset List.mem_cons_self
        have late := (run_stated actions t reached .stop 4 rfl).mp stopped
        have early : t.owner.stage < 4 := by
          cases w with
          | monitor => simp [(effect.stated 0 (by rw [starts]; rfl)).1]
          | heartbeat => simp [(effect.stated 2 (by rw [starts]; rfl)).1]
        omega
      simp [effect.started w starts, starts, running]
    · by_cases looped : ∃ action, b = .loop w action
      · have ⟨action, is⟩ := looped
        have ⟨unfinished, _, ends⟩ := loopStep_test _ _ _ _ (effect.looped w action is)
        simp [is, unfinished, ends]
      · have other (action : LoopAction) : b ≠ .loop w action := fun same => looped ⟨_, same⟩
        rw [effect.sameLoop w starts other]
        simp [Ne.symm (other .test)]

theorem run_started (w : Worker) (ran : run step constructed actions = some s)
    (started : .start w ∈ actions) : s.loop w ≠ .unstarted := by
  revert started
  refine run_induction step ?_ ?_ actions s ran
  · simp
  · intro actions t b t' _ ih taken started
    have effect := step_effect t t' b taken
    rw [List.mem_append, List.mem_singleton] at started
    by_cases starts : b = .start w
    · simp [effect.started w starts]
    · have before := ih (started.resolve_right (Ne.symm starts))
      by_cases looped : ∃ action, b = .loop w action
      · have ⟨action, is⟩ := looped
        exact (loopStep_test _ _ _ _ (effect.looped w action is)).2.1
      · have other (action : LoopAction) : b ≠ .loop w action := fun same => looped ⟨_, same⟩
        rw [effect.sameLoop w starts other]
        exact before

theorem run_crashed (ran : run step constructed actions = some s)
    (crashed : s.owner = .crashed) : s.libevent = none := by
  revert crashed
  refine run_induction step ?_ ?_ actions s ran
  · simp [constructed]
  · intro actions t b t' _ ih taken crashed
    have effect := step_effect t t' b taken
    have null : t.libevent = none := (effect.crashes crashed).elim ih id
    have notConnect : b ≠ .connect := by
      intro connects
      have stays := effect.sameOwner (by rw [connects]; rfl)
      rw [stays, effect.alive connects] at crashed
      cases crashed
    rw [effect.sameLibevent notConnect fun action is => ?_, null]
    have ⟨d, _, before, _⟩ := effect.dispatched action is
    rw [null] at before
    cases before

theorem free_settles (actions : List Action) (s : Life) (a : Action)
    (late : a = .free ∨ a = .connect) (ran : run step constructed actions = some s)
    (member : .free ∈ actions) : step s a = none := by
  have place := (run_stated actions s ran .free 6 rfl).mp member
  by_contra enabled
  have ⟨s', taken⟩ := Option.ne_none_iff_exists'.mp enabled
  have effect := step_effect s s' a taken
  rcases late with again | connects
  · have here := (effect.stated 6 (by rw [again]; rfl)).1
    omega
  · rw [effect.alive connects, Owner.stage] at place
    omega

theorem joinLibevent_once (actions : List Action) (s : Life)
    (ran : run step constructed actions = some s) (member : .joinLibevent ∈ actions) :
    step s .joinLibevent = none := by
  have place := (run_stated actions s ran .joinLibevent 8 rfl).mp member
  by_contra enabled
  have ⟨s', taken⟩ := Option.ne_none_iff_exists'.mp enabled
  have here := ((step_effect s s' _ taken).stated 8 rfl).1
  omega

theorem run_joined (ran : run step constructed actions = some s) :
    .joinLibevent ∈ actions ↔ s.owner = .returned ∨ s.owner = .crashed := by
  rw [run_stated actions s ran .joinLibevent 8 rfl]
  cases s.owner with
  | starting w => cases w <;> simp [Owner.stage]
  | detaching w => cases w <;> simp [Owner.stage]
  | _ => simp [Owner.stage]

theorem finished_loop_stays (s : Life) (w : Worker) (action : LoopAction)
    (finished : s.loop w = .finished) : step s (.loop w action) = none := by
  rw [step, finished]
  cases action <;> rfl

theorem sound_of_inTime (actions : List Action) (s : Life)
    (ran : run step constructed actions = some s) (inTime : InTime actions) :
    Throughout step Sound constructed actions := by
  intro before a after t split reached
  subst split
  have ⟨u, v, first, taken, _⟩ := run_split step constructed s before after a ran
  obtain rfl : u = t := Option.some.inj (first.symm.trans reached)
  cases a with
  | joinLibevent =>
    have absent := notMem_after step (fun actions u => joinLibevent_once actions u) ran
    have connected : [.connect].Sublist before :=
      sublist_of_concat_sublist absent inTime.connected
    exact (run_connected before u reached).mpr (List.singleton_sublist.mp connected)
  | free =>
    have absent := notMem_after step (fun actions u => free_settles actions u .free (.inl rfl)) ran
    have ⟨way, order⟩ := inTime.left
    have left : [.libevent (.leave way)].Sublist before := sublist_of_concat_sublist absent order
    exact .inr ((run_left before u reached).mpr ⟨way, List.singleton_sublist.mp left⟩)
  | loop w action =>
    intro returned
    have joined := (run_joined before u reached).mpr (.inl returned)
    have ⟨b, c, split⟩ := List.append_of_mem joined
    rw [split, List.append_assoc, List.cons_append] at ran
    have absent := notMem_after step (fun actions u => joinLibevent_once actions u) ran
    have order := inTime.stopped w
    rw [split, List.append_assoc, List.cons_append] at order
    have tested : [.stop, .loop w .test].Sublist b := sublist_of_concat_sublist absent order
    have kept : b.Sublist before := by
      rw [split]
      exact List.sublist_append_left b _
    have finished := (run_finished before u w reached).mpr (tested.trans kept)
    rw [finished_loop_stays u w action finished] at taken
    cases taken
  | _ => trivial

theorem inTime_append (actions more : List Action) (inTime : InTime actions) :
    InTime (actions ++ more) := by
  have kept := List.sublist_append_left actions more
  have ⟨way, order⟩ := inTime.left
  exact ⟨inTime.connected.trans kept, ⟨way, order.trans kept⟩,
    fun w => (inTime.stopped w).trans kept⟩

theorem connected_of_sound (actions : List Action) (s : Life)
    (ran : run step constructed actions = some s)
    (sound : Throughout step Sound constructed actions) (joined : .joinLibevent ∈ actions) :
    [.connect, .joinLibevent].Sublist actions := by
  have ⟨before, after, u, _, split, reached, _, _⟩ := run_mem step constructed s actions _ ran joined
  have set : u.libevent ≠ none := sound before .joinLibevent after u split reached
  have connected := (run_connected before u reached).mp set
  rw [split]
  exact (List.singleton_sublist.mpr connected).append
    (List.singleton_sublist.mpr List.mem_cons_self)

theorem left_of_sound (actions : List Action) (s : Life)
    (ran : run step constructed actions = some s)
    (sound : Throughout step Sound constructed actions) (freed : .free ∈ actions)
    (connected : .connect ∈ actions) :
    ∃ way, [.libevent (.leave way), .free].Sublist actions := by
  have ⟨before, after, u, _, split, reached, _, _⟩ := run_mem step constructed s actions _ ran freed
  have gone : u.libevent = none ∨ u.libevent = some .left :=
    sound before .free after u split reached
  rcases gone with null | left
  · have never : .connect ∉ before := fun member =>
      (run_connected before u reached).mpr member null
    rw [split] at ran
    have late := notMem_after step (fun actions u => free_settles actions u .connect (.inr rfl)) ran
    rw [split, List.mem_append, List.mem_cons] at connected
    simp [never, late] at connected
  · have ⟨way, member⟩ := (run_left before u reached).mp left
    refine ⟨way, ?_⟩
    rw [split]
    exact (List.singleton_sublist.mpr member).append
      (List.singleton_sublist.mpr List.mem_cons_self)

theorem stopped_of_sound (actions : List Action) (s : Life) (w : Worker)
    (ran : run step constructed actions = some s)
    (sound : Throughout step Sound constructed actions) (joined : .joinLibevent ∈ actions)
    (finished : s.loop w = .finished) :
    [.stop, .loop w .test, .joinLibevent].Sublist actions := by
  have ⟨before, after, split⟩ := List.append_of_mem joined
  have tested := (run_finished actions s w ran).mp finished
  have untested : .loop w .test ∉ .joinLibevent :: after := by
    rw [List.mem_cons, not_or]
    refine ⟨nofun, fun member => ?_⟩
    have ⟨c, d, later⟩ := List.append_of_mem member
    have whole : actions = (before ++ .joinLibevent :: c) ++ .loop w .test :: d := by
      rw [split, later, List.append_assoc, List.cons_append]
    rw [whole] at ran
    have ⟨u, _, reached, _, _⟩ := run_split step constructed s _ d _ ran
    have past : .joinLibevent ∈ before ++ .joinLibevent :: c := by simp
    have earlier : Throughout step Sound constructed (before ++ .joinLibevent :: c) :=
      (throughout_append step Sound constructed u _ _ reached (whole ▸ sound)).1
    have connected := connected_of_sound _ u reached earlier past
    have set := (run_connected _ u reached).mpr (connected.subset List.mem_cons_self)
    have returned := ((run_joined _ u reached).mp past).resolve_right fun crashed =>
      set (run_crashed _ u reached crashed)
    cases sound _ (.loop w .test) d u whole reached returned
  rw [split] at tested
  have before_test : ([Action.stop] ++ [Action.loop w .test]).Sublist before :=
    concat_sublist_of_notMem untested tested
  rw [split]
  exact before_test.append (List.singleton_sublist.mpr List.mem_cons_self)

theorem finished_of_sound (s : Life) (w : Worker) (returned : s.owner = .returned)
    (started : s.loop w ≠ .unstarted)
    (sound : ∀ more t, run step s more = some t → Throughout step Sound s more) :
    s.loop w = .finished := by
  have untouched (action : LoopAction) (l : Loop)
      (moved : loopStep s.storMonitoring (s.loop w) action = some l) : action = .wake := by
    have taken : run step s [.loop w action] =
        some { s with loop := Function.update s.loop w l } := by
      simp [run, step, moved]
    exact sound _ _ taken [] (.loop w action) [] s rfl rfl returned
  cases place : s.loop w with
  | unstarted => exact absurd place started
  | test => cases untouched .test _ (by rw [place]; rfl)
  | work => cases untouched .work .interval (by rw [place]; rfl)
  | interval => cases untouched .interval .asleep (by rw [place]; rfl)
  | asleep =>
    have woken : run step s [.loop w .wake] =
        some { s with loop := Function.update s.loop w .test } := by
      simp [run, step, place, loopStep]
    have again : ∃ t, run step s [.loop w .wake, .loop w .test] = some t := by
      simp [run, step, place, loopStep]
    obtain ⟨t, taken⟩ := again
    have late := sound _ t taken [.loop w .wake] (.loop w .test) [] _ rfl woken returned
    cases late
  | finished => rfl

theorem sound_iff_inTime (actions : List Action) (s : Life)
    (ran : run step constructed actions = some s)
    (ended : s.owner = .returned ∨ s.owner = .crashed) :
    (∀ more t, run step s more = some t →
      Throughout step Sound constructed (actions ++ more)) ↔ InTime actions := by
  constructor
  · intro sound
    have now : Throughout step Sound constructed actions := by
      simpa using sound [] s rfl
    have later (more : List Action) (t : Life) (onward : run step s more = some t) :=
      (throughout_append step Sound constructed s actions more ran (sound more t onward)).2
    have joined := (run_joined actions s ran).mpr ended
    have connected := connected_of_sound actions s ran now joined
    have member := connected.subset List.mem_cons_self
    have returned := ended.resolve_right fun crashed =>
      (run_connected actions s ran).mpr member (run_crashed actions s ran crashed)
    have stated (a : Action) (k : ℕ) (place : a.stage = some k) (early : k < 9) : a ∈ actions := by
      rw [run_stated actions s ran a k place, returned]
      exact early
    have freed := stated .free 6 rfl (by decide)
    refine ⟨connected, left_of_sound actions s ran now freed member, fun w => ?_⟩
    have started : s.loop w ≠ .unstarted := by
      apply run_started actions s w ran
      cases w with
      | monitor => exact stated _ 0 rfl (by decide)
      | heartbeat => exact stated _ 2 rfl (by decide)
    exact stopped_of_sound actions s w ran now joined
      (finished_of_sound s w returned started later)
  · intro inTime more t onward
    have whole : run step constructed (actions ++ more) = some t := by
      rw [run_append, ran]
      exact onward
    exact sound_of_inTime _ t whole (inTime_append actions more inTime)

def launched : List Action :=
  [.start .monitor, .detach .monitor, .start .heartbeat, .detach .heartbeat]

def punctual : List Action := launched ++
  [.connect, .libevent .enter, .stop, .loopbreak, .libevent (.leave .brokenOff), .free,
    .loop .monitor .test, .loop .heartbeat .test, .joinMonitor, .joinLibevent]

theorem sound_punctual : ∃ s, run step constructed punctual = some s ∧
    ∀ more t, run step s more = some t →
      Throughout step Sound constructed (punctual ++ more) := by
  refine ⟨_, rfl, (sound_iff_inTime punctual _ rfl (.inl rfl)).mpr ⟨?_, ?_, ?_⟩⟩
  · decide
  · exact ⟨.brokenOff, by decide⟩
  · intro w
    cases w <;> decide

def neverConnected : List Action :=
  launched ++ [.stop, .loopbreak, .free, .joinMonitor, .joinLibevent]

def freedEarly : List Action :=
  launched ++ [.connect, .libevent .enter, .stop, .loopbreak, .free]

/-- The monitor sleeps through the destructor. -/
def overslept : List Action := launched ++
  [.connect, .libevent .enter, .loop .monitor .test, .loop .monitor .work,
    .loop .monitor .interval, .stop, .loopbreak, .libevent (.leave .brokenOff), .free,
    .joinMonitor, .joinLibevent, .loop .monitor .wake, .loop .monitor .test]

theorem runs_unsound :
    ((run step constructed neverConnected).isSome ∧
      ¬ Throughout step Sound constructed neverConnected) ∧
    ((run step constructed freedEarly).isSome ∧
      ¬ Throughout step Sound constructed freedEarly) ∧
    (run step constructed overslept).isSome ∧
      ¬ Throughout step Sound constructed overslept := by
  refine ⟨⟨rfl, fun sound => ?_⟩, ⟨rfl, fun sound => ?_⟩, rfl, fun sound => ?_⟩
  · exact sound neverConnected.dropLast .joinLibevent [] _ rfl rfl rfl
  · rcases sound freedEarly.dropLast .free [] _ rfl rfl with null | left
    · cases null
    · cases left
  · cases sound overslept.dropLast (.loop .monitor .test) [] _ rfl rfl rfl

end NetworkDiscovery.ClientLifecycle

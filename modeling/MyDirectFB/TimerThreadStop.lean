/-
Stopping a timer thread silences it.  The stop is carried by `mExitTask`, by the
task's state and by a signal; the invariant says for every place of the worker
and of the calling thread which of them the worker has still to see.
-/
import MyDirectFB.TimerThreadSteps
import MyDirectFB.TaskLifecycle

namespace MyDirectFB

namespace TimerThread

/-- The caller has set STOPPING, or found nothing to stop, and has not created
another worker since. -/
def PastStop (s : TimerThread) : Prop :=
  match s.caller with
  | .inTaskStop _ | .starting _ _ | .idle true => True
  | _ => False

/-- What a `stop` promises: between its return and the next `start` no handler
call is in progress, a one-shot start makes one call at most, and no worker is
left in a wait without a signal. -/
structure Silenced (s : TimerThread) : Prop where
  silent : s.caller = .idle true → ∀ w, (s.run w).isInHandler = false
  oneShot : ∀ w, (s.started w).1.isRepeat = false → (s.calls w).length ≤ 1
  signalled : s.task.mState = .TASK_STATE_STOPPING ∨ s.PastStop →
    ∀ w, (s.run w).isInWait = false

end TimerThread

/-- The worker has made its handler call and, if it does not repeat, will not
come back to another one. -/
def RunPc.IsAfterCall : RunPc → Prop
  | .inHandler _ | .atRepeat _ | .atEnd => True
  | _ => False

/-- The client is between the two locks of a `stop` of its own. -/
def ClientPc.InOuterStop : ClientPc → Prop
  | .joining inner | .inJoin inner _ | .joined inner => inner = false
  | _ => False

theorem ClientPc.InOuterStop.inWindow {pc : ClientPc} (hpc : pc.InOuterStop) :
    pc.InWindow := by
  cases pc <;> trivial

namespace TimerThread

/-- Where the calling thread is, in terms of the task. -/
def CallerAt (s : TimerThread) : Prop :=
  match s.caller with
  | .idle true => s.task.client () = .idle ∧ s.task.mState = .TASK_STATE_INIT
  | .idle false | .exitTaskSet _ => s.task.client () = .idle
  | .inTaskStop _ => (s.task.client ()).InOuterStop
  | .starting args pc =>
      s.task.client () = .idle ∧ s.task.mState = .TASK_STATE_INIT ∧
        (pc ≠ .setRepeat → s.mRepeat = args.isRepeat)
  | .inTaskStart => False

/-- The invariant of a timer thread with its caller. -/
structure Inv (s : TimerThread) : Prop where
  task : ∃ stage, s.task.At stage
  caller : s.CallerAt
  /-- Outside of `run` a worker has not begun it or has come to its end. -/
  outside : ∀ w, s.task.worker w ≠ .running → s.run w = .atEnd ∨ s.run w = .atLoop
  fresh : ∀ w, s.task.created ≤ w → s.run w = .atLoop ∧ s.calls w = []
  signalled : (s.task.client ()).InWindow →
    ∀ w, (s.run w).isInWait = false
  repeats : ∀ w, s.task.worker w = .running →
    s.mRepeat = (s.started w).1.isRepeat
  oneShot : ∀ w, (s.started w).1.isRepeat = false →
    s.calls w = [] ∨ (s.calls w).length = 1 ∧ (s.run w).IsAfterCall

theorem init_inv (handler : Bool) (startTime clock : UInt64) :
    (init handler startTime clock).Inv where
  task := ⟨.init 0, Task.init_at⟩
  caller := ⟨rfl, rfl⟩
  outside _ _ := .inr rfl
  fresh _ _ := ⟨rfl, rfl⟩
  signalled _ _ := rfl
  repeats _ hw := by cases hw
  oneShot _ _ := .inl rfl

/-! ### What the invariant says -/

/-- A task without a worker has none in `run`. -/
theorem Inv.not_running {s : TimerThread} (hs : s.Inv)
    (hinit : s.task.mState = .TASK_STATE_INIT) (w : Nat) :
    s.task.worker w ≠ .running := by
  obtain ⟨stage, htask⟩ := hs.task
  rw [htask.safe.init hinit w]
  exact WorkerPhase.noConfusion

/-- A worker that has begun `run` and not come to its end is running. -/
theorem Inv.running {s : TimerThread} (hs : s.Inv) {w : Nat}
    (hover : s.run w ≠ .atEnd) (hloop : s.run w ≠ .atLoop) :
    s.task.worker w = .running := by
  by_contra hnot
  rcases hs.outside w hnot with h | h
  · exact hover h
  · exact hloop h

theorem Inv.one_running {s : TimerThread} (hs : s.Inv) {v w : Nat}
    (hv : s.task.worker v = .running) (hw : s.task.worker w = .running) :
    v = w := by
  obtain ⟨stage, htask⟩ := hs.task
  apply htask.safe.one_live v w
  · rw [hv]
    exact WorkerPhase.noConfusion
  · rw [hw]
    exact WorkerPhase.noConfusion

/-- A worker that is running is the one of `mId`. -/
theorem Inv.mId_of_running {s : TimerThread} (hs : s.Inv) {w : Nat}
    (hw : s.task.worker w = .running) : s.task.mId = some w := by
  obtain ⟨stage, htask⟩ := hs.task
  obtain ⟨joiner, rfl⟩ := htask.eq_alive_of_worker (.inl hw)
  exact htask.id

theorem Inv.running_of_isInWait {s : TimerThread} (hs : s.Inv) {w : Nat}
    (hwait : (s.run w).isInWait = true) : s.task.worker w = .running :=
  hs.running (fun h => by simp [h, RunPc.isInWait] at hwait)
    (fun h => by simp [h, RunPc.isInWait] at hwait)

theorem Inv.not_inWait_of_init {s : TimerThread} (hs : s.Inv)
    (hinit : s.task.mState = .TASK_STATE_INIT) (w : Nat) :
    (s.run w).isInWait = false := by
  by_contra hwait
  exact hs.not_running hinit w
    (hs.running_of_isInWait (by simpa using hwait))

/-- STOPPING is shown while the caller is joining only. -/
theorem inWindow_of_stopping {task : Task Unit} {stage : Stage Unit}
    (htask : task.At stage) (hstopping : task.mState = .TASK_STATE_STOPPING) :
    (task.client ()).InWindow := by
  have hshows := htask.shows
  rw [hstopping] at hshows
  have hjoiner : stage.joiner = some () := by
    rcases stage with n | ⟨w, _ | c⟩ | ⟨w, _ | c⟩ | ⟨w, c⟩
    case alive.some => rfl
    case dead.some => rfl
    case joined => rfl
    all_goals simp [Stage.Shows] at hshows
  exact Stage.inWindow_of_pc (htask.joiner () hjoiner)

/-- While the caller is joining, a worker that is in `run` sees STOPPING. -/
theorem Inv.stopping_of_inWindow {s : TimerThread} (hs : s.Inv) {w : Nat}
    (hw : s.task.worker w = .running)
    (hwindow : (s.task.client ()).InWindow) :
    s.task.mState = .TASK_STATE_STOPPING := by
  obtain ⟨stage, htask⟩ := hs.task
  obtain ⟨joiner, rfl⟩ := htask.eq_alive_of_worker (.inl hw)
  have hjoiner : joiner = some () := htask.window () hwindow
  subst joiner
  exact htask.shows

/-- A caller outside of `start` and `stop` has no span of the task under way. -/
theorem Inv.idle {s : TimerThread} (hs : s.Inv) {stopped : Bool}
    (hcaller : s.caller = .idle stopped) : s.task.client () = .idle := by
  have hat := hs.caller
  rw [CallerAt, hcaller] at hat
  cases stopped with
  | true => exact hat.1
  | false => exact hat

theorem Inv.idle_of_exitTaskSet {s : TimerThread} (hs : s.Inv)
    {next : Option StartArgs} (hcaller : s.caller = .exitTaskSet next) :
    s.task.client () = .idle := by
  have hat := hs.caller
  rw [CallerAt, hcaller] at hat
  exact hat

theorem Inv.silenced {s : TimerThread} (hs : s.Inv) : s.Silenced where
  silent hcaller w := by
    have hat := hs.caller
    rw [CallerAt, hcaller] at hat
    rcases hs.outside w (hs.not_running hat.2 w) with h | h
    · rw [h]
      rfl
    · rw [h]
      rfl
  oneShot w hw := by
    rcases hs.oneShot w hw with h | h
    · simp [h]
    · exact Nat.le_of_eq h.1
  signalled hstop := by
    obtain ⟨stage, htask⟩ := hs.task
    rcases hstop with hstopping | hpast
    · exact hs.signalled (inWindow_of_stopping htask hstopping)
    · have hat := hs.caller
      unfold PastStop at hpast
      unfold CallerAt at hat
      split at hpast
      · rename_i hcaller
        rw [hcaller] at hat
        exact hs.signalled (ClientPc.InOuterStop.inWindow hat)
      · rename_i hcaller
        rw [hcaller] at hat
        exact hs.not_inWait_of_init hat.2.1
      · rename_i hcaller
        rw [hcaller] at hat
        exact hs.not_inWait_of_init hat.2
      · exact hpast.elim

/-! ### Steps of the calling thread -/

/-- A step that leaves the task and the workers alone. -/
theorem Inv.setMembers {s t : TimerThread} (hs : s.Inv) (htask : t.task = s.task)
    (hrun : t.run = s.run) (hstarted : t.started = s.started)
    (hcalls : t.calls = s.calls) (hcaller : t.CallerAt)
    (hrepeats : ∀ w, s.task.worker w = .running →
      t.mRepeat = (s.started w).1.isRepeat) : t.Inv where
  task := htask ▸ hs.task
  caller := hcaller
  outside := by
    rw [htask, hrun]
    exact hs.outside
  fresh := by
    rw [htask, hrun, hcalls]
    exact hs.fresh
  signalled := by
    rw [htask, hrun]
    exact hs.signalled
  repeats := by
    rw [htask, hstarted]
    exact hrepeats
  oneShot := by
    rw [hstarted, hcalls, hrun]
    exact hs.oneShot

/-- A span of the task that leaves the workers in `run` where they are, but for
the waits it ends. -/
theorem Inv.setTask {s : TimerThread} (hs : s.Inv) {task : Task Unit}
    {caller : CallerPc} {run : Nat → RunPc} (htask : ∃ stage, task.At stage)
    (hworker : task.worker = s.task.worker)
    (hcreated : task.created = s.task.created) (hwakes : Wakes s.run run)
    (hcaller : CallerAt { s with task := task, caller := caller, run := run })
    (hsignalled : (task.client ()).InWindow → ∀ w, (run w).isInWait = false) :
    Inv { s with task := task, caller := caller, run := run } where
  task := htask
  caller := hcaller
  outside w hw := by
    rw [hworker] at hw
    have houtside := hs.outside w hw
    have hsame := hwakes.eq_of_not_inWait (w := w) (by
      rcases houtside with h | h <;> rw [h] <;> rfl)
    change run w = .atEnd ∨ run w = .atLoop
    rw [hsame]
    exact houtside
  fresh w hw := by
    rw [hcreated] at hw
    have hfresh := hs.fresh w hw
    have hsame := hwakes.eq_of_not_inWait (w := w) (by
      rw [hfresh.1]
      rfl)
    exact ⟨hsame.trans hfresh.1, hfresh.2⟩
  signalled := hsignalled
  repeats w hw := hs.repeats w (hworker ▸ hw)
  oneShot w hw := by
    rcases hs.oneShot w hw with h | ⟨hlength, hafter⟩
    · exact .inl h
    · have hsame := hwakes.eq_of_not_inWait (w := w) (by
        cases hpc : s.run w <;> first | rfl | (rw [hpc] at hafter; exact hafter.elim))
      refine .inr ⟨hlength, ?_⟩
      change (run w).IsAfterCall
      rw [hsame]
      exact hafter

theorem callerAt_afterStop {s : TimerThread} (next : Option StartArgs)
    (hcaller : s.caller = afterStop next) (hidle : s.task.client () = .idle)
    (hinit : s.task.mState = .TASK_STATE_INIT) : s.CallerAt := by
  unfold CallerAt
  rw [hcaller]
  cases next with
  | none => exact ⟨hidle, hinit⟩
  | some args => exact ⟨hidle, hinit, fun hne => absurd rfl hne⟩

theorem callerAt_inTaskStop {s : TimerThread} {next : Option StartArgs}
    (hcaller : s.caller = .inTaskStop next)
    (hpc : (s.task.client ()).InOuterStop) : s.CallerAt := by
  unfold CallerAt
  rw [hcaller]
  exact hpc

/-- What a `Task::stop` does: nothing without a worker, and otherwise it sets
STOPPING and goes on to join. -/
theorem stop_cases {task : Task Unit} {stage : Stage Unit}
    (htask : task.At stage) (hidle : task.client () = .idle) :
    (task.mState = .TASK_STATE_INIT ∧
        task.stop () false = task.setClient () .idle) ∨
      ((task.mState = .TASK_STATE_RUNNING ∨
          task.mState = .TASK_STATE_STOPPED) ∧
        task.stop () false = { task with
          mState := .TASK_STATE_STOPPING }.setClient () (.joining false)) := by
  have hnone : stage.joiner = none := by
    have hout : ¬ (task.client ()).InWindow := by
      rw [hidle]
      exact not_false
    exact htask.joiner_eq_none hout fun d hd => absurd rfl hd
  have hid : task.mState ≠ .TASK_STATE_INIT → task.mId ≠ none := by
    intro hne hnull
    have hshows := htask.shows
    rw [htask.id] at hnull
    cases stage with
    | init n => exact hne hshows
    | alive w joiner => cases hnull
    | dead w joiner => cases hnull
    | joined w joiner => cases hnull
  cases hstate : task.mState with
  | TASK_STATE_INIT =>
      left
      simp [Task.stop, hstate, ClientPc.afterStop]
  | TASK_STATE_RUNNING =>
      right
      simp [Task.stop, hstate, hid (by simp [hstate])]
  | TASK_STATE_STOPPED =>
      right
      simp [Task.stop, hstate, hid (by simp [hstate])]
  | TASK_STATE_STOPPING =>
      have hwindow := inWindow_of_stopping htask hstate
      rw [hidle] at hwindow
      exact hwindow.elim

/-- After a signal no worker is left in a wait. -/
theorem signal_not_inWait {s t : TimerThread} {woken : Option Nat}
    (hsignal : s.signal woken = some t)
    (hfresh : ∀ w, s.task.created ≤ w → (s.run w).isInWait = false)
    (hone : ∀ v w, (s.run v).isInWait = true → (s.run w).isInWait = true →
      v = w) (w : Nat) : (t.run w).isInWait = false := by
  cases woken with
  | none =>
      obtain ⟨hnone, hnext⟩ := Option.ite_none_right_eq_some.mp hsignal
      cases hnext
      rcases Nat.lt_or_ge w s.task.created with hlt | hge
      · exact hnone w hlt
      · exact hfresh w hge
  | some v =>
      simp only [signal] at hsignal
      split at hsignal
      · rename_i expireTime deadline hv
        cases hsignal
        by_cases hw : w = v
        · subst w
          simp [setRun, RunPc.isInWait]
        · simp only [setRun, Function.update_of_ne hw]
          by_contra hwait
          exact hw (hone w v (by simpa using hwait) (by rw [hv]; rfl))
      · cases hsignal

theorem Inv.one_inWait {s : TimerThread} (hs : s.Inv) (v w : Nat)
    (hv : (s.run v).isInWait = true) (hw : (s.run w).isInWait = true) :
    v = w := by
  obtain ⟨stage, htask⟩ := hs.task
  apply htask.safe.one_live v w
  · rw [hs.running_of_isInWait hv]
    exact WorkerPhase.noConfusion
  · rw [hs.running_of_isInWait hw]
    exact WorkerPhase.noConfusion

/-- What the first span of a `Task::stop` does, and the signal with it: nothing
without a worker, and otherwise the caller goes on to join and no worker is left
in a wait. -/
theorem Inv.taskStop_cases {s t : TimerThread} (hs : s.Inv)
    {next : Option StartArgs} (hcaller : s.caller = .exitTaskSet next)
    {woken : Option Nat}
    (hstep : s.span (s.task.stop () false)
      (if (s.task.stop () false).client () = .idle then afterStop next
        else .inTaskStop next) true woken = some t) :
    ∃ task run, (∃ stage, task.At stage) ∧ task.worker = s.task.worker ∧
      task.created = s.task.created ∧ Wakes s.run run ∧
      (t = { s with task := task, caller := afterStop next, run := run } ∧
          run = s.run ∧ task.client () = .idle ∧
          task.mState = .TASK_STATE_INIT ∨
        t = { s with task := task, caller := .inTaskStop next, run := run } ∧
          task.client () = .joining false ∧
          ∀ w, (run w).isInWait = false) := by
  have hidle := hs.idle_of_exitTaskSet hcaller
  obtain ⟨stage, htask⟩ := hs.task
  have htask' : ∃ stage', (s.task.stop () false).At stage' :=
    htask.stop (by rw [hidle]; exact not_false) fun _ d hd => absurd rfl hd
  rcases stop_cases htask hidle with ⟨hinit, hstop⟩ | ⟨hstate, hstop⟩
  · rw [hstop] at hstep htask'
    have hclient : (s.task.setClient () .idle).client () = .idle := by
      simp [Task.setClient]
    rw [hclient] at hstep
    simp [span, hinit] at hstep
    exact ⟨_, _, htask', rfl, rfl, Wakes.refl _,
      .inl ⟨hstep.symm, rfl, hclient, hinit⟩⟩
  · rw [hstop] at hstep htask'
    have hclient : ({ s.task with mState := .TASK_STATE_STOPPING }.setClient ()
        (.joining false) : Task Unit).client () = .joining false := by
      simp [Task.setClient]
    rw [hclient] at hstep
    simp [span, hstate] at hstep
    have hfresh (w : Nat) (hw : s.task.created ≤ w) :
        (s.run w).isInWait = false := by
      rw [(hs.fresh w hw).1]
      rfl
    have hnone := signal_not_inWait hstep hfresh hs.one_inWait
    obtain ⟨run, rfl, hwakes⟩ := signal_eq hstep
    exact ⟨_, run, htask', rfl, rfl, hwakes, .inr ⟨rfl, hclient, hnone⟩⟩

theorem Inv.taskStop {s t : TimerThread} (hs : s.Inv) {next : Option StartArgs}
    (hcaller : s.caller = .exitTaskSet next) {woken : Option Nat}
    (hstep : s.span (s.task.stop () false)
      (if (s.task.stop () false).client () = .idle then afterStop next
        else .inTaskStop next) true woken = some t) : t.Inv := by
  obtain ⟨task, run, htask, hworker, hcreated, hwakes, hcases⟩ :=
    hs.taskStop_cases hcaller hstep
  rcases hcases with ⟨rfl, -, hidle, hinit⟩ | ⟨rfl, hclient, hnone⟩
  · apply hs.setTask htask hworker hcreated hwakes
    · exact callerAt_afterStop next rfl hidle hinit
    · intro hwindow
      rw [hidle] at hwindow
      exact hwindow.elim
  · apply hs.setTask htask hworker hcreated hwakes
    · apply callerAt_inTaskStop rfl
      rw [hclient]
      rfl
    · exact fun _ => hnone

/-- What a further span of a `Task::stop` leaves: the workers, and a client that
is still in it or has come back to INIT. -/
structure StopGoesOn (task next : Task Unit) : Prop where
  stage : ∃ stage, next.At stage
  worker : next.worker = task.worker
  created : next.created = task.created
  client : (next.client ()).InOuterStop ∨
    next.client () = .idle ∧ next.mState = .TASK_STATE_INIT

theorem stopGoesOn {task next : Task Unit} {step : TaskStep Unit}
    (htask : ∃ stage, task.At stage) (hclient : step.ofClient = true)
    (hpc : (task.client ()).InOuterStop) (hstep : task.step step = some next) :
    StopGoesOn task next ∧ step ≠ .innerStop () := by
  have hat (hguard : task.Guarded step) :=
    Task.step_at task step next htask hguard hstep
  cases Task.step_move hstep with
  | start client hidle => cases hclient
  | stop client hidle => cases hclient
  | runReturns w hw => cases hclient
  | setStopped w hw => cases hclient
  | exit w hw => cases hclient
  | innerStop client hrestarting =>
      rw [hrestarting] at hpc
      exact hpc.elim
  | recreate client hrecreating =>
      rw [hrecreating] at hpc
      exact hpc.elim
  | readId client inner hjoining =>
      rw [hjoining] at hpc
      exact ⟨⟨hat trivial, rfl, rfl, .inl hpc⟩, by simp⟩
  | joinReturn client inner target t hjoin hreturn =>
      rw [hjoin] at hpc
      cases target with
      | none =>
          cases hreturn
          exact ⟨⟨hat trivial, rfl, rfl, .inl hpc⟩, by simp⟩
      | some w =>
          obtain ⟨-, hnext⟩ := Option.ite_none_right_eq_some.mp hreturn
          cases hnext
          exact ⟨⟨hat trivial, rfl, rfl, .inl hpc⟩, by simp⟩
  | stopJoined client inner hjoined =>
      rw [hjoined] at hpc
      obtain rfl : inner = false := hpc
      exact ⟨⟨hat trivial, rfl, rfl, .inr ⟨rfl, rfl⟩⟩, by simp⟩

/-- A span of a `Task::stop` after its first one. -/
theorem Inv.clientStep_cases {s t : TimerThread} (hs : s.Inv)
    {step : TaskStep Unit} {woken : Option Nat}
    (hstep : s.clientStep step woken = some t) :
    ∃ next task, s.caller = .inTaskStop next ∧
      (s.task.client ()).InOuterStop ∧ StopGoesOn s.task task ∧
      t = { s with
        task := task
        caller := if task.client () = .idle then afterStop next
          else s.caller } := by
  have hat := hs.caller
  unfold TimerThread.clientStep at hstep
  obtain ⟨hclient, hstep⟩ := Option.ite_none_right_eq_some.mp hstep
  obtain ⟨task, htaskStep, hstep⟩ := Option.bind_eq_some_iff.mp hstep
  cases hcaller : s.caller with
  | inTaskStop next =>
      unfold CallerAt at hat
      rw [hcaller] at hat hstep
      obtain ⟨hnext, hne⟩ := stopGoesOn hs.task hclient hat htaskStep
      simp only [span, hne, decide_false, Bool.false_eq_true, false_and,
        ↓reduceIte, Option.some.injEq] at hstep
      exact ⟨next, task, rfl, hat, hnext, hstep.symm⟩
  | inTaskStart =>
      unfold CallerAt at hat
      rw [hcaller] at hat
      exact hat.elim
  | idle stopped => simp [hcaller] at hstep
  | exitTaskSet next => simp [hcaller] at hstep
  | starting args pc => simp [hcaller] at hstep

theorem Inv.clientStep {s t : TimerThread} (hs : s.Inv) {step : TaskStep Unit}
    {woken : Option Nat} (hstep : s.clientStep step woken = some t) : t.Inv := by
  obtain ⟨next, task, hcaller, hat, hnext, rfl⟩ := hs.clientStep_cases hstep
  apply hs.setTask hnext.stage hnext.worker hnext.created (Wakes.refl _)
  · rcases hnext.client with hpc | ⟨hidle, hinit⟩
    · have hjoining : task.client () ≠ .idle := by
        intro hidle
        rw [hidle] at hpc
        exact hpc.elim
      exact callerAt_inTaskStop ((if_neg hjoining).trans hcaller) hpc
    · exact callerAt_afterStop next (if_pos hidle) hidle hinit
  · exact fun _ => hs.signalled hat.inWindow

/-- `Task::start` after the `stop` of a `start` creates a worker. -/
theorem Inv.startTask {s : TimerThread} (hs : s.Inv) {args : StartArgs}
    (hcaller : s.caller = .starting args .startTask) :
    (s.startNext args .startTask).Inv := by
  have hat := hs.caller
  unfold CallerAt at hat
  rw [hcaller] at hat
  obtain ⟨hidle, hinit, hrepeat⟩ := hat
  obtain ⟨stage, htask⟩ := hs.task
  obtain ⟨stage', htask'⟩ : ∃ stage', (s.task.start ()).At stage' :=
    htask.start hidle
  have hstart : s.task.start () = s.task.create := by
    simp [Task.start, hinit]
  rw [hstart] at htask'
  have hnew := hs.fresh s.task.created (Nat.le_refl _)
  simp only [startNext, hstart]
  refine ⟨⟨stage', htask'⟩, ?_, fun w hw => ?_, fun w hw => ?_,
    fun hwindow => ?_, fun w hw => ?_, fun w hw => ?_⟩
  · unfold CallerAt
    simp [Task.create, hidle]
  · by_cases hnewest : w = s.task.created
    · simp [Task.create, hnewest] at hw
    · exact hs.outside w (by simpa [Task.create, hnewest] using hw)
  · exact hs.fresh w (Nat.le_of_succ_le hw)
  · simp [Task.create, hidle, ClientPc.InWindow] at hwindow
  · by_cases hnewest : w = s.task.created
    · simpa [hnewest] using hrepeat (by simp)
    · have hold := hs.not_running hinit w
      simp [Task.create, hnewest, hold] at hw
  · by_cases hnewest : w = s.task.created
    · exact .inl (hnewest ▸ hnew.2)
    · exact hs.oneShot w (by simpa [hnewest] using hw)

theorem Inv.startNext {s : TimerThread} (hs : s.Inv) {args : StartArgs}
    {pc : StartPc} (hcaller : s.caller = .starting args pc) :
    (s.startNext args pc).Inv := by
  have hat := hs.caller
  unfold CallerAt at hat
  rw [hcaller] at hat
  obtain ⟨hidle, hinit, hrepeat⟩ := hat
  have hnone {P : Nat → Prop} (w : Nat) (hw : s.task.worker w = .running) :
      P w := absurd hw (hs.not_running hinit w)
  cases pc with
  | setRepeat =>
      exact hs.setMembers rfl rfl rfl rfl ⟨hidle, hinit, fun _ => rfl⟩ hnone
  | setStartTime =>
      exact hs.setMembers rfl rfl rfl rfl
        ⟨hidle, hinit, fun _ => hrepeat (by simp)⟩ hnone
  | setIntervalMs =>
      exact hs.setMembers rfl rfl rfl rfl
        ⟨hidle, hinit, fun _ => hrepeat (by simp)⟩ hnone
  | clearExitTask =>
      exact hs.setMembers rfl rfl rfl rfl
        ⟨hidle, hinit, fun _ => hrepeat (by simp)⟩ hnone
  | startTask => exact hs.startTask hcaller

/-! ### Steps of the workers -/

/-- A worker in `run` moves on.  A worker that is about to wait is not told to
stop, and one that does not repeat comes to a call once. -/
theorem Inv.setRun {s : TimerThread} (hs : s.Inv) {w : Nat}
    (hw : s.task.worker w = .running) {pc : RunPc}
    (hwait : (s.task.client ()).InWindow → pc.isInWait = false)
    (hcall : (s.run w).IsAfterCall → pc.IsAfterCall ∨ s.mRepeat = true) :
    (s.setRun w pc).Inv where
  task := hs.task
  caller := hs.caller
  outside v hv := by
    have hne : v ≠ w := fun h => hv (h ▸ hw)
    simpa [TimerThread.setRun, hne] using hs.outside v hv
  fresh v hv := by
    obtain ⟨stage, htask⟩ := hs.task
    obtain ⟨joiner, rfl⟩ := htask.eq_alive_of_worker (.inl hw)
    have hcreated : s.task.created = w + 1 := htask.created
    have hne : v ≠ w := by
      rintro rfl
      have hnew : s.task.created ≤ v := hv
      rw [hcreated] at hnew
      exact Nat.not_succ_le_self v hnew
    simpa [TimerThread.setRun, hne] using hs.fresh v hv
  signalled hwindow v := by
    by_cases hv : v = w
    · simpa [TimerThread.setRun, hv] using hwait hwindow
    · simpa [TimerThread.setRun, hv] using hs.signalled hwindow v
  repeats := hs.repeats
  oneShot v hv := by
    by_cases hvw : v = w
    · subst v
      rcases hs.oneShot w hv with h | ⟨hlength, hafter⟩
      · exact .inl h
      · rcases hcall hafter with h | h
        · exact .inr ⟨hlength, by simpa [TimerThread.setRun] using h⟩
        · rw [hs.repeats w hw] at h
          exact absurd (h.symm.trans hv) (by decide)
    · simpa [TimerThread.setRun, hvw] using hs.oneShot v hv

/-- A worker that has not come to its call moves on. -/
theorem Inv.setRun_before {s : TimerThread} (hs : s.Inv) {w : Nat}
    (hw : s.task.worker w = .running) {old pc : RunPc} (hpc : s.run w = old)
    (hbefore : ¬ old.IsAfterCall)
    (hwait : (s.task.client ()).InWindow → pc.isInWait = false) :
    (s.setRun w pc).Inv := by
  refine hs.setRun hw hwait fun hafter => ?_
  rw [hpc] at hafter
  exact absurd hafter hbefore

/-- A worker comes to the handler.  One that does not repeat has not called it
before. -/
theorem Inv.callHandler {s : TimerThread} (hs : s.Inv) {w : Nat}
    (hw : s.task.worker w = .running) {expireTime now : UInt64}
    (hpc : s.run w = .atHandler expireTime) :
    Inv { s.setRun w (.inHandler expireTime) with
      calls := Function.update s.calls w (s.calls w ++ [now]) } := by
  have hnext : (s.setRun w (.inHandler expireTime)).Inv := by
    apply hs.setRun hw
    · exact fun _ => rfl
    · exact fun _ => .inl trivial
  refine ⟨hnext.task, hnext.caller, hnext.outside, fun v hv => ?_,
    hnext.signalled, hnext.repeats, fun v hv => ?_⟩
  · have hfresh := hs.fresh v hv
    have hne : v ≠ w := by
      rintro rfl
      rw [hfresh.1] at hpc
      cases hpc
    exact ⟨(hnext.fresh v hv).1, by simpa [hne] using hfresh.2⟩
  · by_cases hvw : v = w
    · subst v
      right
      rcases hs.oneShot w hv with h | ⟨-, hafter⟩
      · refine ⟨by simp [h], ?_⟩
        change (Function.update s.run w (.inHandler expireTime) w).IsAfterCall
        rw [Function.update_self]
        trivial
      · rw [hpc] at hafter
        exact hafter.elim
    · simp only [Function.update_of_ne hvw]
      exact hnext.oneShot v hv

/-- A step of a worker in `run`. -/
theorem Inv.workerStep {s t : TimerThread} (hs : s.Inv) {w : Nat}
    (hstep : s.workerStep w = some t) : t.Inv := by
  obtain ⟨hw, hmove⟩ := workerStep_move hstep
  generalize hpc : s.run w = pc at hmove
  cases hmove with
  | loop =>
      apply hs.setRun_before hw hpc not_false
      intro _
      split <;> rfl
  | startTime => exact hs.setRun_before hw hpc not_false fun _ => rfl
  | interval startTime => exact hs.setRun_before hw hpc not_false fun _ => rfl
  | clock expireTime => exact hs.setRun_before hw hpc not_false fun _ => rfl
  | sleepStopping expireTime timeoutMs hstopping =>
      exact hs.setRun_before hw hpc not_false fun _ => rfl
  | wait expireTime timeoutMs hstopping hself =>
      apply hs.setRun_before hw hpc not_false
      intro hwindow
      exact absurd (hs.stopping_of_inWindow hw hwindow) hstopping
  | usleep expireTime timeoutMs hstopping hother =>
      exact hs.setRun_before hw hpc not_false fun _ => rfl
  | awake expireTime => exact hs.setRun_before hw hpc not_false fun _ => rfl
  | sleptStopping expireTime hstopping =>
      exact hs.setRun_before hw hpc not_false fun _ => rfl
  | slept expireTime hstopping =>
      exact hs.setRun_before hw hpc not_false fun _ => rfl
  | callHandler expireTime hset => exact hs.callHandler hw hpc
  | noHandler expireTime hset =>
      exact hs.setRun_before hw hpc not_false fun _ => rfl
  | handlerReturns expireTime =>
      exact hs.setRun hw (fun _ => rfl) fun _ => .inl trivial
  | repeats expireTime =>
      by_cases hrepeat : s.mRepeat = true
      · apply hs.setRun hw
        · intro _
          rw [if_pos hrepeat]
          rfl
        · exact fun _ => .inr hrepeat
      · rw [if_neg hrepeat]
        exact hs.setRun hw (fun _ => rfl) fun _ => .inl trivial
  | store expireTime =>
      have hnext : (s.setRun w .atLoop).Inv :=
        hs.setRun_before hw hpc not_false fun _ => rfl
      exact hnext.setMembers rfl rfl rfl rfl hnext.caller hnext.repeats

/-- A step of a worker after `run`.  It leaves the clients alone, and a worker
that still takes such steps is not at INIT. -/
theorem Inv.leave {s : TimerThread} (hs : s.Inv) {step : TaskStep Unit} {w : Nat}
    {phase : WorkerPhase} {task : Task Unit}
    (hstep : s.task.step step = some task) (hguard : s.task.Guarded step)
    (hworker : task.worker = Function.update s.task.worker w phase)
    (hphase : phase ≠ .running) (hcreated : task.created = s.task.created)
    (hclient : task.client = s.task.client)
    (hstate : task.mState = s.task.mState ∨ s.task.worker w ≠ .exited)
    (hover : s.task.worker w = .running → s.run w = .atEnd) :
    Inv { s with task := task } where
  task := Task.step_at s.task step task hs.task hguard hstep
  caller := by
    have hat := hs.caller
    have hinit (h : s.task.mState = .TASK_STATE_INIT) :
        task.mState = .TASK_STATE_INIT := by
      rcases hstate with hsame | hlive
      · rw [hsame]
        exact h
      · obtain ⟨stage, htask⟩ := hs.task
        exact absurd (htask.safe.init h w) hlive
    unfold CallerAt at hat ⊢
    simp only [hclient]
    split at hat
    · exact ⟨hat.1, hinit hat.2⟩
    · exact hat
    · exact hat
    · exact hat
    · exact ⟨hat.1, hinit hat.2.1, hat.2.2⟩
    · exact hat
  outside v hv := by
    by_cases hrunning : s.task.worker v = .running
    · by_cases hvw : v = w
      · subst v
        exact .inl (hover hrunning)
      · simp [hworker, hvw, hrunning] at hv
    · exact hs.outside v hrunning
  fresh v hv := hs.fresh v (hcreated ▸ hv)
  signalled hwindow := hs.signalled (by simpa only [hclient] using hwindow)
  repeats v hv := by
    by_cases hvw : v = w
    · simp [hworker, hvw, hphase] at hv
    · exact hs.repeats v (by simpa [hworker, hvw] using hv)
  oneShot := hs.oneShot

theorem Inv.leaveStep {s t : TimerThread} (hs : s.Inv) {step : TaskStep Unit}
    (hstep : s.leaveStep step = some t) : t.Inv := by
  cases step with
  | runReturns w =>
      simp only [TimerThread.leaveStep] at hstep
      obtain ⟨hover, hstep⟩ := Option.ite_none_right_eq_some.mp hstep
      obtain ⟨task, htask, rfl⟩ := Option.map_eq_some_iff.mp hstep
      cases Task.step_move htask
      exact hs.leave htask trivial rfl (by simp) rfl rfl (.inl rfl)
        fun _ => hover
  | setStopped w =>
      obtain ⟨task, htask, rfl⟩ := Option.map_eq_some_iff.mp hstep
      cases Task.step_move htask with
      | setStopped w hw =>
          exact hs.leave htask trivial rfl (by simp) rfl rfl
            (.inr (by simp [hw])) fun h => by simp [hw] at h
  | exit w =>
      obtain ⟨task, htask, rfl⟩ := Option.map_eq_some_iff.mp hstep
      cases Task.step_move htask with
      | exit w hw =>
          exact hs.leave htask trivial rfl (by simp) rfl rfl (.inl rfl)
            fun h => by simp [hw] at h
  | start client => cases hstep
  | stop client => cases hstep
  | innerStop client => cases hstep
  | readId client => cases hstep
  | joinReturn client => cases hstep
  | stopJoined client => cases hstep
  | recreate client => cases hstep

/-! ### Runs -/

/-- Every step keeps the invariant. -/
theorem step_inv (s : TimerThread) (action : TimerThreadStep) (t : TimerThread)
    (hs : s.Inv) (hstep : s.step action = some t) : t.Inv := by
  cases action with
  | start args =>
      obtain ⟨stopped, hcaller, rfl⟩ := start_cases hstep
      exact hs.setMembers rfl rfl rfl rfl (hs.idle hcaller) hs.repeats
  | stop =>
      obtain ⟨stopped, hcaller, rfl⟩ := stopCall_cases hstep
      exact hs.setMembers rfl rfl rfl rfl (hs.idle hcaller) hs.repeats
  | taskStop woken =>
      obtain ⟨next, hcaller, hspan⟩ := taskStop_cases hstep
      exact hs.taskStop hcaller hspan
  | client step woken => exact hs.clientStep hstep
  | startNext =>
      obtain ⟨args, pc, hcaller, rfl⟩ := startNext_cases hstep
      exact hs.startNext hcaller
  | createFails =>
      obtain ⟨args, hcaller, rfl⟩ := createFails_cases hstep
      have hat := hs.caller
      unfold CallerAt at hat
      rw [hcaller] at hat
      exact hs.setMembers rfl rfl rfl rfl hat.1 hs.repeats
  | worker w => exact hs.workerStep hstep
  | wake w =>
      obtain ⟨expireTime, deadline, hpc, rfl⟩ := wake_cases hstep
      have hw : s.task.worker w = .running :=
        hs.running_of_isInWait (by rw [hpc]; rfl)
      exact hs.setRun_before hw hpc not_false fun _ => rfl
  | leave step => exact hs.leaveStep hstep
  | setInterval w msec =>
      obtain ⟨-, rfl⟩ := setInterval_cases hstep
      exact hs.setMembers rfl rfl rfl rfl hs.caller hs.repeats
  | tick now =>
      obtain ⟨-, rfl⟩ := tick_cases hstep
      exact hs.setMembers rfl rfl rfl rfl hs.caller hs.repeats

/-- Stopping a timer thread silences it, whatever its caller and its workers do
and in whatever order. -/
theorem run_silenced (handler : Bool) (startTime clock : UInt64)
    (steps : List TimerThreadStep) (s : TimerThread)
    (hrun : LabelledRun.run step (init handler startTime clock) steps = some s) :
    s.Silenced :=
  (LabelledRun.run_invariant step_inv (init_inv handler startTime clock)
    hrun).silenced

/-- A `stop` finds the worker in its wait. -/
def stoppedInWait : List TimerThreadStep :=
  [.start ⟨100, false⟩, .taskStop none, .startNext, .startNext, .startNext,
    .startNext, .startNext, .worker 0, .worker 0, .worker 0, .worker 0,
    .worker 0, .stop, .taskStop (some 0), .client (.readId ()) none, .worker 0,
    .worker 0, .worker 0, .leave (.runReturns 0), .leave (.setStopped 0),
    .leave (.exit 0), .client (.joinReturn ()) none,
    .client (.stopJoined ()) none]

theorem run_silenced_stoppedInWait :
    ∃ s, LabelledRun.run step (init true 0 0) stoppedInWait = some s ∧
      s.caller = .idle true ∧ s.Silenced :=
  ⟨_, rfl, rfl, run_silenced true 0 0 stoppedInWait _ rfl⟩

end TimerThread

end MyDirectFB

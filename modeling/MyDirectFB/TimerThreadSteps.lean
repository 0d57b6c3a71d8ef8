/-
What a step of a timer thread does, one lemma for each kind of step, and what
follows from it for the places of the threads: only a worker itself leaves its
handler, and the calling thread goes through a `stop` to its end.
-/
import MyDirectFB.TimerThread

namespace MyDirectFB

/-- The calling thread is in a `stop` that no `start` has called, or the last
call it has made is over and was a `stop`. -/
def CallerPc.IsStopping : CallerPc → Prop
  | .idle true | .exitTaskSet none | .inTaskStop none => True
  | _ => False

namespace TimerThread

/-- `woken` is `run` with some waits over. -/
def Wakes (run woken : Nat → RunPc) : Prop :=
  ∀ w, woken w = run w ∨
    ∃ expireTime deadline, run w = .inWait expireTime deadline ∧
      woken w = .awake expireTime

theorem Wakes.refl (run : Nat → RunPc) : Wakes run run :=
  fun _ => .inl rfl

theorem Wakes.eq_of_not_inWait {run woken : Nat → RunPc} (hwakes : Wakes run woken)
    {w : Nat} (hwait : (run w).isInWait = false) : woken w = run w := by
  rcases hwakes w with h | ⟨expireTime, deadline, h, -⟩
  · exact h
  · simp [h, RunPc.isInWait] at hwait

theorem Wakes.isInHandler {run woken : Nat → RunPc} (hwakes : Wakes run woken)
    (w : Nat) : (woken w).isInHandler = (run w).isInHandler := by
  rcases hwakes w with h | ⟨expireTime, deadline, hwait, hawake⟩
  · rw [h]
  · rw [hwait, hawake]
    rfl

theorem setRun_wakes {s : TimerThread} {w : Nat} {expireTime deadline : UInt64}
    (hw : s.run w = .inWait expireTime deadline) :
    Wakes s.run (s.setRun w (.awake expireTime)).run := by
  intro v
  by_cases hv : v = w
  · subst v
    exact .inr ⟨expireTime, deadline, hw, Function.update_self _ _ _⟩
  · exact .inl (Function.update_of_ne hv _ _)

/-! ### The calling thread -/

theorem start_cases {s t : TimerThread} {args : StartArgs}
    (hstep : s.step (.start args) = some t) :
    ∃ stopped, s.caller = .idle stopped ∧
      t = { s with mExitTask := true, caller := .exitTaskSet (some args) } := by
  cases hcaller : s.caller <;> simp [TimerThread.step, hcaller] at hstep
  exact ⟨_, rfl, hstep.symm⟩

theorem stopCall_cases {s t : TimerThread} (hstep : s.step .stop = some t) :
    ∃ stopped, s.caller = .idle stopped ∧
      t = { s with mExitTask := true, caller := .exitTaskSet none } := by
  cases hcaller : s.caller <;> simp [TimerThread.step, hcaller] at hstep
  exact ⟨_, rfl, hstep.symm⟩

theorem startNext_cases {s t : TimerThread} (hstep : s.step .startNext = some t) :
    ∃ args pc, s.caller = .starting args pc ∧ t = s.startNext args pc := by
  cases hcaller : s.caller <;> simp [TimerThread.step, hcaller] at hstep
  exact ⟨_, _, rfl, hstep.symm⟩

/-- A `start` that cannot create its worker is over. -/
theorem createFails_cases {s t : TimerThread}
    (hstep : s.step .createFails = some t) :
    ∃ args, s.caller = .starting args .startTask ∧
      t = { s with caller := .idle false } := by
  rw [TimerThread.step] at hstep
  split at hstep
  · rename_i args hcaller
    obtain ⟨-, hnext⟩ := Option.ite_none_right_eq_some.mp hstep
    exact ⟨args, hcaller, (Option.some.inj hnext).symm⟩
  · cases hstep

/-- A signal does nothing but end a wait. -/
theorem signal_eq {s t : TimerThread} {woken : Option Nat}
    (hsignal : s.signal woken = some t) :
    ∃ run, t = { s with run := run } ∧ Wakes s.run run := by
  cases woken with
  | none =>
      obtain ⟨-, hnext⟩ := Option.ite_none_right_eq_some.mp hsignal
      cases hnext
      exact ⟨s.run, rfl, Wakes.refl _⟩
  | some w =>
      simp only [signal] at hsignal
      split at hsignal
      · rename_i expireTime deadline hw
        cases hsignal
        exact ⟨_, rfl, setRun_wakes hw⟩
      · cases hsignal

theorem span_eq {s t : TimerThread} {task : Task Unit} {caller : CallerPc}
    {isStop : Bool} {woken : Option Nat}
    (hspan : s.span task caller isStop woken = some t) :
    ∃ run, t = { s with task := task, caller := caller, run := run } ∧
      Wakes s.run run := by
  simp only [span] at hspan
  split at hspan
  · exact signal_eq hspan
  · cases hspan
    exact ⟨s.run, rfl, Wakes.refl _⟩

/-- A first span of `Task::stop`. -/
theorem taskStop_cases {s t : TimerThread} {woken : Option Nat}
    (hstep : s.step (.taskStop woken) = some t) :
    ∃ next, s.caller = .exitTaskSet next ∧
      s.span (s.task.stop () false)
        (if (s.task.stop () false).client () = .idle then afterStop next
          else .inTaskStop next) true woken = some t := by
  cases hcaller : s.caller <;>
    simp only [TimerThread.step, hcaller, reduceCtorEq] at hstep
  exact ⟨_, rfl, hstep⟩

/-- A further span of `Task::stop` or `Task::start`. -/
theorem clientStep_eq {s t : TimerThread} {step : TaskStep Unit}
    {woken : Option Nat} (hstep : s.clientStep step woken = some t) :
    ∃ task run, Wakes s.run run ∧
      ((∃ next, s.caller = .inTaskStop next ∧
          t = { s with
            task := task
            caller := if task.client () = .idle then afterStop next
              else s.caller
            run := run }) ∨
        s.caller = .inTaskStart ∧
          t = { s with
            task := task
            caller := if task.client () = .idle then .idle false else s.caller
            run := run }) := by
  unfold TimerThread.clientStep at hstep
  obtain ⟨-, hstep⟩ := Option.ite_none_right_eq_some.mp hstep
  obtain ⟨task, -, hstep⟩ := Option.bind_eq_some_iff.mp hstep
  cases hcaller : s.caller <;> simp only [hcaller, reduceCtorEq] at hstep
  case inTaskStop next =>
    obtain ⟨run, ht, hwakes⟩ := span_eq hstep
    exact ⟨task, run, hwakes, .inl ⟨next, rfl, ht⟩⟩
  case inTaskStart =>
    obtain ⟨run, ht, hwakes⟩ := span_eq hstep
    exact ⟨task, run, hwakes, .inr ⟨rfl, ht⟩⟩

/-! ### The workers -/

/-- What a step of worker `w` does at each place where it can be. -/
inductive WorkerMove (s : TimerThread) (w : Nat) : RunPc → TimerThread → Prop
  | loop : WorkerMove s w .atLoop
      (s.setRun w (if s.mExitTask then .atEnd else .atStartTime))
  | startTime : WorkerMove s w .atStartTime (s.setRun w (.atInterval s.mStartTime))
  | interval (startTime : UInt64) : WorkerMove s w (.atInterval startTime)
      (s.setRun w (.atClock (startTime + intToUInt64 s.mIntervalMs)))
  | clock (expireTime : UInt64) : WorkerMove s w (.atClock expireTime)
      (s.setRun w (.atSleep expireTime (expireTime - s.clock)))
  | sleepStopping (expireTime timeoutMs : UInt64)
      (hstopping : s.task.mState = .TASK_STATE_STOPPING) :
      WorkerMove s w (.atSleep expireTime timeoutMs) (s.setRun w (.slept expireTime))
  | wait (expireTime timeoutMs : UInt64)
      (hstopping : s.task.mState ≠ .TASK_STATE_STOPPING) (hself : s.task.mId = some w) :
      WorkerMove s w (.atSleep expireTime timeoutMs) (s.setRun w (.inWait expireTime
        (waitDeadline s.clock (uint64ToInt timeoutMs))))
  | usleep (expireTime timeoutMs : UInt64)
      (hstopping : s.task.mState ≠ .TASK_STATE_STOPPING) (hother : s.task.mId ≠ some w) :
      WorkerMove s w (.atSleep expireTime timeoutMs) (s.setRun w (.slept expireTime))
  | awake (expireTime : UInt64) :
      WorkerMove s w (.awake expireTime) (s.setRun w (.slept expireTime))
  | sleptStopping (expireTime : UInt64)
      (hstopping : s.task.mState = .TASK_STATE_STOPPING) :
      WorkerMove s w (.slept expireTime) (s.setRun w .atLoop)
  | slept (expireTime : UInt64) (hstopping : s.task.mState ≠ .TASK_STATE_STOPPING) :
      WorkerMove s w (.slept expireTime) (s.setRun w (.atHandler expireTime))
  | callHandler (expireTime : UInt64) (hset : s.mHandler = true) :
      WorkerMove s w (.atHandler expireTime)
        { s.setRun w (.inHandler expireTime) with
          calls := Function.update s.calls w (s.calls w ++ [s.clock]) }
  | noHandler (expireTime : UInt64) (hset : ¬ s.mHandler = true) :
      WorkerMove s w (.atHandler expireTime) (s.setRun w (.atRepeat expireTime))
  | handlerReturns (expireTime : UInt64) :
      WorkerMove s w (.inHandler expireTime) (s.setRun w (.atRepeat expireTime))
  | repeats (expireTime : UInt64) : WorkerMove s w (.atRepeat expireTime)
      (s.setRun w (if s.mRepeat then .atStore expireTime else .atEnd))
  | store (expireTime : UInt64) : WorkerMove s w (.atStore expireTime)
      { s.setRun w .atLoop with mStartTime := expireTime }

/-- A worker that takes a step is running, and makes one of its moves. -/
theorem workerStep_move {s t : TimerThread} {w : Nat}
    (hstep : s.workerStep w = some t) :
    s.task.worker w = .running ∧ s.WorkerMove w (s.run w) t := by
  simp only [TimerThread.workerStep] at hstep
  obtain ⟨hw, hstep⟩ := Option.ite_none_right_eq_some.mp hstep
  refine ⟨hw, ?_⟩
  cases hpc : s.run w <;> simp only [hpc, Option.some.injEq, reduceCtorEq]
    at hstep
  case atLoop => exact hstep ▸ .loop
  case atStartTime => exact hstep ▸ .startTime
  case atInterval => exact hstep ▸ .interval _
  case atClock => exact hstep ▸ .clock _
  case atSleep =>
    split at hstep
    · next hstopping => exact Option.some.inj hstep ▸ .sleepStopping _ _ hstopping
    · next hstopping =>
        split at hstep
        · next hself => exact Option.some.inj hstep ▸ .wait _ _ hstopping hself
        · next hother => exact Option.some.inj hstep ▸ .usleep _ _ hstopping hother
  case awake => exact hstep ▸ .awake _
  case slept =>
    split at hstep
    · next hstopping => exact Option.some.inj hstep ▸ .sleptStopping _ hstopping
    · next hstopping => exact Option.some.inj hstep ▸ .slept _ hstopping
  case atHandler =>
    split at hstep
    · next hset => exact Option.some.inj hstep ▸ .callHandler _ hset
    · next hset => exact Option.some.inj hstep ▸ .noHandler _ hset
  case inHandler => exact hstep ▸ .handlerReturns _
  case atRepeat => exact hstep ▸ .repeats _
  case atStore => exact hstep ▸ .store _

theorem running_of_workerStep {s t : TimerThread} {w : Nat}
    (hstep : s.workerStep w = some t) : s.task.worker w = .running :=
  (workerStep_move hstep).1

/-- A step of a worker leaves the caller and the other workers where they
are. -/
theorem workerStep_frame {s t : TimerThread} {w : Nat}
    (hstep : s.workerStep w = some t) :
    t.caller = s.caller ∧ ∀ v, v ≠ w → t.run v = s.run v := by
  obtain ⟨-, hmove⟩ := workerStep_move hstep
  generalize s.run w = pc at hmove
  cases hmove <;> exact ⟨rfl, fun v hv => Function.update_of_ne hv _ _⟩

/-- What a step of a worker leaves as it is. -/
theorem workerStep_members {s t : TimerThread} {w : Nat}
    (hstep : s.workerStep w = some t) :
    (t.task = s.task ∧ t.mHandler = s.mHandler ∧ t.clock = s.clock ∧
      t.started = s.started) ∧ ∀ v, v ≠ w → t.calls v = s.calls v := by
  obtain ⟨-, hmove⟩ := workerStep_move hstep
  generalize s.run w = pc at hmove
  cases hmove with
  | callHandler expireTime hset =>
      exact ⟨⟨rfl, rfl, rfl, rfl⟩, fun v hv => Function.update_of_ne hv _ _⟩
  | _ => exact ⟨⟨rfl, rfl, rfl, rfl⟩, fun _ _ => rfl⟩

/-- After `run` a worker changes the task only. -/
theorem leaveStep_eq {s t : TimerThread} {step : TaskStep Unit}
    (hstep : s.leaveStep step = some t) :
    ∃ task, s.task.step step = some task ∧ t = { s with task := task } := by
  cases step with
  | runReturns w =>
      obtain ⟨-, hstep⟩ := Option.ite_none_right_eq_some.mp hstep
      obtain ⟨task, htask, ht⟩ := Option.map_eq_some_iff.mp hstep
      exact ⟨task, htask, ht.symm⟩
  | setStopped w =>
      obtain ⟨task, htask, ht⟩ := Option.map_eq_some_iff.mp hstep
      exact ⟨task, htask, ht.symm⟩
  | exit w =>
      obtain ⟨task, htask, ht⟩ := Option.map_eq_some_iff.mp hstep
      exact ⟨task, htask, ht.symm⟩
  | start client => cases hstep
  | stop client => cases hstep
  | innerStop client => cases hstep
  | readId client => cases hstep
  | joinReturn client => cases hstep
  | stopJoined client => cases hstep
  | recreate client => cases hstep

theorem leaveStep_running {s t : TimerThread} {step : TaskStep Unit}
    (hstep : s.leaveStep step = some t) :
    ∃ task, t = { s with task := task } ∧ task.client = s.task.client ∧
      ∀ w, task.worker w = .running → s.task.worker w = .running := by
  have hrunning {v : Nat} {phase : WorkerPhase} (hphase : phase ≠ .running)
      (w : Nat) (hw : Function.update s.task.worker v phase w = .running) :
      s.task.worker w = .running := by
    by_cases hwv : w = v
    · subst w
      rw [Function.update_self] at hw
      exact absurd hw hphase
    · rwa [Function.update_of_ne hwv] at hw
  cases step <;>
    simp [TimerThread.leaveStep, Task.step] at hstep
  case runReturns v =>
    obtain ⟨-, -, rfl⟩ := hstep
    exact ⟨_, rfl, rfl, hrunning (by simp)⟩
  case setStopped v =>
    obtain ⟨-, rfl⟩ := hstep
    exact ⟨_, rfl, rfl, hrunning (by simp)⟩
  case exit v =>
    obtain ⟨-, rfl⟩ := hstep
    exact ⟨_, rfl, rfl, hrunning (by simp)⟩

theorem wake_cases {s t : TimerThread} {w : Nat}
    (hstep : s.step (.wake w) = some t) :
    ∃ expireTime deadline, s.run w = .inWait expireTime deadline ∧
      t = s.setRun w (.awake expireTime) := by
  cases hpc : s.run w <;> simp [TimerThread.step, hpc] at hstep
  exact ⟨_, _, rfl, hstep.symm⟩

theorem setInterval_cases {s t : TimerThread} {w : Nat} {msec : UInt32}
    (hstep : s.step (.setInterval w msec) = some t) :
    (s.task.worker w = .running ∧ (s.run w).isInHandler = true) ∧
      t = { s with mIntervalMs := msec.toInt32 } := by
  obtain ⟨hin, hnext⟩ := Option.ite_none_right_eq_some.mp hstep
  exact ⟨hin, (Option.some.inj hnext).symm⟩

theorem tick_cases {s t : TimerThread} {now : UInt64}
    (hstep : s.step (.tick now) = some t) :
    s.clock ≤ now ∧ t = { s with clock := now } := by
  obtain ⟨hle, hnext⟩ := Option.ite_none_right_eq_some.mp hstep
  exact ⟨hle, (Option.some.inj hnext).symm⟩

/-! ### What stays -/

/-- Only a worker itself leaves its handler. -/
theorem step_inHandler {s t : TimerThread} {action : TimerThreadStep}
    (hstep : s.step action = some t) {w : Nat} (hne : action ≠ .worker w)
    (hin : (s.run w).isInHandler = true) : t.run w = s.run w := by
  have hwait : (s.run w).isInWait = false := by
    cases hpc : s.run w <;> first | rfl | simp [hpc, RunPc.isInHandler] at hin
  cases action with
  | start args =>
      obtain ⟨-, -, rfl⟩ := start_cases hstep
      rfl
  | stop =>
      obtain ⟨-, -, rfl⟩ := stopCall_cases hstep
      rfl
  | taskStop woken =>
      obtain ⟨next, -, hspan⟩ := taskStop_cases hstep
      obtain ⟨run, rfl, hwakes⟩ := span_eq hspan
      exact hwakes.eq_of_not_inWait hwait
  | client step woken =>
      obtain ⟨-, run, hwakes, ⟨-, -, rfl⟩ | ⟨-, rfl⟩⟩ := clientStep_eq hstep
      · exact hwakes.eq_of_not_inWait hwait
      · exact hwakes.eq_of_not_inWait hwait
  | startNext =>
      obtain ⟨args, pc, -, rfl⟩ := startNext_cases hstep
      cases pc <;> rfl
  | createFails =>
      obtain ⟨-, -, rfl⟩ := createFails_cases hstep
      rfl
  | worker v =>
      have hvw : w ≠ v := fun h => hne (h ▸ rfl)
      exact (workerStep_frame hstep).2 w hvw
  | wake v =>
      obtain ⟨expireTime, deadline, hpc, rfl⟩ := wake_cases hstep
      exact (setRun_wakes hpc).eq_of_not_inWait hwait
  | leave step =>
      obtain ⟨-, -, rfl⟩ := leaveStep_eq hstep
      rfl
  | setInterval v msec =>
      obtain ⟨-, rfl⟩ := setInterval_cases hstep
      rfl
  | tick now =>
      obtain ⟨-, rfl⟩ := tick_cases hstep
      rfl

/-- Only a worker calls its handler and leaves it, and only its creation gives
it its start. -/
theorem step_other {s t : TimerThread} {action : TimerThreadStep}
    (hstep : s.step action = some t) {w : Nat} (hne : action ≠ .worker w) :
    t.calls w = s.calls w ∧ (t.run w).isInHandler = (s.run w).isInHandler ∧
      (t.started w = s.started w ∨ w = s.task.created) := by
  cases action with
  | start args =>
      obtain ⟨-, -, rfl⟩ := start_cases hstep
      exact ⟨rfl, rfl, .inl rfl⟩
  | stop =>
      obtain ⟨-, -, rfl⟩ := stopCall_cases hstep
      exact ⟨rfl, rfl, .inl rfl⟩
  | taskStop woken =>
      obtain ⟨next, -, hspan⟩ := taskStop_cases hstep
      obtain ⟨run, rfl, hwakes⟩ := span_eq hspan
      exact ⟨rfl, hwakes.isInHandler w, .inl rfl⟩
  | client step woken =>
      obtain ⟨-, run, hwakes, ⟨-, -, rfl⟩ | ⟨-, rfl⟩⟩ := clientStep_eq hstep
      · exact ⟨rfl, hwakes.isInHandler w, .inl rfl⟩
      · exact ⟨rfl, hwakes.isInHandler w, .inl rfl⟩
  | startNext =>
      obtain ⟨args, pc, -, rfl⟩ := startNext_cases hstep
      cases pc with
      | startTask =>
          refine ⟨rfl, rfl, ?_⟩
          by_cases hnew : w = s.task.created
          · exact .inr hnew
          · exact .inl (Function.update_of_ne hnew _ _)
      | _ => exact ⟨rfl, rfl, .inl rfl⟩
  | createFails =>
      obtain ⟨-, -, rfl⟩ := createFails_cases hstep
      exact ⟨rfl, rfl, .inl rfl⟩
  | worker v =>
      have hwv : w ≠ v := fun h => hne (h ▸ rfl)
      obtain ⟨⟨-, -, -, hstarted⟩, hcalls⟩ := workerStep_members hstep
      refine ⟨hcalls w hwv, ?_, .inl (congrFun hstarted w)⟩
      rw [(workerStep_frame hstep).2 w hwv]
  | wake v =>
      obtain ⟨expireTime, deadline, hpc, rfl⟩ := wake_cases hstep
      exact ⟨rfl, (setRun_wakes hpc).isInHandler w, .inl rfl⟩
  | leave step =>
      obtain ⟨-, -, rfl⟩ := leaveStep_eq hstep
      exact ⟨rfl, rfl, .inl rfl⟩
  | setInterval v msec =>
      obtain ⟨-, rfl⟩ := setInterval_cases hstep
      exact ⟨rfl, rfl, .inl rfl⟩
  | tick now =>
      obtain ⟨-, rfl⟩ := tick_cases hstep
      exact ⟨rfl, rfl, .inl rfl⟩

/-- The handler is set before, and only time moves the clock. -/
theorem step_mHandler_clock {s t : TimerThread} {action : TimerThreadStep}
    (hstep : s.step action = some t) :
    t.mHandler = s.mHandler ∧ (t.clock = s.clock ∨ action = .tick t.clock) := by
  cases action with
  | start args =>
      obtain ⟨-, -, rfl⟩ := start_cases hstep
      exact ⟨rfl, .inl rfl⟩
  | stop =>
      obtain ⟨-, -, rfl⟩ := stopCall_cases hstep
      exact ⟨rfl, .inl rfl⟩
  | taskStop woken =>
      obtain ⟨next, -, hspan⟩ := taskStop_cases hstep
      obtain ⟨run, rfl, -⟩ := span_eq hspan
      exact ⟨rfl, .inl rfl⟩
  | client step woken =>
      obtain ⟨-, run, -, ⟨-, -, rfl⟩ | ⟨-, rfl⟩⟩ := clientStep_eq hstep
      · exact ⟨rfl, .inl rfl⟩
      · exact ⟨rfl, .inl rfl⟩
  | startNext =>
      obtain ⟨args, pc, -, rfl⟩ := startNext_cases hstep
      cases pc <;> exact ⟨rfl, .inl rfl⟩
  | createFails =>
      obtain ⟨-, -, rfl⟩ := createFails_cases hstep
      exact ⟨rfl, .inl rfl⟩
  | worker w =>
      obtain ⟨⟨-, hhandler, hclock, -⟩, -⟩ := workerStep_members hstep
      exact ⟨hhandler, .inl hclock⟩
  | wake w =>
      obtain ⟨-, -, -, rfl⟩ := wake_cases hstep
      exact ⟨rfl, .inl rfl⟩
  | leave step =>
      obtain ⟨-, -, rfl⟩ := leaveStep_eq hstep
      exact ⟨rfl, .inl rfl⟩
  | setInterval w msec =>
      obtain ⟨-, rfl⟩ := setInterval_cases hstep
      exact ⟨rfl, .inl rfl⟩
  | tick now =>
      obtain ⟨-, rfl⟩ := tick_cases hstep
      exact ⟨rfl, .inr rfl⟩

/-- The workers and the clock leave the caller where it is. -/
theorem step_caller {s t : TimerThread} {action : TimerThreadStep}
    (hstep : s.step action = some t) :
    t.caller = s.caller ∨ (∃ args, action = .start args) ∨ action = .stop ∨
      (∃ woken, action = .taskStop woken) ∨
      (∃ step woken, action = .client step woken) ∨ action = .startNext ∨
      action = .createFails := by
  cases action with
  | start args => exact .inr (.inl ⟨args, rfl⟩)
  | stop => exact .inr (.inr (.inl rfl))
  | taskStop woken => exact .inr (.inr (.inr (.inl ⟨woken, rfl⟩)))
  | client step woken =>
      exact .inr (.inr (.inr (.inr (.inl ⟨step, woken, rfl⟩))))
  | startNext => exact .inr (.inr (.inr (.inr (.inr (.inl rfl)))))
  | createFails => exact .inr (.inr (.inr (.inr (.inr (.inr rfl)))))
  | worker w => exact .inl (workerStep_frame hstep).1
  | wake w =>
      obtain ⟨-, -, -, rfl⟩ := wake_cases hstep
      exact .inl rfl
  | leave step =>
      obtain ⟨-, -, rfl⟩ := leaveStep_eq hstep
      exact .inl rfl
  | setInterval w msec =>
      obtain ⟨-, rfl⟩ := setInterval_cases hstep
      exact .inl rfl
  | tick now =>
      obtain ⟨-, rfl⟩ := tick_cases hstep
      exact .inl rfl

/-- Outside of `start` and `stop` the calling thread only calls one of them. -/
theorem step_idle {s t : TimerThread} {action : TimerThreadStep}
    (hstep : s.step action = some t) {stopped : Bool}
    (hidle : s.caller = .idle stopped) (hstart : ∀ args, action ≠ .start args)
    (hstop : action ≠ .stop) : t.caller = .idle stopped := by
  rcases step_caller hstep with hsame | ⟨args, rfl⟩ | rfl | ⟨woken, rfl⟩ |
    ⟨step, woken, rfl⟩ | rfl | rfl
  · exact hsame.trans hidle
  · exact absurd rfl (hstart args)
  · exact absurd rfl hstop
  · obtain ⟨next, hcaller, -⟩ := taskStop_cases hstep
    rw [hidle] at hcaller
    cases hcaller
  · obtain ⟨-, -, -, ⟨next, hcaller, -⟩ | ⟨hcaller, -⟩⟩ := clientStep_eq hstep
    · rw [hidle] at hcaller
      cases hcaller
    · rw [hidle] at hcaller
      cases hcaller
  · obtain ⟨args, pc, hcaller, -⟩ := startNext_cases hstep
    rw [hidle] at hcaller
    cases hcaller
  · obtain ⟨args, hcaller, -⟩ := createFails_cases hstep
    rw [hidle] at hcaller
    cases hcaller

/-- A `stop` goes on to its end. -/
theorem step_isStopping {s t : TimerThread} {action : TimerThreadStep}
    (hstep : s.step action = some t) (hstart : ∀ args, action ≠ .start args)
    (hstopping : s.caller.IsStopping) : t.caller.IsStopping := by
  rcases step_caller hstep with hsame | ⟨args, rfl⟩ | rfl | ⟨woken, rfl⟩ |
    ⟨step, woken, rfl⟩ | rfl | rfl
  · rw [hsame]
    exact hstopping
  · exact absurd rfl (hstart args)
  · obtain ⟨-, -, rfl⟩ := stopCall_cases hstep
    trivial
  · obtain ⟨next, hcaller, hspan⟩ := taskStop_cases hstep
    obtain ⟨run, rfl, -⟩ := span_eq hspan
    rw [hcaller] at hstopping
    cases next with
    | some args => exact hstopping.elim
    | none =>
        dsimp only
        split <;> trivial
  · obtain ⟨task, run, -, ⟨next, hcaller, rfl⟩ | ⟨hcaller, -⟩⟩ :=
      clientStep_eq hstep
    · rw [hcaller] at hstopping
      cases next with
      | some args => exact hstopping.elim
      | none =>
          dsimp only
          rw [hcaller]
          split <;> trivial
    · rw [hcaller] at hstopping
      exact hstopping.elim
  · obtain ⟨args, pc, hcaller, -⟩ := startNext_cases hstep
    rw [hcaller] at hstopping
    exact hstopping.elim
  · obtain ⟨args, hcaller, -⟩ := createFails_cases hstep
    rw [hcaller] at hstopping
    exact hstopping.elim

end TimerThread

end MyDirectFB

/-
The timer with a thread of its own (base/timer_thread.cpp), on the task of
base/task.cpp with `Task::sleep` and `CondVar::wait(Mutex&, int)`.  One thread
calls `start` and `stop`; the workers that `start` creates run `run`.  Every
span under the task's mutex and every access to a member outside of it is one
step.  A handler may call `setInterval` on its timer.
-/
import MyDirectFB.Task

namespace MyDirectFB

/-- The arguments of a call of `start`. -/
structure StartArgs where
  msec : UInt32
  isRepeat : Bool
deriving Repr, DecidableEq

/-- Where `TimerThread::start` is after its `stop`: before an assignment, or
before `Task::start`. -/
inductive StartPc where
  | setRepeat
  | setStartTime
  | setIntervalMs
  | clearExitTask
  | startTask
deriving Repr, DecidableEq

/-- Where the calling thread is.  The `stop` of a `start` has the arguments of
the call with it. -/
inductive CallerPc where
  /-- Outside of `start` and `stop`; `stopped` tells which one was called
  last, and is true before any call. -/
  | idle (stopped : Bool)
  /-- `stop` has set `mExitTask`, before `Task::stop`. -/
  | exitTaskSet (next : Option StartArgs)
  /-- `Task::stop` has unlocked to join. -/
  | inTaskStop (next : Option StartArgs)
  | starting (args : StartArgs) (pc : StartPc)
  /-- `Task::start` has unlocked to stop. -/
  | inTaskStart
deriving Repr, DecidableEq

/-- Where a worker is in `run`, with the values of its local variables. -/
inductive RunPc where
  | atLoop
  | atStartTime
  | atInterval (startTime : UInt64)
  | atClock (expireTime : UInt64)
  | atSleep (expireTime : UInt64) (timeoutMs : UInt64)
  /-- In `pthread_cond_timedwait`, without the mutex and without a signal. -/
  | inWait (expireTime : UInt64) (deadline : UInt64)
  /-- The wait is over, before the mutex is locked again. -/
  | awake (expireTime : UInt64)
  | slept (expireTime : UInt64)
  | atHandler (expireTime : UInt64)
  | inHandler (expireTime : UInt64)
  | atRepeat (expireTime : UInt64)
  | atStore (expireTime : UInt64)
  | atEnd
deriving Repr, DecidableEq

def RunPc.isInWait : RunPc → Bool
  | .inWait _ _ => true
  | _ => false

def RunPc.isInHandler : RunPc → Bool
  | .inHandler _ => true
  | _ => false

/-- A `TimerThread`.  Of `mHandler` only whether it is set is kept.  `clock` is
what `getTickCountMs` reads; `started` has the arguments and the start time a
worker has been created with, and `calls` the readings at which it has called
the handler. -/
structure TimerThread where
  task : Task Unit
  mHandler : Bool
  mExitTask : Bool
  mRepeat : Bool
  mStartTime : UInt64
  mIntervalMs : Int32
  clock : UInt64
  caller : CallerPc
  run : Nat → RunPc
  started : Nat → StartArgs × UInt64
  calls : Nat → List UInt64

/-- The constructor with `setHandler`.  It leaves `mStartTime` unset. -/
def TimerThread.init (mHandler : Bool) (mStartTime clock : UInt64) :
    TimerThread where
  task := Task.init
  mHandler := mHandler
  mExitTask := false
  mRepeat := false
  mStartTime := mStartTime
  mIntervalMs := 0
  clock := clock
  caller := .idle true
  run _ := .atLoop
  started _ := (⟨0, false⟩, 0)
  calls _ := []

/-- The conversion of an `int` to `uint64_t`. -/
def intToUInt64 (value : Int32) : UInt64 :=
  value.toInt64.toUInt64

/-- The conversion of a `uint64_t` to `int`. -/
def uint64ToInt (value : UInt64) : Int32 :=
  value.toUInt32.toInt32

/-- The time at which `CondVar::wait` gives up, when it is called at `clock`. -/
def waitDeadline (clock : UInt64) (timeout : Int32) : UInt64 :=
  clock + intToUInt64 timeout

namespace TimerThread

def setRun (s : TimerThread) (w : Nat) (pc : RunPc) : TimerThread :=
  { s with run := Function.update s.run w pc }

/-! ### The calling thread -/

/-- Where the caller goes on when its `stop` returns. -/
def afterStop : Option StartArgs → CallerPc
  | none => .idle true
  | some args => .starting args .setRepeat

/-- `mCond.signal()`: it wakes a waiting worker if there is one. -/
def signal (s : TimerThread) : Option Nat → Option TimerThread
  | none =>
      if ∀ w < s.task.created, (s.run w).isInWait = false then some s else none
  | some w =>
      match s.run w with
      | .inWait expireTime _ => some (s.setRun w (.awake expireTime))
      | _ => none

/-- A span of `Task` of the calling thread, with the signal that its
`Task::stop` gives when it does not return early. -/
def span (s : TimerThread) (task : Task Unit) (caller : CallerPc)
    (isStop : Bool) (woken : Option Nat) : Option TimerThread :=
  let next := { s with task := task, caller := caller }
  if isStop ∧ (s.task.mState = .TASK_STATE_RUNNING ∨
      s.task.mState = .TASK_STATE_STOPPED) then next.signal woken
  else some next

/-- The next step of a `start` after its `stop`. -/
def startNext (s : TimerThread) (args : StartArgs) : StartPc → TimerThread
  | .setRepeat =>
      { s with
        mRepeat := args.isRepeat
        caller := .starting args .setStartTime }
  | .setStartTime =>
      { s with mStartTime := s.clock, caller := .starting args .setIntervalMs }
  | .setIntervalMs =>
      { s with
        mIntervalMs := args.msec.toInt32
        caller := .starting args .clearExitTask }
  | .clearExitTask =>
      { s with mExitTask := false, caller := .starting args .startTask }
  | .startTask =>
      let task := s.task.start ()
      { s with
        task := task
        caller := if task.client () = .idle then .idle false else .inTaskStart
        started := Function.update s.started s.task.created
          (args, s.mStartTime) }

end TimerThread

/-- The spans of `Task::start` and `Task::stop` after their first one. -/
def TaskStep.ofClient : TaskStep Unit → Bool
  | .innerStop _ | .readId _ | .joinReturn _ | .stopJoined _ | .recreate _ =>
      true
  | _ => false

namespace TimerThread

/-- A further span of the `Task::start` or `Task::stop` under way. -/
def clientStep (s : TimerThread) (step : TaskStep Unit) (woken : Option Nat) :
    Option TimerThread :=
  if step.ofClient then
    (s.task.step step).bind fun task =>
      let isStop := decide (step = .innerStop ())
      match s.caller with
      | .inTaskStop next =>
          s.span task
            (if task.client () = .idle then afterStop next else s.caller)
            isStop woken
      | .inTaskStart =>
          s.span task
            (if task.client () = .idle then .idle false else s.caller)
            isStop woken
      | _ => none
  else none

/-! ### The workers -/

/-- The next step of worker `w` in `run`. -/
def workerStep (s : TimerThread) (w : Nat) : Option TimerThread :=
  if s.task.worker w = .running then
    match s.run w with
    | .atLoop =>
        some (s.setRun w (if s.mExitTask then .atEnd else .atStartTime))
    | .atStartTime => some (s.setRun w (.atInterval s.mStartTime))
    | .atInterval startTime =>
        some (s.setRun w (.atClock (startTime + intToUInt64 s.mIntervalMs)))
    | .atClock expireTime =>
        some (s.setRun w (.atSleep expireTime (expireTime - s.clock)))
    | .atSleep expireTime timeoutMs =>
        if s.task.mState = .TASK_STATE_STOPPING then
          some (s.setRun w (.slept expireTime))
        else if s.task.mId = some w then
          some (s.setRun w (.inWait expireTime
            (waitDeadline s.clock (uint64ToInt timeoutMs))))
        -- `usleep`, which takes its time before the next step
        else some (s.setRun w (.slept expireTime))
    | .inWait _ _ => none
    | .awake expireTime => some (s.setRun w (.slept expireTime))
    | .slept expireTime =>
        if s.task.mState = .TASK_STATE_STOPPING then some (s.setRun w .atLoop)
        else some (s.setRun w (.atHandler expireTime))
    | .atHandler expireTime =>
        if s.mHandler then
          some { s.setRun w (.inHandler expireTime) with
            calls := Function.update s.calls w (s.calls w ++ [s.clock]) }
        else some (s.setRun w (.atRepeat expireTime))
    | .inHandler expireTime => some (s.setRun w (.atRepeat expireTime))
    | .atRepeat expireTime =>
        some (s.setRun w (if s.mRepeat then .atStore expireTime else .atEnd))
    | .atStore expireTime =>
        some { s.setRun w .atLoop with mStartTime := expireTime }
    | .atEnd => none
  else none

/-- A step of `_task_proc_priv` after `run`. -/
def leaveStep (s : TimerThread) : TaskStep Unit → Option TimerThread
  | .runReturns w =>
      if s.run w = .atEnd then
        (s.task.step (.runReturns w)).map fun task => { s with task := task }
      else none
  | .setStopped w =>
      (s.task.step (.setStopped w)).map fun task => { s with task := task }
  | .exit w => (s.task.step (.exit w)).map fun task => { s with task := task }
  | _ => none

end TimerThread

/-- The steps of a timer thread.  `wake` is the end of a wait that no signal
ends: at its deadline, or before. -/
inductive TimerThreadStep where
  | start (args : StartArgs)
  | stop
  | taskStop (woken : Option Nat)
  | client (step : TaskStep Unit) (woken : Option Nat)
  | startNext
  /-- `pthread_create` fails.  What it leaves in `mId` nobody reads before the
  next worker is created. -/
  | createFails
  | worker (w : Nat)
  | wake (w : Nat)
  | leave (step : TaskStep Unit)
  | setInterval (w : Nat) (msec : UInt32)
  | tick (now : UInt64)
deriving Repr, DecidableEq

/-- The transition function. -/
def TimerThread.step (s : TimerThread) : TimerThreadStep → Option TimerThread
  | .start args =>
      match s.caller with
      | .idle _ =>
          some { s with mExitTask := true, caller := .exitTaskSet (some args) }
      | _ => none
  | .stop =>
      match s.caller with
      | .idle _ => some { s with mExitTask := true, caller := .exitTaskSet none }
      | _ => none
  | .taskStop woken =>
      match s.caller with
      | .exitTaskSet next =>
          let task := s.task.stop () false
          s.span task
            (if task.client () = .idle then TimerThread.afterStop next
              else .inTaskStop next)
            true woken
      | _ => none
  | .client step woken => s.clientStep step woken
  | .startNext =>
      match s.caller with
      | .starting args pc => some (s.startNext args pc)
      | _ => none
  | .createFails =>
      match s.caller with
      | .starting _ .startTask =>
          if s.task.mState = .TASK_STATE_INIT then
            some { s with caller := .idle false }
          else none
      | _ => none
  | .worker w => s.workerStep w
  | .wake w =>
      match s.run w with
      | .inWait expireTime _ => some (s.setRun w (.awake expireTime))
      | _ => none
  | .leave step => s.leaveStep step
  | .setInterval w msec =>
      if s.task.worker w = .running ∧ (s.run w).isInHandler then
        some { s with mIntervalMs := msec.toInt32 }
      else none
  | .tick now => if s.clock ≤ now then some { s with clock := now } else none

end MyDirectFB

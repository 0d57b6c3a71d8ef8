/-
The interrupt watcher of hw/irq.cpp, a task with a worker thread: one thread that
calls `start` and `stop`, any number that call `enable` and `disable`, and the
worker, which polls the attribute file `value` and the pipe of the commands.
Each span in which the mutex of the task is held is one step.  The pipe never
fills up, and the destructor is not modelled.
-/
import MyDirectFB.Gpio
import MyDirectFB.Lib.Channel
import MyDirectFB.Task

namespace MyDirectFB

universe u

/-- Where the worker is in `run`. -/
inductive IrqWorkerPc where
  /-- There is no thread. -/
  | absent
  /-- In front of `while(!mExitTask)`. -/
  | testing
  | polling
  /-- `poll` has found the pipe ready, and perhaps the pin. -/
  | commanded (interrupted : Bool)
  /-- Behind the `switch`. -/
  | checking (interrupted : Bool)
  | returned
  /-- The thread has set the state of the task. -/
  | exited
deriving Repr, DecidableEq

/-- Where the thread is that calls `start` and `stop`. -/
inductive IrqClientPc where
  | idle
  /-- In `start`, before `onPreStart`. -/
  | creating
  /-- In `pthread_join`; `restarts` tells the `stop` in a `start`. -/
  | joining (restarts : Bool)
deriving Repr, DecidableEq

/-- What `poll` returns: 0, a negative number, or that there is an event; the
flags are `POLLIN` of the pipe and `POLLPRI` of the pin. -/
inductive IrqPollOutcome where
  | timeout
  | failed
  | ready (command interrupted : Bool)
deriving Repr, DecidableEq

/-- A call of `setEdge`: what the kernel does in it, and the edge. -/
abbrev EdgeCall := GPIO.Kernel × GPIOEdge

/-- The `IRQ`.  `ledger` has the descriptors of the file `value`, `edges` the calls of
`setEdge`, and `notified` the calls of `onInterrupted`. -/
structure Irq (H : Type u) where
  mPipe : Channel Char
  mExitTask : Bool
  mFD : Option H
  mState : TaskState
  mEdge : GPIOEdge
  worker : IrqWorkerPc
  client : IrqClientPc
  ledger : HandleLedger H
  edges : List EdgeCall
  notified : Nat

inductive IrqAction (H : Type u) where
  | start
  /-- `open` gives a descriptor or fails, and so does `pthread_create`. -/
  | create (fd : Option H) (created : Bool)
  | stop
  | joinReturn
  | enable
  | disable
  | test
  | poll (outcome : IrqPollOutcome)
  /-- With what the kernel does if the command is one for `setEdge`. -/
  | readCommand (kernel : GPIO.Kernel)
  | checkPin
  | setStopped
deriving Repr, DecidableEq

namespace Irq

variable {H : Type u}

/-- What the constructor leaves in front of its `start`. -/
def init (edge : GPIOEdge) (kernel : GPIO.Kernel) : Irq H where
  mPipe := Channel.empty
  mExitTask := false
  mFD := none
  mState := .TASK_STATE_INIT
  mEdge := edge
  worker := .absent
  client := .idle
  ledger := ⟨[], []⟩
  edges := [(kernel, .GPIO_EDGE_NONE)]
  notified := 0

def write (s : Irq H) (data : Char) : Irq H := { s with mPipe := s.mPipe.send [data] }

def enable (s : Irq H) : Irq H := s.write 'E'

def disable (s : Irq H) : Irq H := s.write 'D'

def onPreStop (s : Irq H) : Irq H := { s with mExitTask := true }.write 'T'

/-- `onPreStart`, with what `open` returns. -/
def onPreStart (s : Irq H) (fd : Option H) : Irq H :=
  { s with
    mExitTask := false
    mFD := fd
    ledger := fd.elim s.ledger s.ledger.acquire }

/-- The rest of `start`. -/
def create (s : Irq H) (fd : Option H) (created : Bool) : Irq H :=
  let opened := { s.onPreStart fd with client := .idle }
  if fd.isSome && created then
    { opened with worker := .testing, mState := .TASK_STATE_RUNNING }
  else opened

/-- `stop` up to its `pthread_join`, for a task that is running or stopped, and
so has an `mId`. -/
def beginStop (s : Irq H) (restarts : Bool) : Irq H :=
  { s.onPreStop with mState := .TASK_STATE_STOPPING, client := .joining restarts }

def start (s : Irq H) : Irq H :=
  match s.mState with
  | .TASK_STATE_INIT => { s with client := .creating }
  | .TASK_STATE_STOPPED => s.beginStop true
  | _ => s

def stop (s : Irq H) : Irq H :=
  match s.mState with
  | .TASK_STATE_RUNNING | .TASK_STATE_STOPPED => s.beginStop false
  | _ => s

/-- What a command does, and whether the worker goes on to the pin. -/
def perform (s : Irq H) (interrupted : Bool) (data : Char) (kernel : GPIO.Kernel) :
    Irq H :=
  match data with
  | 'D' =>
      { s with
        edges := s.edges ++ [(kernel, .GPIO_EDGE_NONE)]
        worker := .checking interrupted }
  | 'E' =>
      { s with
        edges := s.edges ++ [(kernel, s.mEdge)]
        worker := .checking interrupted }
  | 'T' => { s with worker := .testing }
  | _ => { s with worker := .checking interrupted }

/-- What the kernel may answer: the pipe is ready exactly when a byte is in it. -/
def Admits (mPipe : Channel Char) : IrqPollOutcome → Prop
  | .timeout => mPipe.queue = []
  | .failed => True
  | .ready command _ => (command = true ↔ mPipe.queue ≠ [])

instance (mPipe : Channel Char) (outcome : IrqPollOutcome) :
    Decidable (Admits mPipe outcome) :=
  match outcome with
  | .timeout => inferInstanceAs (Decidable (_ = _))
  | .failed => inferInstanceAs (Decidable True)
  | .ready _ _ => inferInstanceAs (Decidable (_ ↔ _))

def IrqPollOutcome.next : IrqPollOutcome → IrqWorkerPc
  | .timeout => .testing
  | .failed => .returned
  | .ready true interrupted => .commanded interrupted
  | .ready false interrupted => .checking interrupted

variable [DecidableEq H]

def onPostStop (s : Irq H) : Irq H :=
  { s with
    mExitTask := true
    mFD := none
    ledger := s.mFD.elim s.ledger s.ledger.release }

/-- The rest of `stop`. -/
def endStop (s : Irq H) (restarts : Bool) : Irq H :=
  { s.onPostStop with
    worker := .absent
    mState := .TASK_STATE_INIT
    client := if restarts then .creating else .idle }

/-- The transition function. -/
def step (s : Irq H) : IrqAction H → Option (Irq H)
  | .start => if s.client = .idle then some s.start else none
  | .create fd created =>
      if s.client = .creating ∧ ∀ h ∈ fd, h ∉ s.ledger.opened then
        some (s.create fd created)
      else none
  | .stop => if s.client = .idle then some s.stop else none
  | .joinReturn =>
      match s.client with
      | .joining restarts =>
          if s.worker = .exited then some (s.endStop restarts) else none
      | _ => none
  | .enable => some s.enable
  | .disable => some s.disable
  | .test =>
      if s.worker = .testing then
        some { s with worker := if s.mExitTask then .returned else .polling }
      else none
  | .poll outcome =>
      if s.worker = .polling ∧ Admits s.mPipe outcome then
        some { s with worker := IrqPollOutcome.next outcome }
      else none
  | .readCommand kernel =>
      match s.worker with
      | .commanded interrupted =>
          s.mPipe.take?.map fun (data, mPipe) =>
            { s with mPipe := mPipe }.perform interrupted data kernel
      | _ => none
  | .checkPin =>
      match s.worker with
      | .checking interrupted =>
          some { s with
            notified := s.notified + interrupted.toNat
            worker := .testing }
      | _ => none
  | .setStopped =>
      if s.worker = .returned then
        some { s with mState := .TASK_STATE_STOPPED, worker := .exited }
      else none

/-- A step, with what is known of the state before it. -/
inductive Move (s : Irq H) : IrqAction H → Irq H → Prop
  | startInit (hclient : s.client = .idle) (hstate : s.mState = .TASK_STATE_INIT) :
      Move s .start { s with client := .creating }
  | startStopped (hclient : s.client = .idle)
      (hstate : s.mState = .TASK_STATE_STOPPED) :
      Move s .start (s.beginStop true)
  | startRefused (hclient : s.client = .idle) (hstate : s.mState ≠ .TASK_STATE_INIT)
      (hstopped : s.mState ≠ .TASK_STATE_STOPPED) : Move s .start s
  | created (fd : H) (hclient : s.client = .creating)
      (hfresh : fd ∉ s.ledger.opened) :
      Move s (.create (some fd) true)
        { s.onPreStart (some fd) with
          client := .idle, worker := .testing, mState := .TASK_STATE_RUNNING }
  | notOpened (created : Bool) (hclient : s.client = .creating) :
      Move s (.create none created) { s.onPreStart none with client := .idle }
  | notCreated (fd : H) (hclient : s.client = .creating)
      (hfresh : fd ∉ s.ledger.opened) :
      Move s (.create (some fd) false) { s.onPreStart (some fd) with client := .idle }
  | stop (hclient : s.client = .idle)
      (hstate : s.mState = .TASK_STATE_RUNNING ∨ s.mState = .TASK_STATE_STOPPED) :
      Move s .stop (s.beginStop false)
  | stopIdle (hclient : s.client = .idle)
      (hrunning : s.mState ≠ .TASK_STATE_RUNNING)
      (hstopped : s.mState ≠ .TASK_STATE_STOPPED) : Move s .stop s
  | joinReturn (restarts : Bool) (hclient : s.client = .joining restarts)
      (hworker : s.worker = .exited) : Move s .joinReturn (s.endStop restarts)
  | enable : Move s .enable s.enable
  | disable : Move s .disable s.disable
  | leaves (hworker : s.worker = .testing) (hexit : s.mExitTask = true) :
      Move s .test { s with worker := .returned }
  | polls (hworker : s.worker = .testing) (hexit : s.mExitTask = false) :
      Move s .test { s with worker := .polling }
  | poll (outcome : IrqPollOutcome) (hworker : s.worker = .polling)
      (hadmits : Admits s.mPipe outcome) :
      Move s (.poll outcome) { s with worker := IrqPollOutcome.next outcome }
  | readCommand (interrupted : Bool) (data : Char) (mPipe : Channel Char)
      (kernel : GPIO.Kernel) (hworker : s.worker = .commanded interrupted)
      (htake : s.mPipe.take? = some (data, mPipe)) :
      Move s (.readCommand kernel)
        ({ s with mPipe := mPipe }.perform interrupted data kernel)
  | checkPin (interrupted : Bool) (hworker : s.worker = .checking interrupted) :
      Move s .checkPin { s with
        notified := s.notified + interrupted.toNat
        worker := .testing }
  | setStopped (hworker : s.worker = .returned) :
      Move s .setStopped { s with mState := .TASK_STATE_STOPPED, worker := .exited }

theorem step_move {s t : Irq H} {action : IrqAction H}
    (hstep : s.step action = some t) : s.Move action t := by
  cases action with
  | start =>
      obtain ⟨hclient, hnext⟩ := Option.ite_none_right_eq_some.mp hstep
      obtain rfl := Option.some.inj hnext
      unfold start
      split
      · next hstate => exact .startInit hclient hstate
      · next hstate => exact .startStopped hclient hstate
      · next hinit hstopped => exact .startRefused hclient hinit hstopped
  | create fd created =>
      obtain ⟨⟨hclient, hfresh⟩, hnext⟩ := Option.ite_none_right_eq_some.mp hstep
      obtain rfl := Option.some.inj hnext
      cases fd with
      | none => exact .notOpened created hclient
      | some fd =>
          cases created with
          | true => exact .created fd hclient (hfresh fd rfl)
          | false => exact .notCreated fd hclient (hfresh fd rfl)
  | stop =>
      obtain ⟨hclient, hnext⟩ := Option.ite_none_right_eq_some.mp hstep
      obtain rfl := Option.some.inj hnext
      unfold stop
      split
      · next hstate => exact .stop hclient (.inl hstate)
      · next hstate => exact .stop hclient (.inr hstate)
      · next hrunning hstopped => exact .stopIdle hclient hrunning hstopped
  | joinReturn =>
      cases hclient : s.client <;> simp only [step, hclient, reduceCtorEq] at hstep
      obtain ⟨hworker, hnext⟩ := Option.ite_none_right_eq_some.mp hstep
      exact Option.some.inj hnext ▸ .joinReturn _ hclient hworker
  | enable => exact Option.some.inj hstep ▸ .enable
  | disable => exact Option.some.inj hstep ▸ .disable
  | test =>
      obtain ⟨hworker, hnext⟩ := Option.ite_none_right_eq_some.mp hstep
      obtain rfl := Option.some.inj hnext
      split
      · next hexit => exact .leaves hworker hexit
      · next hexit => exact .polls hworker (Bool.eq_false_of_not_eq_true hexit)
  | poll outcome =>
      obtain ⟨⟨hworker, hadmits⟩, hnext⟩ := Option.ite_none_right_eq_some.mp hstep
      exact Option.some.inj hnext ▸ .poll outcome hworker hadmits
  | readCommand kernel =>
      cases hworker : s.worker <;> simp only [step, hworker, reduceCtorEq] at hstep
      obtain ⟨⟨data, mPipe⟩, htake, rfl⟩ := Option.map_eq_some_iff.mp hstep
      exact .readCommand _ data mPipe kernel hworker htake
  | checkPin =>
      cases hworker : s.worker <;> simp only [step, hworker, reduceCtorEq] at hstep
      exact Option.some.inj hstep ▸ .checkPin _ hworker
  | setStopped =>
      obtain ⟨hworker, hnext⟩ := Option.ite_none_right_eq_some.mp hstep
      exact Option.some.inj hnext ▸ .setStopped hworker

end Irq

end MyDirectFB

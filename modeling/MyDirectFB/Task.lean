/-
The task of base/task.cpp: any number of clients that call `start` and `stop`,
and the worker threads these calls create.  Each span in which `mMutex` is held
is one step.  `onPreStart` returns true, `pthread_create` succeeds, and the
other hooks and the wake-up have no effect on the state.
-/
import Mathlib.Logic.Function.Basic

namespace MyDirectFB

universe u

inductive TaskState where
  | TASK_STATE_INIT
  | TASK_STATE_RUNNING
  | TASK_STATE_STOPPING
  | TASK_STATE_STOPPED
deriving Repr, DecidableEq

/-- Where a worker thread is in `_task_proc_priv`: in `run`, before or after the
span that sets the state, or over.  A thread that is not yet created has no
steps either. -/
inductive WorkerPhase where
  | running
  | finished
  | stopped
  | exited
deriving Repr, DecidableEq

/-- Where a client is between its steps.  `inner` tells a `stop` called by
`start` from one called by the client. -/
inductive ClientPc where
  | idle
  /-- `start` has found the task stopped and unlocked, before its `stop`. -/
  | restarting
  /-- `stop` has unlocked, before `mId` is read for `pthread_join`. -/
  | joining (inner : Bool)
  | inJoin (inner : Bool) (target : Option Nat)
  /-- `pthread_join` has returned, before `stop` locks again. -/
  | joined (inner : Bool)
  /-- The inner `stop` is over, before `start` locks again. -/
  | recreating
deriving Repr, DecidableEq

/-- A task with the clients `C`.  The workers are numbered in the order of their
creation, and `joins` counts how often each has been joined. -/
structure Task (C : Type u) where
  mId : Option Nat
  mState : TaskState
  created : Nat
  worker : Nat → WorkerPhase
  joins : Nat → Nat
  client : C → ClientPc

variable {C : Type u}

def Task.init : Task C where
  mId := none
  mState := .TASK_STATE_INIT
  created := 0
  worker _ := .exited
  joins _ := 0
  client _ := .idle

/-- The end of `start`: a new worker, and the state that says so. -/
def Task.create (s : Task C) : Task C :=
  { s with
    mId := some s.created
    mState := .TASK_STATE_RUNNING
    created := s.created + 1
    worker := Function.update s.worker s.created .running }

variable [DecidableEq C]

def Task.setClient (s : Task C) (client : C) (pc : ClientPc) : Task C :=
  { s with client := Function.update s.client client pc }

def Task.setWorker (s : Task C) (w : Nat) (phase : WorkerPhase) : Task C :=
  { s with worker := Function.update s.worker w phase }

/-- Where a client goes on when its `stop` returns. -/
def ClientPc.afterStop (inner : Bool) : ClientPc :=
  if inner then .recreating else .idle

/-- `start` up to its return or to the unlock before its `stop`. -/
def Task.start (s : Task C) (client : C) : Task C :=
  if s.mState ≠ .TASK_STATE_INIT ∧ s.mState ≠ .TASK_STATE_STOPPED then s
  else if s.mState = .TASK_STATE_STOPPED then s.setClient client .restarting
  else s.create

/-- `stop` up to its return or to the unlock before its `pthread_join`. -/
def Task.stop (s : Task C) (client : C) (inner : Bool) : Task C :=
  if s.mState ≠ .TASK_STATE_RUNNING ∧ s.mState ≠ .TASK_STATE_STOPPED then
    s.setClient client (ClientPc.afterStop inner)
  else if s.mId ≠ none then
    { s with mState := .TASK_STATE_STOPPING }.setClient client (.joining inner)
  else
    { s with mState := .TASK_STATE_INIT }.setClient client
      (ClientPc.afterStop inner)

/-- `stop` from its second lock on. -/
def Task.stopJoined (s : Task C) (client : C) (inner : Bool) : Task C :=
  { s with mId := none, mState := .TASK_STATE_INIT }.setClient client
    (ClientPc.afterStop inner)

/-- `pthread_join` returns when its target is over, and at once when it is
given no thread. -/
def Task.joinReturn (s : Task C) (client : C) (inner : Bool) :
    Option Nat → Option (Task C)
  | none => some (s.setClient client (.joined inner))
  | some w =>
      if s.worker w = .exited then
        some ({ s with joins := Function.update s.joins w (s.joins w + 1) }.setClient
          client (.joined inner))
      else none

inductive TaskStep (C : Type u) where
  | start (client : C)
  | stop (client : C)
  | innerStop (client : C)
  | readId (client : C)
  | joinReturn (client : C)
  | stopJoined (client : C)
  | recreate (client : C)
  | runReturns (w : Nat)
  | setStopped (w : Nat)
  | exit (w : Nat)
deriving Repr, DecidableEq

/-- The transition function. -/
def Task.step (s : Task C) : TaskStep C → Option (Task C)
  | .start client =>
      match s.client client with
      | .idle => some (s.start client)
      | _ => none
  | .stop client =>
      match s.client client with
      | .idle => some (s.stop client false)
      | _ => none
  | .innerStop client =>
      match s.client client with
      | .restarting => some (s.stop client true)
      | _ => none
  | .readId client =>
      match s.client client with
      | .joining inner => some (s.setClient client (.inJoin inner s.mId))
      | _ => none
  | .joinReturn client =>
      match s.client client with
      | .inJoin inner target => s.joinReturn client inner target
      | _ => none
  | .stopJoined client =>
      match s.client client with
      | .joined inner => some (s.stopJoined client inner)
      | _ => none
  | .recreate client =>
      match s.client client with
      | .recreating => some (s.create.setClient client .idle)
      | _ => none
  | .runReturns w =>
      if s.worker w = .running then some (s.setWorker w .finished) else none
  | .setStopped w =>
      if s.worker w = .finished then
        some { s.setWorker w .stopped with mState := .TASK_STATE_STOPPED }
      else none
  | .exit w =>
      if s.worker w = .stopped then some (s.setWorker w .exited) else none

/-- What a step does, and where its client or its worker is before. -/
inductive Task.Move (s : Task C) : TaskStep C → Task C → Prop
  | start (client : C) (hidle : s.client client = .idle) :
      s.Move (.start client) (s.start client)
  | stop (client : C) (hidle : s.client client = .idle) :
      s.Move (.stop client) (s.stop client false)
  | innerStop (client : C) (hrestarting : s.client client = .restarting) :
      s.Move (.innerStop client) (s.stop client true)
  | readId (client : C) (inner : Bool)
      (hjoining : s.client client = .joining inner) :
      s.Move (.readId client) (s.setClient client (.inJoin inner s.mId))
  | joinReturn (client : C) (inner : Bool) (target : Option Nat) (t : Task C)
      (hjoin : s.client client = .inJoin inner target)
      (hreturn : s.joinReturn client inner target = some t) :
      s.Move (.joinReturn client) t
  | stopJoined (client : C) (inner : Bool)
      (hjoined : s.client client = .joined inner) :
      s.Move (.stopJoined client) (s.stopJoined client inner)
  | recreate (client : C) (hrecreating : s.client client = .recreating) :
      s.Move (.recreate client) (s.create.setClient client .idle)
  | runReturns (w : Nat) (hw : s.worker w = .running) :
      s.Move (.runReturns w) (s.setWorker w .finished)
  | setStopped (w : Nat) (hw : s.worker w = .finished) :
      s.Move (.setStopped w)
        { s.setWorker w .stopped with mState := .TASK_STATE_STOPPED }
  | exit (w : Nat) (hw : s.worker w = .stopped) :
      s.Move (.exit w) (s.setWorker w .exited)

theorem Task.step_move {s t : Task C} {action : TaskStep C}
    (hstep : s.step action = some t) : s.Move action t := by
  cases action with
  | start client =>
      cases hpc : s.client client <;> simp only [Task.step, hpc, reduceCtorEq] at hstep
      exact Option.some.inj hstep ▸ .start client hpc
  | stop client =>
      cases hpc : s.client client <;> simp only [Task.step, hpc, reduceCtorEq] at hstep
      exact Option.some.inj hstep ▸ .stop client hpc
  | innerStop client =>
      cases hpc : s.client client <;> simp only [Task.step, hpc, reduceCtorEq] at hstep
      exact Option.some.inj hstep ▸ .innerStop client hpc
  | readId client =>
      cases hpc : s.client client <;> simp only [Task.step, hpc, reduceCtorEq] at hstep
      exact Option.some.inj hstep ▸ .readId client _ hpc
  | joinReturn client =>
      cases hpc : s.client client <;> simp only [Task.step, hpc, reduceCtorEq] at hstep
      exact .joinReturn client _ _ t hpc hstep
  | stopJoined client =>
      cases hpc : s.client client <;> simp only [Task.step, hpc, reduceCtorEq] at hstep
      exact Option.some.inj hstep ▸ .stopJoined client _ hpc
  | recreate client =>
      cases hpc : s.client client <;> simp only [Task.step, hpc, reduceCtorEq] at hstep
      exact Option.some.inj hstep ▸ .recreate client hpc
  | runReturns w =>
      obtain ⟨hw, hnext⟩ := Option.ite_none_right_eq_some.mp hstep
      exact Option.some.inj hnext ▸ .runReturns w hw
  | setStopped w =>
      obtain ⟨hw, hnext⟩ := Option.ite_none_right_eq_some.mp hstep
      exact Option.some.inj hnext ▸ .setStopped w hw
  | exit w =>
      obtain ⟨hw, hnext⟩ := Option.ite_none_right_eq_some.mp hstep
      exact Option.some.inj hnext ▸ .exit w hw

end MyDirectFB

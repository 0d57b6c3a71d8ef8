/-
The event loop as a whole (base/event_loop.cpp, base/timer.cpp, main.cpp): the
loop of `main` over `EventLoop::loop`, with the timers, the watchers and the
loop's own pipe, into which `wakeup` and `terminate` write one byte each.  The
callbacks of a pass and the other threads change the timers and the watchers and
write to the pipe.  The pipe never fills up, and the watchers are not changed
while the descriptors are collected.
-/
import MyDirectFB.Lib.Channel
import MyDirectFB.Lib.LabelledRun
import MyDirectFB.ListenerList
import MyDirectFB.Timer

namespace MyDirectFB

universe u v

/-! ### How often a timer wakes the loop up -/

section

variable {I : Type u} [DecidableEq I]

/-- The calls of `wakeup` that a call on a timer makes. -/
def TimerCall.wakeups (s : EventLoop I) : TimerCall I → Nat
  | .start id _ _ _ => if (s.timer id).mRunning then 0 else 1
  | .stop _ => 1
  -- the `start` in a restart finds the timer stopped
  | .restart id _ => if (s.timer id).mRunning then 2 else 1

def handlerWakeups (s : EventLoop I) : List (TimerCall I) → Nat
  | [] => 0
  | call :: rest => call.wakeups s + handlerWakeups (call.perform s) rest

/-- The calls of `wakeup` during a call of `runTimers`. -/
def EventLoop.wakeups (s : EventLoop I) (now : UInt64)
    (handler : List (TimerCall I)) : Nat :=
  match s.mTimers with
  | [] => 0
  | front :: _ =>
      if s.getExpiry front ≤ now ∧ (s.timer front).mHandler then
        handlerWakeups s handler
      else 0

end

/-! ### A pass of the loop -/

/-- `_MAX` over the descriptors, from the one of the pipe on. -/
def lastFd (pipeFd : Int) (fds : List Int) : Int :=
  fds.foldl (fun nLastFd fd => if fd > nLastFd then fd else nLastFd) pipeFd

/-- The arguments of `select`: the set of descriptors, and their bound. -/
structure SelectSet where
  sReadFds : List Int
  nLastFd : Int
deriving Repr, DecidableEq

/-- `select` looks at a descriptor. -/
def SelectSet.Watches (set : SelectSet) (fd : Int) : Prop :=
  fd ∈ set.sReadFds ∧ fd < set.nLastFd

instance (set : SelectSet) (fd : Int) : Decidable (set.Watches fd) :=
  inferInstanceAs (Decidable (_ ∧ _))

/-- What `select` returns: 0, -1 with `EINTR`, -1 with another error, or a
number of descriptors that are ready. -/
inductive SelectOutcome where
  | timeout
  | interrupted
  | failed
  | ready (fds : List Int)
deriving Repr, DecidableEq

/-- Where the loop's thread is. -/
inductive PassPc where
  /-- In the loop of `main`, before the next call of `loop`. -/
  | between
  /-- In `while((timeToWait = runTimers()) == 0)`. -/
  | draining (set : SelectSet)
  /-- In `select`, after the last `runTimers` at the reading `now`. -/
  | selecting (set : SelectSet) (now : UInt64) (timeToWait : Int)
  | selected (ready : List Int)
  | dispatching (ready : List Int)
  /-- `loop` has returned false. -/
  | ended
deriving Repr, DecidableEq

/-- The event loop and its thread.  `unsent` counts the changes of timers by
threads that have not called `wakeup` yet, `passes` the calls of `loop`, and
`served` the passes that have come to the watchers. -/
structure LoopThread (I : Type u) (L : Type v) where
  timers : EventLoop I
  watchers : DispatchLoop L
  mPipe : Channel Char
  unsent : Nat
  pc : PassPc
  passes : Nat
  served : Nat

/-- `enter` has what `getFD` of each watcher returns, `visit` what `getFD` of
the watcher at hand returns. -/
inductive LoopAction (I : Type u) (L : Type v) where
  | enter (fds : List Int)
  | runTimers (now : UInt64) (handler : List (TimerCall I))
  | select (outcome : SelectOutcome)
  | readCommand (succeeds : Bool)
  | lockWatchers
  | visit (fd : Int)
  | returns (result : Bool)
  | unlockWatchers
  | addFdWatcher (watcher : Option L)
  | removeFdWatcher (watcher : Option L)
  | timerCall (call : TimerCall I)
  | sendWakeup
  | wakeup
  | terminate
deriving Repr, DecidableEq

namespace LoopThread

variable {I : Type u} {L : Type v}

def init (timers : EventLoop I) (watchers : NodeList L) : LoopThread I L where
  timers := timers
  watchers := DispatchLoop.init watchers
  mPipe := Channel.empty
  unsent := 0
  pc := .between
  passes := 0
  served := 0

/-- A write to the pipe. -/
def write (s : LoopThread I L) (bytes : List Char) : LoopThread I L :=
  { s with mPipe := s.mPipe.send bytes }

/-- What the kernel may answer.  The pipe is ready as soon as a byte is in it,
and only then. -/
def Admits (pipeFd : Int) (set : SelectSet) (mPipe : Channel Char) :
    SelectOutcome → Prop
  | .timeout => ¬ (set.Watches pipeFd ∧ mPipe.queue ≠ [])
  | .interrupted | .failed => True
  | .ready fds => fds ≠ [] ∧ (∀ fd ∈ fds, set.Watches fd) ∧
      (set.Watches pipeFd → (pipeFd ∈ fds ↔ mPipe.queue ≠ []))

instance (pipeFd : Int) (set : SelectSet) (mPipe : Channel Char)
    (outcome : SelectOutcome) : Decidable (Admits pipeFd set mPipe outcome) :=
  match outcome with
  | .timeout => inferInstanceAs (Decidable (¬ _))
  | .interrupted | .failed => inferInstanceAs (Decidable True)
  | .ready _ => inferInstanceAs (Decidable (_ ∧ _ ∧ _))

/-- Where `loop` goes on after `select`. -/
def SelectOutcome.next : SelectOutcome → PassPc
  | .timeout | .interrupted => .between
  | .failed => .ended
  | .ready fds => .selected fds

/-- The `switch(cCmd)`.  An unknown command is logged. -/
def afterCommand (cCmd : Char) : PassPc :=
  match cCmd with
  | 'T' => .ended
  | 'S' => .between
  | _ => .between

variable [DecidableEq I] [DecidableEq L]

/-- A step of the loop over the watchers, or a change of their list. -/
def dispatch (s : LoopThread I L) (pc : PassPc) (action : DispatchStep L) :
    Option (LoopThread I L) :=
  (s.watchers.step .mFdWatchers action).map fun watchers =>
    { s with watchers := watchers, pc := pc }

/-- The transition function; `pipeFd` is `mPipe[0]`. -/
def step (pipeFd : Int) (s : LoopThread I L) :
    LoopAction I L → Option (LoopThread I L)
  | .enter fds =>
      match s.pc with
      | .between =>
          if fds.length = s.watchers.list.values.length then
            some { s with
              passes := s.passes + 1
              pc :=
                if lastFd pipeFd fds < 0 then .ended
                else .draining ⟨pipeFd :: fds, lastFd pipeFd fds + 1⟩ }
          else none
      | _ => none
  | .runTimers now handler =>
      match s.pc with
      | .draining set =>
          let round := s.timers.runTimers now handler
          some { s.write (List.replicate (s.timers.wakeups now handler) 'S') with
            timers := round.loop
            pc :=
              if round.timeout = 0 then .draining set
              else .selecting set now round.timeout }
      | _ => none
  | .select outcome =>
      match s.pc with
      | .selecting set _ _ =>
          if Admits pipeFd set s.mPipe outcome then
            some { s with pc := SelectOutcome.next outcome }
          else none
      | _ => none
  | .readCommand succeeds =>
      match s.pc with
      | .selected ready =>
          if pipeFd ∈ ready then
            if succeeds then
              s.mPipe.take?.map fun (cCmd, mPipe) =>
                { s with mPipe := mPipe, pc := afterCommand cCmd }
            else some { s with pc := .between }
          else none
      | _ => none
  | .lockWatchers =>
      match s.pc with
      | .selected ready =>
          if pipeFd ∈ ready then none
          else ({ s with served := s.served + 1 }).dispatch (.dispatching ready) .begin
      | _ => none
  | .visit fd =>
      match s.pc with
      | .dispatching ready => s.dispatch s.pc (.visit (fd ∈ ready))
      | _ => none
  | .returns result => s.dispatch s.pc (.returns result)
  | .unlockWatchers =>
      match s.pc with
      | .dispatching _ => s.dispatch .between .finish
      | _ => none
  | .addFdWatcher watcher => s.dispatch s.pc (.add watcher)
  | .removeFdWatcher watcher => s.dispatch s.pc (.remove watcher)
  | .timerCall call =>
      some { s with
        timers := call.perform s.timers
        unsent := s.unsent + call.wakeups s.timers }
  | .sendWakeup =>
      if s.unsent = 0 then none
      else some { s.write ['S'] with unsent := s.unsent - 1 }
  | .wakeup => some (s.write ['S'])
  | .terminate => some (s.write ['T'])

/-! ### What a step does -/

/-- A step, with what is known of the state before it. -/
inductive Move (pipeFd : Int) (s : LoopThread I L) :
    LoopAction I L → LoopThread I L → Prop
  | enter (fds : List Int) (hpc : s.pc = .between)
      (hfd : 0 ≤ lastFd pipeFd fds) :
      Move pipeFd s (.enter fds) { s with
        passes := s.passes + 1
        pc := .draining ⟨pipeFd :: fds, lastFd pipeFd fds + 1⟩ }
  | noFd (fds : List Int) (hpc : s.pc = .between)
      (hfd : lastFd pipeFd fds < 0) :
      Move pipeFd s (.enter fds) { s with passes := s.passes + 1, pc := .ended }
  | drain (now : UInt64) (handler : List (TimerCall I)) (set : SelectSet)
      (hpc : s.pc = .draining set)
      (hzero : (s.timers.runTimers now handler).timeout = 0) :
      Move pipeFd s (.runTimers now handler)
        { s.write (List.replicate (s.timers.wakeups now handler) 'S') with
          timers := (s.timers.runTimers now handler).loop
          pc := .draining set }
  | drained (now : UInt64) (handler : List (TimerCall I)) (set : SelectSet)
      (hpc : s.pc = .draining set)
      (hwait : (s.timers.runTimers now handler).timeout ≠ 0) :
      Move pipeFd s (.runTimers now handler)
        { s.write (List.replicate (s.timers.wakeups now handler) 'S') with
          timers := (s.timers.runTimers now handler).loop
          pc := .selecting set now (s.timers.runTimers now handler).timeout }
  | select (outcome : SelectOutcome) (set : SelectSet) (now : UInt64)
      (timeToWait : Int) (hpc : s.pc = .selecting set now timeToWait)
      (hadmits : Admits pipeFd set s.mPipe outcome) :
      Move pipeFd s (.select outcome) { s with pc := SelectOutcome.next outcome }
  | readCommand (ready : List Int) (cCmd : Char) (mPipe : Channel Char)
      (hpc : s.pc = .selected ready) (hready : pipeFd ∈ ready)
      (htake : s.mPipe.take? = some (cCmd, mPipe)) :
      Move pipeFd s (.readCommand true)
        { s with mPipe := mPipe, pc := afterCommand cCmd }
  | readFailed (ready : List Int) (hpc : s.pc = .selected ready)
      (hready : pipeFd ∈ ready) :
      Move pipeFd s (.readCommand false) { s with pc := .between }
  | lockWatchers (ready : List Int) (watchers : DispatchLoop L)
      (hpc : s.pc = .selected ready) (hready : pipeFd ∉ ready)
      (hbegin : s.watchers.step .mFdWatchers .begin = some watchers) :
      Move pipeFd s .lockWatchers { s with
        watchers := watchers, served := s.served + 1, pc := .dispatching ready }
  | visit (fd : Int) (ready : List Int) (watchers : DispatchLoop L)
      (hpc : s.pc = .dispatching ready)
      (hvisit : s.watchers.step .mFdWatchers (.visit (fd ∈ ready)) =
        some watchers) :
      Move pipeFd s (.visit fd) { s with watchers := watchers }
  | unlockWatchers (ready : List Int) (watchers : DispatchLoop L)
      (hpc : s.pc = .dispatching ready)
      (hfinish : s.watchers.step .mFdWatchers .finish = some watchers) :
      Move pipeFd s .unlockWatchers
        { s with watchers := watchers, pc := .between }
  | returns (result : Bool) (watchers : DispatchLoop L)
      (hreturns : s.watchers.step .mFdWatchers (.returns result) =
        some watchers) :
      Move pipeFd s (.returns result) { s with watchers := watchers }
  | addFdWatcher (watcher : Option L) (watchers : DispatchLoop L)
      (hadd : s.watchers.step .mFdWatchers (.add watcher) = some watchers) :
      Move pipeFd s (.addFdWatcher watcher) { s with watchers := watchers }
  | removeFdWatcher (watcher : Option L) (watchers : DispatchLoop L)
      (hremove : s.watchers.step .mFdWatchers (.remove watcher) =
        some watchers) :
      Move pipeFd s (.removeFdWatcher watcher) { s with watchers := watchers }
  | timerCall (call : TimerCall I) :
      Move pipeFd s (.timerCall call) { s with
        timers := call.perform s.timers
        unsent := s.unsent + call.wakeups s.timers }
  | sendWakeup (hunsent : s.unsent ≠ 0) :
      Move pipeFd s .sendWakeup { s.write ['S'] with unsent := s.unsent - 1 }
  | wakeup : Move pipeFd s .wakeup (s.write ['S'])
  | terminate : Move pipeFd s .terminate (s.write ['T'])

theorem step_move {pipeFd : Int} {s t : LoopThread I L} {action : LoopAction I L}
    (hstep : s.step pipeFd action = some t) : s.Move pipeFd action t := by
  cases action with
  | enter fds =>
      cases hpc : s.pc <;> simp only [step, hpc, reduceCtorEq] at hstep
      obtain ⟨-, hnext⟩ := Option.ite_none_right_eq_some.mp hstep
      obtain rfl := Option.some.inj hnext
      split
      · next hfd => exact .noFd fds hpc hfd
      · next hfd => exact .enter fds hpc (Int.not_lt.mp hfd)
  | runTimers now handler =>
      cases hpc : s.pc <;> simp only [step, hpc, reduceCtorEq] at hstep
      obtain rfl := Option.some.inj hstep
      split
      · next hzero => exact .drain now handler _ hpc hzero
      · next hwait => exact .drained now handler _ hpc hwait
  | select outcome =>
      cases hpc : s.pc <;> simp only [step, hpc, reduceCtorEq] at hstep
      obtain ⟨hadmits, hnext⟩ := Option.ite_none_right_eq_some.mp hstep
      exact Option.some.inj hnext ▸ .select outcome _ _ _ hpc hadmits
  | readCommand succeeds =>
      cases hpc : s.pc <;> simp only [step, hpc, reduceCtorEq] at hstep
      obtain ⟨hready, hnext⟩ := Option.ite_none_right_eq_some.mp hstep
      cases succeeds with
      | true =>
          obtain ⟨⟨cCmd, mPipe⟩, htake, rfl⟩ := Option.map_eq_some_iff.mp hnext
          exact .readCommand _ cCmd mPipe hpc hready htake
      | false => exact Option.some.inj hnext ▸ .readFailed _ hpc hready
  | lockWatchers =>
      cases hpc : s.pc <;> simp only [step, hpc, reduceCtorEq] at hstep
      obtain ⟨hready, hnext⟩ := Option.ite_none_left_eq_some.mp hstep
      obtain ⟨watchers, hbegin, rfl⟩ := Option.map_eq_some_iff.mp hnext
      exact .lockWatchers _ watchers hpc hready hbegin
  | visit fd =>
      cases hpc : s.pc <;> simp only [step, hpc, reduceCtorEq] at hstep
      obtain ⟨watchers, hvisit, rfl⟩ := Option.map_eq_some_iff.mp hstep
      exact hpc ▸ .visit fd _ watchers hpc hvisit
  | returns result =>
      obtain ⟨watchers, hreturns, rfl⟩ := Option.map_eq_some_iff.mp hstep
      exact .returns result watchers hreturns
  | unlockWatchers =>
      cases hpc : s.pc <;> simp only [step, hpc, reduceCtorEq] at hstep
      obtain ⟨watchers, hfinish, rfl⟩ := Option.map_eq_some_iff.mp hstep
      exact .unlockWatchers _ watchers hpc hfinish
  | addFdWatcher watcher =>
      obtain ⟨watchers, hadd, rfl⟩ := Option.map_eq_some_iff.mp hstep
      exact .addFdWatcher watcher watchers hadd
  | removeFdWatcher watcher =>
      obtain ⟨watchers, hremove, rfl⟩ := Option.map_eq_some_iff.mp hstep
      exact .removeFdWatcher watcher watchers hremove
  | timerCall call => exact Option.some.inj hstep ▸ .timerCall call
  | sendWakeup =>
      obtain ⟨hunsent, hnext⟩ := Option.ite_none_left_eq_some.mp hstep
      exact Option.some.inj hnext ▸ .sendWakeup hunsent
  | wakeup => exact Option.some.inj hstep ▸ .wakeup
  | terminate => exact Option.some.inj hstep ▸ .terminate

end LoopThread

end MyDirectFB

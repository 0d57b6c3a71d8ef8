/-
Timers and the part of the event loop that runs them: `Timer` (timer.cpp),
`EventLoop::addTimer`, `removeTimer`, `runTimers` and the drain loop of
`EventLoop::loop` (event_loop.cpp), and `SysTime::getTickCountMs`
(sys_time.cpp).  Timer objects are named by an arbitrary type of identities,
which stand for the pointers that `mTimers` holds.  The bytes that
`EventLoop::wakeup` puts into the loop's own pipe play no part in the timer
list and are left out.
-/
import Mathlib.Algebra.Ring.Nat
import Mathlib.Data.List.Sort
import Mathlib.Logic.Function.Basic

namespace MyDirectFB

universe u

/-- A valid `struct timespec` of the monotonic clock. -/
structure Timespec where
  tv_sec : Nat
  tv_nsec : Nat
  sec_lt : tv_sec < 2 ^ 63
  nsec_lt : tv_nsec < 1000000000

/-- `SysTime::getTickCountMs`, given what `clock_gettime` stored. -/
def getTickCountMs (now : Timespec) : UInt64 :=
  UInt64.ofNat now.tv_sec * 1000 + UInt64.ofNat (now.tv_nsec / 1000000)

/-- Every 64-bit number of milliseconds is the reading of some valid clock, so
a clock reading below is an arbitrary `UInt64`. -/
theorem getTickCountMs_surjective : Function.Surjective getTickCountMs := by
  intro ms
  have hms : ms.toNat < 2 ^ 64 := ms.toNat_lt
  refine ⟨⟨ms.toNat / 1000, ms.toNat % 1000 * 1000000, by omega, by omega⟩, ?_⟩
  apply UInt64.toNat_inj.mp
  simp only [getTickCountMs, UInt64.toNat_add, UInt64.toNat_mul,
    UInt64.toNat_ofNat', UInt64.toNat_ofNat]
  omega

/-- `TIMER_INFINITE`, the largest `unsigned int`. -/
def TIMER_INFINITE : UInt32 := 0xFFFFFFFF

/-- `WAIT_TIME` of event_loop.cpp, in milliseconds. -/
def WAIT_TIME : Int := 10 * 1000

/-- The data members of `Timer`.  Of `mHandler` only whether it is null is
kept: what a handler does is an argument of the firing. -/
structure Timer where
  mHandler : Bool
  mInterval : UInt32
  mRepeat : Bool
  mExpiry : UInt64
  mRunning : Bool
deriving Repr, DecidableEq

/-- The constructor `Timer::Timer` with a handler installed afterwards or not.
It leaves `mExpiry` unset, so its value is arbitrary. -/
def Timer.new (mHandler : Bool) (mExpiry : UInt64) : Timer :=
  ⟨mHandler, TIMER_INFINITE, false, mExpiry, false⟩

/-- The timer objects that exist, and the list of them the event loop keeps. -/
structure EventLoop (I : Type u) where
  timer : I → Timer
  mTimers : List I

variable {I : Type u}

/-- Every timer constructed and none started. -/
def EventLoop.init (handler : I → Bool) (expiry : I → UInt64) : EventLoop I :=
  ⟨fun id => Timer.new (handler id) (expiry id), []⟩

def EventLoop.getExpiry (s : EventLoop I) (id : I) : UInt64 :=
  (s.timer id).mExpiry

/-- The comparison `timer_sort`. -/
def EventLoop.timerSort (s : EventLoop I) (first second : I) : Bool :=
  s.getExpiry first < s.getExpiry second

/-- `mTimers.sort(timer_sort)`.  `std::list::sort` is stable, so it moves an
entry in front of another only when `timer_sort` says so. -/
def EventLoop.sortTimers (s : EventLoop I) : EventLoop I :=
  { s with mTimers :=
      s.mTimers.insertionSort fun first second => ¬ s.timerSort second first }

variable [DecidableEq I]

def EventLoop.set (s : EventLoop I) (id : I) (value : Timer) : EventLoop I :=
  { s with timer := Function.update s.timer id value }

/-- `EventLoop::addTimer`.  A timer that is in the list already is only
reported. -/
def EventLoop.addTimer (s : EventLoop I) (id : I) : EventLoop I :=
  EventLoop.sortTimers { s with mTimers := s.mTimers ++ [id] }

/-- `EventLoop::removeTimer`. -/
def EventLoop.removeTimer (s : EventLoop I) (id : I) : EventLoop I :=
  if id ∈ s.mTimers then
    EventLoop.sortTimers { s with mTimers := s.mTimers.erase id }
  else s

/-- `Timer::start` at the clock reading `now`. -/
def Timer.start (s : EventLoop I) (id : I) (msec : UInt32) (isRepeat : Bool)
    (now : UInt64) : EventLoop I :=
  if (s.timer id).mRunning then s
  else
    (s.set id
      { s.timer id with
        mInterval := msec
        mRepeat := isRepeat
        mExpiry :=
          if msec ≠ TIMER_INFINITE then now + msec.toUInt64
          else 0xFFFFFFFFFFFFFFFF
        mRunning := true }).addTimer id

/-- `Timer::stop`. -/
def Timer.stop (s : EventLoop I) (id : I) : EventLoop I :=
  (s.set id { s.timer id with mRunning := false }).removeTimer id

/-- `Timer::restart`. -/
def Timer.restart (s : EventLoop I) (id : I) (now : UInt64) : EventLoop I :=
  let stopped := if (s.timer id).mRunning then Timer.stop s id else s
  Timer.start stopped id (stopped.timer id).mInterval
    (stopped.timer id).mRepeat now

/-- One call on a timer, by a handler or by the program outside of handlers. -/
inductive TimerCall (I : Type u) where
  | start (id : I) (msec : UInt32) (isRepeat : Bool) (now : UInt64)
  | stop (id : I)
  | restart (id : I) (now : UInt64)
deriving Repr, DecidableEq

def TimerCall.perform (s : EventLoop I) : TimerCall I → EventLoop I
  | .start id msec isRepeat now => Timer.start s id msec isRepeat now
  | .stop id => Timer.stop s id
  | .restart id now => Timer.restart s id now

/-- The first half of `Timer::execute`: the state in which the handler of `id`
returns, when it makes the calls of `handler`. -/
def Timer.callHandler (s : EventLoop I) (id : I) (handler : List (TimerCall I)) :
    EventLoop I :=
  if (s.timer id).mHandler then handler.foldl TimerCall.perform s else s

/-- The second half of `Timer::execute`, and what it returns. -/
def Timer.rearm (s : EventLoop I) (id : I) : EventLoop I × Bool :=
  let timer := s.timer id
  if timer.mRepeat then
    (s.set id { timer with
      mExpiry := timer.mExpiry + timer.mInterval.toUInt64 }, true)
  else (s.set id { timer with mRunning := false }, false)

/-- `Timer::execute`. -/
def Timer.execute (s : EventLoop I) (id : I) (handler : List (TimerCall I)) :
    EventLoop I × Bool :=
  Timer.rearm (Timer.callHandler s id handler) id

/-- `if(timer == mTimers.front()) mTimers.pop_front();` -/
def EventLoop.popIfFront (s : EventLoop I) (id : I) : EventLoop I :=
  match s.mTimers with
  | [] => s
  | front :: rest => if id = front then { s with mTimers := rest } else s

/-- The conversion of a `uint64_t` to `int32_t`. -/
def toInt32 (value : UInt64) : Int :=
  Int.bmod value.toNat (2 ^ 32)

/-- The last lines of `runTimers`: the result lies between 0 and `WAIT_TIME`. -/
def clampTimeout (timeout : Int) : Int :=
  if timeout < 0 then 0
  else if timeout > WAIT_TIME then WAIT_TIME
  else timeout

/-- A handler call: the timer and the expiry it had at the call. -/
structure HandlerCall (I : Type u) where
  id : I
  expiry : UInt64
deriving Repr, DecidableEq

/-- What one call of `runTimers` leaves behind.  `frontOfEmpty` records that
`mTimers.front()` was evaluated on an empty list. -/
structure RunTimers (I : Type u) where
  loop : EventLoop I
  timeout : Int
  called : List (HandlerCall I)
  frontOfEmpty : Bool

/-- The branch of `runTimers` in which the front timer `id` is due. -/
def EventLoop.fire (s : EventLoop I) (now : UInt64) (id : I)
    (handler : List (TimerCall I)) : RunTimers I :=
  let executed := Timer.execute s id handler
  let popped :=
    if executed.2 then executed.1 else executed.1.popIfFront id
  let sorted := popped.sortTimers
  { loop := sorted
    timeout := clampTimeout (match sorted.mTimers with
      | [] => WAIT_TIME
      | front :: _ => toInt32 (sorted.getExpiry front - now))
    called := if (s.timer id).mHandler then [⟨id, s.getExpiry id⟩] else []
    -- the comparison with `mTimers.front()` follows a false result only
    frontOfEmpty := !executed.2 && executed.1.mTimers.isEmpty }

/-- `EventLoop::runTimers` at the clock reading `now`; `handler` is what the
handler of the timer does if one is called. -/
def EventLoop.runTimers (s : EventLoop I) (now : UInt64)
    (handler : List (TimerCall I)) : RunTimers I :=
  match s.mTimers with
  | [] => ⟨s, clampTimeout WAIT_TIME, [], false⟩
  | front :: _ =>
      if s.getExpiry front ≤ now then s.fire now front handler
      else ⟨s, clampTimeout (toInt32 (s.getExpiry front - now)), [], false⟩

/-- The loop `while((timeToWait = runTimers()) == 0) { }` at a clock that
stands still, with handlers that leave the timers alone: the state it ends in,
the time to wait and the handler calls it made.  `none` is an exhausted
`fuel`. -/
def EventLoop.drainTimers (now : UInt64) :
    Nat → EventLoop I → Option (RunTimers I)
  | 0, _ => none
  | fuel + 1, s =>
      let round := s.runTimers now []
      if round.timeout = 0 then
        (drainTimers now fuel round.loop).map fun rest =>
          { rest with
            called := round.called ++ rest.called
            frontOfEmpty := round.frontOfEmpty || rest.frontOfEmpty }
      else some round

/-- One operation of the program on its timers outside of any handler. -/
inductive TopStep (I : Type u) where
  | call (operation : TimerCall I)
  | runTimers (now : UInt64) (handler : List (TimerCall I))
deriving Repr, DecidableEq

def TopStep.perform (s : EventLoop I) : TopStep I → EventLoop I
  | .call operation => operation.perform s
  | .runTimers now handler => (s.runTimers now handler).loop

end MyDirectFB

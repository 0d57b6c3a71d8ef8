/-
The lifetimes of containers and timers.  An event in the pipe of a container
holds its address, and `mTimers` holds the addresses of timers; the destructors
`Container::~Container` and `Timer::~Timer` leave both alone.  All of it happens
on the thread of the event loop, so that an event is posted and read as a whole.
An object that a callback creates counts as created before the callback.
-/
import MyDirectFB.ContainerEvent
import MyDirectFB.TimerRearm

namespace MyDirectFB

universe u

/-! ### Events in the pipe -/

def ContainerCall.container : ContainerCall → Container
  | .show container => container
  | .hide container => container
  | .requestFocus container => container
  | .sendMessage container _ _ => container

/-- The bytes a call puts into the pipe. -/
def ContainerCall.bytes (call : ContainerCall) : List UInt8 :=
  call.writes.flatten

/-- The reads of `onFdReadable` from `pc` on: the events it dispatches, and the
bytes that are left.  A read waits for its bytes. -/
def ReaderPc.readEvent : Nat → ReaderPc → List UInt8 →
    Option (List Event × List UInt8)
  | 0, _, _ => none
  | fuel + 1, pc, pipe =>
      if pc.asked ≤ pipe.length then
        match pc.onRead (pipe.take pc.asked) with
        | (.atEventID, events) => some (events, pipe.drop pc.asked)
        | (next, _) => next.readEvent fuel (pipe.drop pc.asked)
      else none

/-- `ContainerEvent::onFdReadable`.  An event has four fields at most. -/
def onFdReadable (pipe : List UInt8) : Option (List Event × List UInt8) :=
  ReaderPc.readEvent 4 .atEventID pipe

/-- The events that `onFdReadable` will find in the pipe. -/
def pendingEvents : Nat → List UInt8 → List Event
  | 0, _ => []
  | fuel + 1, pipe =>
      match onFdReadable pipe with
      | none => []
      | some (events, rest) => events ++ pendingEvents fuel rest

/-! ### Objects -/

/-- What a callback does: its calls on timers, and the events it posts. -/
structure CallbackBody (I : Type u) where
  calls : List (TimerCall I)
  posts : List ContainerCall
deriving Repr, DecidableEq

def CallbackBody.bytes {I : Type u} (callback : CallbackBody I) : List UInt8 :=
  callback.posts.flatMap ContainerCall.bytes

/-- The containers and timers that exist, with the two queues that point to
them. -/
structure Objects (I : Type u) where
  containerLive : UInt64 → Bool
  timerLive : I → Bool
  pipe : List UInt8
  loop : EventLoop I

inductive ObjectStep (I : Type u) where
  | createContainer (container : Container)
  | destroyContainer (container : Container)
  | createTimer (id : I) (mHandler : Bool) (mExpiry : UInt64)
  | destroyTimer (id : I)
  | post (call : ContainerCall)
  | timer (operation : TimerCall I)
  | onFdReadable (callback : CallbackBody I)
  | runTimers (now : UInt64) (callback : CallbackBody I)
deriving Repr, DecidableEq

variable {I : Type u}

/-- No object yet.  `timer` is what the memory of the timers holds. -/
def Objects.init (timer : I → Timer) : Objects I where
  containerLive _ := false
  timerLive _ := false
  pipe := []
  loop := ⟨timer, []⟩

/-- The calls of a callback are on objects that exist. -/
def CallbackBody.OnLive (callback : CallbackBody I) (s : Objects I) : Prop :=
  (∀ call ∈ callback.calls, s.timerLive call.target = true) ∧
    ∀ call ∈ callback.posts, s.containerLive call.container.this = true

instance (callback : CallbackBody I) (s : Objects I) :
    Decidable (callback.OnLive s) :=
  inferInstanceAs (Decidable (_ ∧ _))

variable [DecidableEq I]

/-- The transition function.  The program calls functions of objects that exist
only. -/
def Objects.step (s : Objects I) : ObjectStep I → Option (Objects I)
  | .createContainer container =>
      if s.containerLive container.this = false then
        some { s with containerLive :=
          Function.update s.containerLive container.this true }
      else none
  | .destroyContainer container =>
      if s.containerLive container.this = true then
        some { s with containerLive :=
          Function.update s.containerLive container.this false }
      else none
  | .createTimer id mHandler mExpiry =>
      if s.timerLive id = false then
        some { s with
          timerLive := Function.update s.timerLive id true
          loop := s.loop.set id (Timer.new mHandler mExpiry) }
      else none
  | .destroyTimer id =>
      if s.timerLive id = true then
        some { s with timerLive := Function.update s.timerLive id false }
      else none
  | .post call =>
      if s.containerLive call.container.this = true then
        some { s with pipe := s.pipe ++ call.bytes }
      else none
  | .timer operation =>
      if s.timerLive operation.target = true then
        some { s with loop := operation.perform s.loop }
      else none
  | .onFdReadable callback =>
      if callback.OnLive s then
        (MyDirectFB.onFdReadable s.pipe).map fun result =>
          if result.1 = [] then { s with pipe := result.2 }
          else { s with
            pipe := result.2 ++ callback.bytes
            loop := callback.calls.foldl TimerCall.perform s.loop }
      else none
  | .runTimers now callback =>
      if callback.OnLive s then
        let round := s.loop.runTimers now callback.calls
        some { s with
          pipe := if round.called = [] then s.pipe
            else s.pipe ++ callback.bytes
          loop := round.loop }
      else none

omit [DecidableEq I] in
/-- The containers a step calls a function of. -/
def ObjectStep.containersTouched (s : Objects I) : ObjectStep I → List UInt64
  | .onFdReadable _ =>
      match MyDirectFB.onFdReadable s.pipe with
      | none => []
      | some (events, _) => events.map Event.container
  | _ => []

/-- The timers `runTimers` reads the expiry of or executes: the front timer and,
when that is due, all that the sort and the timeout look at after it. -/
def ObjectStep.timersTouched (s : Objects I) : ObjectStep I → List I
  | .runTimers now callback =>
      match s.loop.mTimers with
      | [] => []
      | front :: _ =>
          if s.loop.getExpiry front ≤ now then
            front :: (s.loop.runTimers now callback.calls).loop.mTimers
          else [front]
  | _ => []

end MyDirectFB

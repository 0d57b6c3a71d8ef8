/-
No timer of the event loop fires early.  A run is watched together with the
latest `start` or `restart` of each timer, until the handler of the timer is
called; what has to be kept is that the expiry of a timer reaches the time it
has been started for.
-/
import MyDirectFB.TimerRearm

namespace MyDirectFB

universe u

/-- A call of `start`: the clock reading at the call and the interval. -/
structure Arming where
  time : UInt64
  msec : UInt32
deriving Repr, DecidableEq

/-- A handler call at the reading `now` is not early. -/
def Arming.ExpiredAt (arming : Arming) (now : UInt64) : Prop :=
  arming.msec ≠ TIMER_INFINITE ∧
    arming.time.toNat + arming.msec.toNat ≤ now.toNat

/-- The expiry is not before the time the timer has been started for, or beyond
every reading of the clock. -/
def Arming.ReachedBy (arming : Arming) (expiry : UInt64) : Prop :=
  if arming.msec = TIMER_INFINITE then 2 ^ 63 ≤ expiry.toNat
  else arming.time.toNat + arming.msec.toNat ≤ expiry.toNat

variable {I : Type u}

/-- The timers of the event loop with the latest start of each, until its
handler is called. -/
structure ArmedTimers (I : Type u) where
  loop : EventLoop I
  armed : I → Option Arming

def ArmedTimers.init (handler : I → Bool) (expiry : I → UInt64) :
    ArmedTimers I :=
  ⟨EventLoop.init handler expiry, fun _ => none⟩

namespace ArmedTimers

/-- The invariant: every timer that has been started expires late enough. -/
def Kept (s : ArmedTimers I) : Prop :=
  ∀ id arming, s.armed id = some arming →
    arming.ReachedBy (s.loop.getExpiry id)

theorem init_kept (handler : I → Bool) (expiry : I → UInt64) :
    (ArmedTimers.init handler expiry).Kept := by
  intro id arming harmed
  cases harmed

end ArmedTimers

/-- The timer that `runTimers` executes at the reading `now`. -/
def EventLoop.dueTimer (s : EventLoop I) (now : UInt64) : Option I :=
  match s.mTimers with
  | [] => none
  | front :: _ => if s.getExpiry front ≤ now then some front else none

variable [DecidableEq I]

/-- What a call arms. -/
def TimerCall.arm (s : ArmedTimers I) : TimerCall I → I → Option Arming
  | .start id msec _ now => Function.update s.armed id (some ⟨now, msec⟩)
  | .stop _ => s.armed
  | .restart id now =>
      Function.update s.armed id (some ⟨now, (s.loop.timer id).mInterval⟩)

def ArmedTimers.call (s : ArmedTimers I) (operation : TimerCall I) :
    ArmedTimers I :=
  ⟨operation.perform s.loop, operation.arm s⟩

/-- The state in which the handler of `id` returns. -/
def ArmedTimers.callHandler (s : ArmedTimers I) (id : I)
    (handler : List (TimerCall I)) : ArmedTimers I :=
  let called := { s with armed := Function.update s.armed id none }
  if (s.loop.timer id).mHandler then handler.foldl ArmedTimers.call called
  else called

def ArmedTimers.perform (s : ArmedTimers I) : TopStep I → ArmedTimers I
  | .call operation => s.call operation
  | .runTimers now handler =>
      { loop := (s.loop.runTimers now handler).loop
        armed :=
          match s.loop.dueTimer now with
          | none => s.armed
          | some id => (s.callHandler id handler).armed }

def ArmedTimers.step (s : ArmedTimers I) (action : TopStep I) :
    Option (ArmedTimers I) :=
  some (s.perform action)

/-- The condition on a call: the clock stays below `2 ^ 63`, and a `start` that
finds the timer running, and leaves it as it is, finds an expiry that is late
enough. -/
def TimerCall.InTime (s : ArmedTimers I) : TimerCall I → Prop
  | .start id msec _ now => now.toNat < 2 ^ 63 ∧
      ((s.loop.timer id).mRunning = true →
        Arming.ReachedBy ⟨now, msec⟩ (s.loop.getExpiry id))
  | .stop _ => True
  | .restart _ now => now.toNat < 2 ^ 63

/-- The same for the calls of a handler. -/
def ArmedTimers.CallsInTime (s : ArmedTimers I) : List (TimerCall I) → Prop
  | [] => True
  | operation :: rest =>
      operation.InTime s ∧ (s.call operation).CallsInTime rest

/-- The condition on a step.  A handler does not start its own timer for
`TIMER_INFINITE` and to be repeated. -/
def TopStep.InTime (s : ArmedTimers I) : TopStep I → Prop
  | .call operation => operation.InTime s
  | .runTimers now handler => now.toNat < 2 ^ 63 ∧
      ∀ id, s.loop.dueTimer now = some id →
        ((s.loop.timer id).mHandler = true →
          ArmedTimers.CallsInTime
            { s with armed := Function.update s.armed id none } handler) ∧
        (((s.callHandler id handler).loop.timer id).mRepeat = true →
          ((s.callHandler id handler).loop.timer id).mInterval =
            TIMER_INFINITE →
          (s.callHandler id handler).armed id = none)

/-- The handler calls of a step are not early. -/
def TopStep.NotEarly (s : ArmedTimers I) : TopStep I → Prop
  | .call _ => True
  | .runTimers now handler =>
      ∀ call ∈ (s.loop.runTimers now handler).called,
        ∀ arming, s.armed call.id = some arming → arming.ExpiredAt now

theorem Arming.ReachedBy.expiredAt {arming : Arming} {expiry now : UInt64}
    (hreached : arming.ReachedBy expiry) (hdue : expiry ≤ now)
    (hnow : now.toNat < 2 ^ 63) : arming.ExpiredAt now := by
  have hle := UInt64.le_iff_toNat_le.mp hdue
  unfold Arming.ReachedBy at hreached
  split at hreached
  · exact absurd (Nat.lt_of_le_of_lt (hreached.trans hle) hnow)
      (Nat.lt_irrefl _)
  · rename_i hfinite
    exact ⟨hfinite, hreached.trans hle⟩

/-- A later expiry will do as well. -/
theorem Arming.ReachedBy.mono {arming : Arming} {expiry later : UInt64}
    (hreached : arming.ReachedBy expiry) (hle : expiry.toNat ≤ later.toNat) :
    arming.ReachedBy later := by
  unfold Arming.ReachedBy at hreached ⊢
  by_cases hinfinite : arming.msec = TIMER_INFINITE
  · rw [if_pos hinfinite] at hreached ⊢
    exact hreached.trans hle
  · rw [if_neg hinfinite] at hreached ⊢
    exact hreached.trans hle

/-! ### Calls -/

theorem Timer.getExpiry_start {s : EventLoop I} {id : I} {msec : UInt32}
    (isRepeat : Bool) (now : UInt64)
    (hstopped : (s.timer id).mRunning = false) :
    (Timer.start s id msec isRepeat now).getExpiry id =
      if msec ≠ TIMER_INFINITE then now + msec.toUInt64
      else 0xFFFFFFFFFFFFFFFF := by
  simp only [EventLoop.getExpiry, Timer.start, hstopped, Bool.false_eq_true,
    ↓reduceIte, EventLoop.timer_addTimer, EventLoop.timer_set_self]

theorem toNat_add_toUInt64 {now : UInt64} (hnow : now.toNat < 2 ^ 63)
    (msec : UInt32) :
    (now + msec.toUInt64).toNat = now.toNat + msec.toNat := by
  have hmsec := msec.toNat_lt
  rw [UInt64.toNat_add, UInt32.toNat_toUInt64]
  omega

/-- A `start` that takes effect sets an expiry that is late enough. -/
theorem Timer.reachedBy_start {s : EventLoop I} {id : I} (msec : UInt32)
    (isRepeat : Bool) {now : UInt64} (hnow : now.toNat < 2 ^ 63)
    (hstopped : (s.timer id).mRunning = false) :
    Arming.ReachedBy ⟨now, msec⟩
      ((Timer.start s id msec isRepeat now).getExpiry id) := by
  rw [Timer.getExpiry_start isRepeat now hstopped]
  unfold Arming.ReachedBy
  by_cases hinfinite : msec = TIMER_INFINITE
  · rw [if_pos hinfinite, if_neg (not_not.mpr hinfinite)]
    decide
  · rw [if_neg hinfinite, if_pos hinfinite, toNat_add_toUInt64 hnow]

theorem Timer.getExpiry_stop (s : EventLoop I) (id other : I) :
    (Timer.stop s id).getExpiry other = s.getExpiry other := by
  by_cases hother : other = id
  · subst other
    simp [EventLoop.getExpiry, Timer.stop]
  · rw [EventLoop.getExpiry, Timer.stop_other s (Ne.symm hother)]
    rfl

theorem Timer.reachedBy_restart (s : EventLoop I) (id : I) {now : UInt64}
    (hnow : now.toNat < 2 ^ 63) :
    Arming.ReachedBy ⟨now, (s.timer id).mInterval⟩
      ((Timer.restart s id now).getExpiry id) := by
  unfold Timer.restart
  split
  · rw [← Timer.mInterval_stop s id]
    exact Timer.reachedBy_start _ _ hnow (Timer.mRunning_stop s id)
  · rename_i hstopped
    exact Timer.reachedBy_start _ _ hnow (by simpa using hstopped)

/-- A call in time keeps the invariant. -/
theorem ArmedTimers.Kept.call {s : ArmedTimers I} (hs : s.Kept)
    {operation : TimerCall I} (htime : operation.InTime s) :
    (s.call operation).Kept := by
  intro id arming harmed
  by_cases htarget : operation.target = id
  · cases operation with
    | stop other =>
        change arming.ReachedBy ((Timer.stop s.loop other).getExpiry id)
        rw [Timer.getExpiry_stop]
        exact hs id arming harmed
    | restart other now =>
        obtain rfl : other = id := htarget
        obtain rfl := Option.some.inj
          ((Function.update_self other _ s.armed).symm.trans harmed)
        exact Timer.reachedBy_restart s.loop other htime
    | start other msec isRepeat now =>
        obtain rfl : other = id := htarget
        obtain rfl := Option.some.inj
          ((Function.update_self other _ s.armed).symm.trans harmed)
        obtain ⟨hnow, hlate⟩ := htime
        change Arming.ReachedBy ⟨now, msec⟩
          ((Timer.start s.loop other msec isRepeat now).getExpiry other)
        cases hrunning : (s.loop.timer other).mRunning with
        | false => exact Timer.reachedBy_start msec isRepeat hnow hrunning
        | true =>
            rw [Timer.start, if_pos hrunning]
            exact hlate hrunning
  · have hsame : operation.arm s id = s.armed id := by
      cases operation with
      | stop other => rfl
      | start other msec isRepeat now =>
          exact Function.update_of_ne (Ne.symm htarget) _ _
      | restart other now =>
          exact Function.update_of_ne (Ne.symm htarget) _ _
    have hold := hs id arming (hsame.symm.trans harmed)
    change arming.ReachedBy ((operation.perform s.loop).getExpiry id)
    rw [EventLoop.getExpiry, TimerCall.perform_other s.loop operation htarget]
    exact hold

theorem ArmedTimers.Kept.calls {s : ArmedTimers I} (hs : s.Kept)
    {calls : List (TimerCall I)} (htime : s.CallsInTime calls) :
    (calls.foldl ArmedTimers.call s).Kept := by
  induction calls generalizing s with
  | nil => exact hs
  | cons operation rest ih => exact ih (hs.call htime.1) htime.2

/-! ### Firings -/

/-- A handler is called with an expiry that the clock has reached, and the calls
it makes leave the expiry of its timer where one addition of the interval does
not wrap around, or at infinity. -/
def Timer.Bounded (timer : Timer) : Prop :=
  timer.mExpiry.toNat < 2 ^ 63 + 2 ^ 32 ∨ timer.mInterval = TIMER_INFINITE

theorem Timer.bounded_start {s : EventLoop I} {id : I} (msec : UInt32)
    (isRepeat : Bool) {now : UInt64} (hnow : now.toNat < 2 ^ 63)
    (hs : (s.timer id).Bounded) :
    ((Timer.start s id msec isRepeat now).timer id).Bounded := by
  cases hrunning : (s.timer id).mRunning with
  | true =>
      rw [Timer.start, if_pos hrunning]
      exact hs
  | false =>
      by_cases hinfinite : msec = TIMER_INFINITE
      · right
        simp [Timer.start, hrunning, hinfinite]
      · left
        change ((Timer.start s id msec isRepeat now).getExpiry id).toNat < _
        rw [Timer.getExpiry_start isRepeat now hrunning, if_pos hinfinite,
          toNat_add_toUInt64 hnow]
        exact Nat.add_lt_add hnow msec.toNat_lt

theorem Timer.bounded_stop {s : EventLoop I} {id : I}
    (hs : (s.timer id).Bounded) : ((Timer.stop s id).timer id).Bounded := by
  simpa [Timer.stop, Timer.Bounded] using hs

theorem TimerCall.bounded_perform {s : ArmedTimers I} {id : I}
    (hs : (s.loop.timer id).Bounded) {operation : TimerCall I}
    (htime : operation.InTime s) :
    ((operation.perform s.loop).timer id).Bounded := by
  by_cases htarget : operation.target = id
  · cases operation with
    | start other msec isRepeat now =>
        obtain rfl : other = id := htarget
        exact Timer.bounded_start msec isRepeat htime.1 hs
    | stop other =>
        obtain rfl : other = id := htarget
        exact Timer.bounded_stop hs
    | restart other now =>
        obtain rfl : other = id := htarget
        simp only [TimerCall.perform, Timer.restart]
        split
        · exact Timer.bounded_start _ _ htime (Timer.bounded_stop hs)
        · exact Timer.bounded_start _ _ htime hs
  · rw [TimerCall.perform_other s.loop operation htarget]
    exact hs

theorem ArmedTimers.bounded_calls {s : ArmedTimers I}
    {calls : List (TimerCall I)} (htime : s.CallsInTime calls) {id : I}
    (hs : (s.loop.timer id).Bounded) :
    ((calls.foldl ArmedTimers.call s).loop.timer id).Bounded := by
  induction calls generalizing s with
  | nil => exact hs
  | cons operation rest ih =>
      exact ih htime.2 (TimerCall.bounded_perform hs htime.1)

theorem ArmedTimers.loop_calls (s : ArmedTimers I)
    (calls : List (TimerCall I)) :
    (calls.foldl ArmedTimers.call s).loop =
      calls.foldl TimerCall.perform s.loop := by
  induction calls generalizing s with
  | nil => rfl
  | cons operation rest ih => exact ih (s.call operation)

theorem ArmedTimers.loop_callHandler (s : ArmedTimers I) (id : I)
    (handler : List (TimerCall I)) :
    (s.callHandler id handler).loop = Timer.callHandler s.loop id handler := by
  unfold ArmedTimers.callHandler Timer.callHandler
  split
  · exact ArmedTimers.loop_calls _ handler
  · rfl

theorem EventLoop.dueTimer_eq_some {s : EventLoop I} {now : UInt64} {id : I}
    (hdue : s.dueTimer now = some id) :
    s.getExpiry id ≤ now ∧
      ∀ handler, s.runTimers now handler = s.fire now id handler := by
  unfold EventLoop.dueTimer at hdue
  cases hlist : s.mTimers with
  | nil => simp [hlist] at hdue
  | cons front rest =>
      simp only [hlist] at hdue
      obtain ⟨hle, hfront⟩ := Option.ite_none_right_eq_some.mp hdue
      cases hfront
      exact ⟨hle, fun handler => by simp [EventLoop.runTimers, hlist, hle]⟩

theorem EventLoop.dueTimer_eq_none {s : EventLoop I} {now : UInt64}
    (hdue : s.dueTimer now = none) (handler : List (TimerCall I)) :
    (s.runTimers now handler).loop = s ∧
      (s.runTimers now handler).called = [] := by
  unfold EventLoop.dueTimer at hdue
  unfold EventLoop.runTimers
  cases hlist : s.mTimers with
  | nil => exact ⟨rfl, rfl⟩
  | cons front rest =>
      simp only [hlist, ite_eq_right_iff, reduceCtorEq] at hdue
      simp only [if_neg hdue, and_self]

/-- The handler of a due timer returns in a state in which the invariant holds
of all timers, with the expiry of its own bounded. -/
theorem ArmedTimers.Kept.callHandler {s : ArmedTimers I} (hs : s.Kept)
    {now : UInt64} {id : I} {handler : List (TimerCall I)}
    (hdue : s.loop.getExpiry id ≤ now) (hnow : now.toNat < 2 ^ 63)
    (htime : (s.loop.timer id).mHandler = true → CallsInTime
      { s with armed := Function.update s.armed id none } handler) :
    (s.callHandler id handler).Kept ∧
      ((s.callHandler id handler).loop.timer id).Bounded := by
  have hcalled : Kept { s with armed := Function.update s.armed id none } := by
    intro other arming harmed
    by_cases hother : other = id
    · simp [hother] at harmed
    · exact hs other arming (by simpa [hother] using harmed)
  have hbounded : (s.loop.timer id).Bounded := by
    left
    have hle := UInt64.le_iff_toNat_le.mp hdue
    exact Nat.lt_of_le_of_lt hle (hnow.trans (by decide))
  unfold ArmedTimers.callHandler
  split
  · rename_i hhandler
    exact ⟨hcalled.calls (htime hhandler),
      ArmedTimers.bounded_calls (htime hhandler) hbounded⟩
  · exact ⟨hcalled, hbounded⟩

/-- `execute` moves the expiry of its timer on, and no other. -/
theorem Timer.reachedBy_rearm {returned : ArmedTimers I} (hkept : returned.Kept)
    {id : I} (hbounded : (returned.loop.timer id).Bounded)
    (hinfinite : (returned.loop.timer id).mRepeat = true →
      (returned.loop.timer id).mInterval = TIMER_INFINITE →
      returned.armed id = none)
    {other : I} {arming : Arming} (harmed : returned.armed other = some arming) :
    arming.ReachedBy ((Timer.rearm returned.loop id).1.getExpiry other) := by
  have hreached := hkept other arming harmed
  by_cases hother : other = id
  · subst other
    cases hrepeat : (returned.loop.timer id).mRepeat with
    | false =>
        simpa [Timer.rearm, hrepeat, EventLoop.getExpiry] using hreached
    | true =>
        have hfinite : (returned.loop.timer id).mInterval ≠ TIMER_INFINITE := by
          intro hinterval
          rw [hinfinite hrepeat hinterval] at harmed
          cases harmed
        have hlt := hbounded.resolve_right hfinite
        have hinterval := (returned.loop.timer id).mInterval.toNat_lt
        apply hreached.mono
        simp only [Timer.rearm, hrepeat, ↓reduceIte, EventLoop.getExpiry,
          EventLoop.timer_set_self, UInt64.toNat_add, UInt32.toNat_toUInt64]
        omega
  · have hsame : (Timer.rearm returned.loop id).1.timer other =
        returned.loop.timer other := by
      simp only [Timer.rearm]
      split
      · exact EventLoop.timer_set_of_ne _ _ hother
      · exact EventLoop.timer_set_of_ne _ _ hother
    rw [EventLoop.getExpiry, hsame]
    exact hreached

/-- A step in time makes no early handler call and keeps the invariant. -/
theorem ArmedTimers.step_kept (s : ArmedTimers I) (action : TopStep I)
    (t : ArmedTimers I) (hs : s.Kept) (htime : action.InTime s)
    (hstep : s.step action = some t) : action.NotEarly s ∧ t.Kept := by
  obtain rfl := Option.some.inj hstep
  cases action with
  | call operation => exact ⟨trivial, hs.call htime⟩
  | runTimers now handler =>
      obtain ⟨hnow, htime⟩ := htime
      cases hdue : s.loop.dueTimer now with
      | none =>
          obtain ⟨hloop, hcalled⟩ := EventLoop.dueTimer_eq_none hdue handler
          constructor
          · intro call hcall
            rw [hcalled] at hcall
            cases hcall
          · simpa only [ArmedTimers.perform, hdue, hloop] using hs
      | some id =>
          obtain ⟨hle, hround⟩ := EventLoop.dueTimer_eq_some hdue
          obtain ⟨hcalls, hinfinite⟩ := htime id hdue
          obtain ⟨hkept, hbounded⟩ := hs.callHandler hle hnow hcalls
          constructor
          · intro call hcall arming harmed
            rw [hround] at hcall
            have hid : call = ⟨id, s.loop.getExpiry id⟩ := by
              simp only [EventLoop.fire] at hcall
              split at hcall
              · exact List.mem_singleton.mp hcall
              · cases hcall
            subst call
            exact (hs id arming harmed).expiredAt hle hnow
          · intro other arming harmed
            simp only [ArmedTimers.perform, hdue] at harmed
            change arming.ReachedBy
              ((s.loop.runTimers now handler).loop.getExpiry other)
            have hreached :=
              Timer.reachedBy_rearm hkept hbounded hinfinite harmed
            rw [ArmedTimers.loop_callHandler] at hreached
            rw [hround, EventLoop.getExpiry, s.loop.timer_fire]
            exact hreached

/-- In every run whose steps meet their condition no handler is called before
the time its timer has been started for, or at all after `TIMER_INFINITE`. -/
theorem ArmedTimers.eachStep_notEarly {handler : I → Bool}
    {expiry : I → UInt64} {steps : List (TopStep I)}
    (htime : LabelledRun.EachStep ArmedTimers.step
      (fun s action => action.InTime s) (.init handler expiry) steps) :
    LabelledRun.EachStep ArmedTimers.step (fun s action => action.NotEarly s)
      (.init handler expiry) steps :=
  htime.of_invariant ArmedTimers.step_kept
    (ArmedTimers.init_kept handler expiry)

end MyDirectFB

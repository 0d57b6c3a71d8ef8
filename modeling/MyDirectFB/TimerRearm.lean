/-
Re-arming a timer from its own handler.  When the handler returns,
`Timer::execute` goes on with its own update of the timer: it moves a repeating
timer on by one more interval and marks a one-shot timer as stopped, so what
the handler has set up does not last.
-/
import MyDirectFB.TimerQueue

namespace MyDirectFB

universe u

variable {I : Type u}

/-- The timer a call is made on. -/
def TimerCall.target : TimerCall I → I
  | .start id _ _ _ => id
  | .stop id => id
  | .restart id _ => id

@[simp] theorem EventLoop.timer_addTimer (s : EventLoop I) (id : I) :
    (s.addTimer id).timer = s.timer := rfl

variable [DecidableEq I]

/-- The handler of `id` stops its own timer and starts it for `ms` at the
reading `tau`, or restarts it, and makes no other call on it after that. -/
inductive Rearms (s : EventLoop I) (id : I) (tau : UInt64) :
    List (TimerCall I) → UInt32 → Prop
  | start (before between after : List (TimerCall I)) (ms : UInt32)
      (isRepeat : Bool) (hbetween : ∀ call ∈ between, call.target ≠ id)
      (hafter : ∀ call ∈ after, call.target ≠ id) :
      Rearms s id tau
        (before ++ .stop id :: between ++ .start id ms isRepeat tau :: after) ms
  | restart (before after : List (TimerCall I))
      (hafter : ∀ call ∈ after, call.target ≠ id) :
      Rearms s id tau (before ++ .restart id tau :: after)
        ((before.foldl TimerCall.perform s).timer id).mInterval

/-- The timer is listed once and running, and expires at `expiry`. -/
structure EventLoop.Armed (s : EventLoop I) (id : I) (expiry : UInt64) :
    Prop where
  listed : s.mTimers.count id = 1
  running : (s.timer id).mRunning = true
  expires : s.getExpiry id = expiry

/-! ### A call changes the record of its own timer only -/

@[simp] theorem EventLoop.timer_removeTimer (s : EventLoop I) (id : I) :
    (s.removeTimer id).timer = s.timer := by
  unfold EventLoop.removeTimer
  split <;> rfl

theorem Timer.start_other (s : EventLoop I) {id other : I} (msec : UInt32)
    (isRepeat : Bool) (now : UInt64) (hne : id ≠ other) :
    (Timer.start s id msec isRepeat now).timer other = s.timer other := by
  unfold Timer.start
  split
  · rfl
  · simp [s.timer_set_of_ne _ hne.symm]

theorem Timer.stop_other (s : EventLoop I) {id other : I} (hne : id ≠ other) :
    (Timer.stop s id).timer other = s.timer other := by
  simp [Timer.stop, s.timer_set_of_ne _ hne.symm]

theorem TimerCall.perform_other (s : EventLoop I) (call : TimerCall I) {id : I}
    (hne : call.target ≠ id) : (call.perform s).timer id = s.timer id := by
  cases call with
  | start other msec isRepeat now =>
      exact Timer.start_other s msec isRepeat now hne
  | stop other => exact Timer.stop_other s hne
  | restart other now =>
      have hne : other ≠ id := hne
      simp only [TimerCall.perform, Timer.restart]
      rw [Timer.start_other _ _ _ _ hne]
      split
      · exact Timer.stop_other s hne
      · rfl

theorem TimerCall.foldl_perform_other (s : EventLoop I)
    (calls : List (TimerCall I)) {id : I}
    (hne : ∀ call ∈ calls, call.target ≠ id) :
    (calls.foldl TimerCall.perform s).timer id = s.timer id := by
  induction calls generalizing s with
  | nil => rfl
  | cons call rest ih =>
      obtain ⟨hfirst, hrest⟩ := List.forall_mem_cons.mp hne
      rw [List.foldl_cons, ih _ hrest]
      exact TimerCall.perform_other s call hfirst

/-! ### What the handler has set up when it returns -/

/-- The record of a timer started for `ms` at `tau`. -/
structure Timer.StartedAt (timer : Timer) (ms : UInt32) (tau : UInt64) :
    Prop where
  interval : timer.mInterval = ms
  running : timer.mRunning = true
  expires : timer.mExpiry = tau + ms.toUInt64

theorem Timer.start_startedAt {s : EventLoop I} {id : I} {ms : UInt32}
    (hfinite : ms ≠ TIMER_INFINITE) (isRepeat : Bool) (tau : UInt64)
    (hstopped : (s.timer id).mRunning = false) :
    ((Timer.start s id ms isRepeat tau).timer id).StartedAt ms tau := by
  simp only [Timer.start, hstopped, Bool.false_eq_true, ↓reduceIte,
    EventLoop.timer_addTimer, EventLoop.timer_set_self]
  exact ⟨rfl, rfl, if_pos hfinite⟩

theorem Timer.mRunning_stop (s : EventLoop I) (id : I) :
    ((Timer.stop s id).timer id).mRunning = false := by
  simp [Timer.stop]

theorem Timer.mInterval_stop (s : EventLoop I) (id : I) :
    ((Timer.stop s id).timer id).mInterval = (s.timer id).mInterval := by
  simp [Timer.stop]

theorem Timer.restart_startedAt {s : EventLoop I} {id : I}
    (hfinite : (s.timer id).mInterval ≠ TIMER_INFINITE) (tau : UInt64) :
    ((Timer.restart s id tau).timer id).StartedAt (s.timer id).mInterval tau := by
  unfold Timer.restart
  split
  · rw [← Timer.mInterval_stop s id] at hfinite ⊢
    exact Timer.start_startedAt hfinite _ tau (Timer.mRunning_stop s id)
  · rename_i hstopped
    exact Timer.start_startedAt hfinite _ tau (by simpa using hstopped)

theorem Rearms.startedAt {s : EventLoop I} {id : I} {tau : UInt64}
    {handler : List (TimerCall I)} {ms : UInt32}
    (hrearms : Rearms s id tau handler ms) (hfinite : ms ≠ TIMER_INFINITE) :
    ((handler.foldl TimerCall.perform s).timer id).StartedAt ms tau := by
  cases hrearms with
  | start before between after ms isRepeat hbetween hafter =>
      simp only [List.foldl_append, List.foldl_cons]
      rw [TimerCall.foldl_perform_other _ after hafter]
      apply Timer.start_startedAt hfinite
      rw [TimerCall.foldl_perform_other _ between hbetween]
      exact Timer.mRunning_stop _ id
  | restart before after hafter =>
      simp only [List.foldl_append, List.foldl_cons]
      rw [TimerCall.foldl_perform_other _ after hafter]
      exact Timer.restart_startedAt hfinite tau

/-! ### What `execute` makes of it -/

/-- The list operations that follow `execute` leave its record alone. -/
theorem EventLoop.timer_fire (s : EventLoop I) (now : UInt64) (id : I)
    (handler : List (TimerCall I)) :
    (s.fire now id handler).loop.timer =
      (Timer.execute s id handler).1.timer := by
  simp only [EventLoop.fire, EventLoop.timer_sortTimers]
  split
  · rfl
  · exact EventLoop.timer_popIfFront _ _

/-- When a timer has been armed by its own handler, the round ends with its
expiry one interval too late, if it repeats, or with the timer stopped. -/
theorem EventLoop.fire_rearmed {s : EventLoop I} (now : UInt64) {tau : UInt64}
    {id : I} {handler : List (TimerCall I)} {ms : UInt32}
    (hhandler : (s.timer id).mHandler = true) (hfinite : ms ≠ TIMER_INFINITE)
    (hrearms : Rearms s id tau handler ms) :
    (s.fire now id handler).loop.getExpiry id =
        tau + ms.toUInt64 + ms.toUInt64 ∨
      ((s.fire now id handler).loop.timer id).mRunning = false := by
  have hstarted := hrearms.startedAt hfinite
  have hcall : Timer.callHandler s id handler =
      handler.foldl TimerCall.perform s := if_pos hhandler
  rw [EventLoop.getExpiry, s.timer_fire, Timer.execute, hcall, Timer.rearm]
  generalize handler.foldl TimerCall.perform s = returned at hstarted
  cases hrepeat : (returned.timer id).mRepeat with
  | true =>
      left
      simp only [↓reduceIte, EventLoop.timer_set_self]
      rw [hstarted.expires, hstarted.interval]
  | false =>
      right
      simp only [Bool.false_eq_true, ↓reduceIte, EventLoop.timer_set_self]

theorem add_toUInt64_ne {ms : UInt32} (hpositive : 1 ≤ ms) (expiry : UInt64) :
    expiry + ms.toUInt64 ≠ expiry := by
  intro hsame
  have hms := UInt32.le_iff_toNat_le.mp hpositive
  have hlt := ms.toNat_lt
  have hexpiry := expiry.toNat_lt
  have hvalue := congrArg UInt64.toNat hsame
  rw [UInt64.toNat_add, UInt32.toNat_toUInt64] at hvalue
  simp only [UInt32.toNat_one] at hms
  omega

/-- A timer that its own handler has re-armed is not armed for that when the
round returns, whatever the state, the other timers and the other calls of the
handler are. -/
theorem runTimers_rearm_lost {s : EventLoop I} {now tau : UInt64} {id : I}
    {handler : List (TimerCall I)} {ms : UInt32}
    (hfront : s.mTimers.head? = some id) (hdue : s.getExpiry id ≤ now)
    (hhandler : (s.timer id).mHandler = true) (hpositive : 1 ≤ ms)
    (hfinite : ms ≠ TIMER_INFINITE) (hrearms : Rearms s id tau handler ms) :
    ¬ (s.runTimers now handler).loop.Armed id (tau + ms.toUInt64) := by
  obtain ⟨rest, hlist⟩ : ∃ rest, s.mTimers = id :: rest :=
    ⟨s.mTimers.tail, List.eq_cons_of_mem_head? hfront⟩
  have hround : s.runTimers now handler = s.fire now id handler := by
    simp [EventLoop.runTimers, hlist, hdue]
  rw [hround]
  intro harmed
  rcases EventLoop.fire_rearmed now hhandler hfinite hrearms with
    hlate | hstopped
  · exact add_toUInt64_ne hpositive _ (hlate.symm.trans harmed.expires)
  · rw [harmed.running] at hstopped
    exact Bool.noConfusion hstopped

/-- A one-shot timer that is due at 100. -/
def dueAtHundred : EventLoop Nat :=
  Timer.start (EventLoop.init (fun _ => true) fun _ => 0) 0 100 false 0

/-- Its handler stops it, starts another timer and starts it again for 50. -/
theorem runTimers_rearm_lost_once :
    ¬ (dueAtHundred.runTimers 100
      ([] ++ .stop 0 :: [.start 1 20 false 100] ++
        .start 0 50 true 100 :: [])).loop.Armed 0 (100 + (50 : UInt32).toUInt64) :=
  runTimers_rearm_lost (by decide) (by decide) (by decide) (by decide)
    (by decide)
    (.start [] [.start 1 20 false 100] [] 50 true (by decide) (by decide))

/-- A handler that restarts its one-shot timer leaves it stopped. -/
theorem restarted_not_armed :
    ¬ (dueAtHundred.runTimers 100 [.restart 0 100]).loop.Armed 0 200 := by
  intro harmed
  exact absurd harmed.running (by decide)

end MyDirectFB

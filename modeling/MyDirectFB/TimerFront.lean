/-
The evaluations of `mTimers.front()` and `mTimers.pop_front()` in
`EventLoop::runTimers`.  The list is tested once before the handler of the front
timer is called, and looked at again when the handler has returned.
-/
import MyDirectFB.TimerQueue

namespace MyDirectFB

universe u

variable {I : Type u} [DecidableEq I]

/-- What `mTimers` holds at each `front()` and `pop_front()` after the handler
of the front timer `id`. -/
def EventLoop.frontsAfter (s : EventLoop I) (id : I)
    (handler : List (TimerCall I)) : List (List I) :=
  let executed := Timer.execute s id handler
  let popped :=
    if executed.2 then executed.1 else executed.1.popIfFront id
  let compared :=
    if executed.2 then []
    else if executed.1.mTimers.head? = some id then
      [executed.1.mTimers, executed.1.mTimers]
    else [executed.1.mTimers]
  compared ++
    if popped.sortTimers.mTimers.length ≠ 0 then [popped.sortTimers.mTimers]
    else []

/-- What `mTimers` holds at each `front()` and `pop_front()` of a call of
`runTimers`. -/
def EventLoop.fronts (s : EventLoop I) (now : UInt64)
    (handler : List (TimerCall I)) : List (List I) :=
  match s.mTimers with
  | [] => []
  | front :: _ =>
      -- its expiry, the pointer `timer`, and its `execute`
      if s.getExpiry front ≤ now then
        [s.mTimers, s.mTimers, s.mTimers] ++ s.frontsAfter front handler
      else [s.mTimers]

/-- Every `front()` and `pop_front()` finds a timer. -/
def TopStep.FrontsFilled (s : EventLoop I) : TopStep I → Prop
  | .call _ => True
  | .runTimers now handler => ∀ timers ∈ s.fronts now handler, timers ≠ []

/-- When the handler of a due timer returns, the timer repeats or some timer is
in the list. -/
def TopStep.LeavesFront (s : EventLoop I) : TopStep I → Prop
  | .call _ => True
  | .runTimers now handler => ∀ id, s.mTimers.head? = some id →
      s.getExpiry id ≤ now →
      ((Timer.callHandler s id handler).timer id).mRepeat = true ∨
        (Timer.callHandler s id handler).mTimers ≠ []

theorem Timer.mTimers_execute (s : EventLoop I) (id : I)
    (handler : List (TimerCall I)) :
    (Timer.execute s id handler).1.mTimers =
      (Timer.callHandler s id handler).mTimers := by
  simp only [Timer.execute, Timer.rearm]
  split <;> rfl

theorem Timer.execute_repeats (s : EventLoop I) (id : I)
    (handler : List (TimerCall I)) :
    (Timer.execute s id handler).2 =
      ((Timer.callHandler s id handler).timer id).mRepeat := by
  simp only [Timer.execute, Timer.rearm]
  split
  · rename_i hrepeat
    exact hrepeat.symm
  · rename_i honce
    exact (Bool.eq_false_iff.mpr honce).symm

/-- Only the comparison with the front after the handler is made without a test
of the size before it. -/
theorem EventLoop.frontsAfter_filled_iff (s : EventLoop I) (id : I)
    (handler : List (TimerCall I)) :
    (∀ timers ∈ s.frontsAfter id handler, timers ≠ []) ↔
      ((Timer.callHandler s id handler).timer id).mRepeat = true ∨
        (Timer.callHandler s id handler).mTimers ≠ [] := by
  rw [← Timer.execute_repeats, ← Timer.mTimers_execute]
  simp only [EventLoop.frontsAfter, List.forall_mem_append]
  have hlast (popped : EventLoop I) :
      ∀ timers ∈ (if popped.sortTimers.mTimers.length ≠ 0 then
        [popped.sortTimers.mTimers] else []), timers ≠ [] := by
    split
    · rename_i hsize
      exact List.forall_mem_singleton.mpr fun hnil => hsize (by simp [hnil])
    · exact List.forall_mem_nil _
  rw [and_iff_left (hlast _)]
  cases (Timer.execute s id handler).2 with
  | true => simp
  | false =>
      simp only [Bool.false_eq_true, ↓reduceIte, false_or]
      split <;> simp

theorem TopStep.frontsFilled_iff (s : EventLoop I) (action : TopStep I) :
    action.FrontsFilled s ↔ action.LeavesFront s := by
  cases action with
  | call operation => exact Iff.rfl
  | runTimers now handler =>
      simp only [TopStep.FrontsFilled, TopStep.LeavesFront, EventLoop.fronts]
      cases hlist : s.mTimers with
      | nil => simp
      | cons front rest =>
          by_cases hdue : s.getExpiry front ≤ now
          · have hfront := s.frontsAfter_filled_iff front handler
            simpa [hdue] using hfront
          · simp [hdue]

/-- The flag that `runTimers` itself leaves tells the same as the lists a round comes
through: whether `front()` has been called on an empty one. -/
theorem EventLoop.frontOfEmpty_iff (s : EventLoop I) (now : UInt64)
    (handler : List (TimerCall I)) :
    (s.runTimers now handler).frontOfEmpty = true ↔
      ¬ (TopStep.runTimers now handler).FrontsFilled s := by
  rw [TopStep.frontsFilled_iff]
  simp only [TopStep.LeavesFront, EventLoop.runTimers]
  cases hlist : s.mTimers with
  | nil => simp
  | cons front rest =>
      by_cases hdue : s.getExpiry front ≤ now
      · simp [hdue, EventLoop.fire, Timer.execute_repeats,
          Timer.mTimers_execute]
      · simp [hdue]

/-- In every run, all evaluations of `front()` and `pop_front()` are on lists
that are not empty exactly when every handler that returns leaves a timer in the
list or belongs to a repeating timer. -/
theorem runTimers_fronts_iff (handler : I → Bool) (expiry : I → UInt64)
    (actions : List (TopStep I)) :
    LabelledRun.EachStep TopStep.step TopStep.FrontsFilled
        (EventLoop.init handler expiry) actions ↔
      LabelledRun.EachStep TopStep.step TopStep.LeavesFront
        (EventLoop.init handler expiry) actions := by
  have hanyState : ∀ (s : EventLoop I) (action : TopStep I) (t : EventLoop I),
      True → TopStep.step s action = some t → True := fun _ _ _ _ _ => trivial
  exact LabelledRun.eachStep_iff_of_invariant hanyState
    (fun s action _ _ _ => TopStep.frontsFilled_iff s action) trivial actions

/-- The only timer is one-shot, and its handler stops it. -/
def stoppedByItself : List (TopStep Nat) :=
  [.call (.start 0 100 false 0), .runTimers 100 [.stop 0]]

theorem stoppedByItself_not_filled :
    ¬ LabelledRun.EachStep TopStep.step TopStep.FrontsFilled
      (EventLoop.init (fun _ => true) fun _ => 0) stoppedByItself := by
  intro hfilled
  have hlast := ((hfilled _ rfl).2 _ rfl).1
  exact hlast [] (by decide) rfl

end MyDirectFB

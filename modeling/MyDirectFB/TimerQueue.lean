/-
The invariant of the event loop's timer list: sorted by expiry, free of
duplicates, and holding exactly the timers whose `mRunning` is true.  Every
call on a timer keeps it, wherever the call is made.  A firing keeps it exactly
when the fired timer is not left behind another one as a one-shot timer: the
removal in `runTimers` looks at the front of the list only.
-/
import MyDirectFB.Timer
import MyDirectFB.Lib.LabelledRun

namespace MyDirectFB

universe u

variable {I : Type u}

/-- The list is ordered by expiry. -/
def EventLoop.Sorted (s : EventLoop I) : Prop :=
  s.mTimers.Pairwise fun first second => s.getExpiry first ≤ s.getExpiry second

/-- The invariant of the timer list. -/
structure EventLoop.Consistent (s : EventLoop I) : Prop where
  sorted : s.Sorted
  nodup : s.mTimers.Nodup
  mem_iff_running : ∀ id, id ∈ s.mTimers ↔ (s.timer id).mRunning = true

theorem EventLoop.init_consistent (handler : I → Bool) (expiry : I → UInt64) :
    (EventLoop.init handler expiry).Consistent where
  sorted := List.Pairwise.nil
  nodup := List.nodup_nil
  mem_iff_running id := by simp [EventLoop.init, Timer.new]

/-! ### Sorting -/

@[simp] theorem EventLoop.timer_sortTimers (s : EventLoop I) :
    s.sortTimers.timer = s.timer := rfl

theorem EventLoop.perm_sortTimers (s : EventLoop I) :
    s.sortTimers.mTimers.Perm s.mTimers :=
  List.perm_insertionSort _ _

@[simp] theorem EventLoop.mem_sortTimers (s : EventLoop I) (id : I) :
    id ∈ s.sortTimers.mTimers ↔ id ∈ s.mTimers :=
  s.perm_sortTimers.mem_iff

theorem EventLoop.not_timerSort_iff (s : EventLoop I) (first second : I) :
    ¬ s.timerSort second first = true ↔
      s.getExpiry first ≤ s.getExpiry second := by
  simp [EventLoop.timerSort]

theorem EventLoop.sortTimers_sorted (s : EventLoop I) : s.sortTimers.Sorted := by
  let notAfter := fun first second : I => ¬ s.timerSort second first = true
  have : Std.Total notAfter := ⟨fun first second => by
    simp only [notAfter, s.not_timerSort_iff]
    exact UInt64.le_total _ _⟩
  have : IsTrans I notAfter := ⟨fun first second third hfirst hsecond => by
    simp only [notAfter, s.not_timerSort_iff] at hfirst hsecond ⊢
    exact UInt64.le_trans hfirst hsecond⟩
  have hpairwise := List.pairwise_insertionSort notAfter s.mTimers
  exact hpairwise.imp fun h => (s.not_timerSort_iff _ _).mp h

/-- Sorting establishes the ordering part of the invariant and keeps the rest. -/
theorem EventLoop.sortTimers_consistent {s : EventLoop I}
    (hnodup : s.mTimers.Nodup)
    (hmem : ∀ id, id ∈ s.mTimers ↔ (s.timer id).mRunning = true) :
    s.sortTimers.Consistent where
  sorted := s.sortTimers_sorted
  nodup := s.perm_sortTimers.nodup_iff.mpr hnodup
  mem_iff_running id := by simpa using hmem id

variable [DecidableEq I]

/-! ### Updating one timer object -/

@[simp] theorem EventLoop.mTimers_set (s : EventLoop I) (id : I) (value : Timer) :
    (s.set id value).mTimers = s.mTimers := rfl

@[simp] theorem EventLoop.timer_set_self (s : EventLoop I) (id : I)
    (value : Timer) : (s.set id value).timer id = value := by
  simp [EventLoop.set]

theorem EventLoop.timer_set_of_ne (s : EventLoop I) {id other : I}
    (value : Timer) (hne : other ≠ id) :
    (s.set id value).timer other = s.timer other := by
  simp [EventLoop.set, hne]

/-- What the list says about the other timers is not touched by an update of
one of them. -/
theorem EventLoop.Consistent.mem_iff_running_set {s : EventLoop I}
    (hs : s.Consistent) (id : I) (value : Timer) {other : I}
    (hne : other ≠ id) :
    other ∈ s.mTimers ↔ ((s.set id value).timer other).mRunning = true := by
  rw [s.timer_set_of_ne value hne]
  exact hs.mem_iff_running other

/-! ### The order in every state -/

theorem EventLoop.Sorted.set {s : EventLoop I} (hs : s.Sorted) {id : I}
    {value : Timer} (hexpiry : value.mExpiry = s.getExpiry id) :
    (s.set id value).Sorted := by
  refine List.Pairwise.imp (fun {first second} hle => ?_) hs
  have hsame (other : I) : (s.set id value).getExpiry other = s.getExpiry other := by
    by_cases hother : other = id
    · rw [EventLoop.getExpiry, hother, EventLoop.timer_set_self, hexpiry]
    · rw [EventLoop.getExpiry, EventLoop.timer_set_of_ne s _ hother]
      rfl
  rwa [hsame, hsame]

theorem Timer.start_sorted {s : EventLoop I} (hs : s.Sorted) (id : I)
    (msec : UInt32) (isRepeat : Bool) (now : UInt64) :
    (Timer.start s id msec isRepeat now).Sorted := by
  unfold Timer.start
  split
  · exact hs
  · exact EventLoop.sortTimers_sorted _

theorem Timer.stop_sorted {s : EventLoop I} (hs : s.Sorted) (id : I) :
    (Timer.stop s id).Sorted := by
  unfold Timer.stop EventLoop.removeTimer
  split
  · exact EventLoop.sortTimers_sorted _
  · exact hs.set rfl

theorem TimerCall.perform_sorted {s : EventLoop I} (hs : s.Sorted)
    (call : TimerCall I) : (call.perform s).Sorted := by
  cases call with
  | start id msec isRepeat now => exact Timer.start_sorted hs id msec isRepeat now
  | stop id => exact Timer.stop_sorted hs id
  | restart id now =>
      simp only [TimerCall.perform, Timer.restart]
      split
      · exact Timer.start_sorted (Timer.stop_sorted hs id) _ _ _ _
      · exact Timer.start_sorted hs _ _ _ _

theorem EventLoop.runTimers_sorted {s : EventLoop I} (hs : s.Sorted)
    (now : UInt64) (handler : List (TimerCall I)) :
    (s.runTimers now handler).loop.Sorted := by
  unfold EventLoop.runTimers
  split
  · exact hs
  · split
    · exact EventLoop.sortTimers_sorted _
    · exact hs

theorem TopStep.perform_sorted {s : EventLoop I} (hs : s.Sorted) (action : TopStep I) :
    (action.perform s).Sorted := by
  cases action with
  | call operation => exact TimerCall.perform_sorted hs operation
  | runTimers now handler => exact EventLoop.runTimers_sorted hs now handler

/-! ### Calls on timers -/

theorem Timer.start_consistent {s : EventLoop I} (hs : s.Consistent) (id : I)
    (msec : UInt32) (isRepeat : Bool) (now : UInt64) :
    (Timer.start s id msec isRepeat now).Consistent := by
  unfold Timer.start
  split
  · exact hs
  · rename_i hstopped
    have hnot : id ∉ s.mTimers := fun hmem =>
      hstopped ((hs.mem_iff_running id).mp hmem)
    apply EventLoop.sortTimers_consistent
    · exact hs.nodup.append (List.nodup_singleton id) (by simpa using hnot)
    · intro other
      by_cases hother : other = id
      · subst other
        simp [EventLoop.set]
      · simpa [hother] using hs.mem_iff_running_set id _ hother

theorem Timer.stop_consistent {s : EventLoop I} (hs : s.Consistent) (id : I) :
    (Timer.stop s id).Consistent := by
  unfold Timer.stop EventLoop.removeTimer
  split
  · apply EventLoop.sortTimers_consistent
    · exact hs.nodup.erase id
    · intro other
      by_cases hother : other = id
      · subst other
        simp [EventLoop.set, hs.nodup.mem_erase_iff]
      · have hmem := hs.mem_iff_running_set id
          { s.timer id with mRunning := false } hother
        simpa [hs.nodup.mem_erase_iff, hother, EventLoop.set] using hmem
  · rename_i hnot
    refine ⟨?_, hs.nodup, ?_⟩
    · refine hs.sorted.imp_of_mem fun {first second} hfirst hsecond hle => ?_
      -- neither of the two is the stopped timer, which is not in the list
      have hfirst' : first ≠ id := fun h => hnot (h ▸ hfirst)
      have hsecond' : second ≠ id := fun h => hnot (h ▸ hsecond)
      simpa [EventLoop.getExpiry, EventLoop.timer_set_of_ne, hfirst', hsecond']
        using hle
    · intro other
      by_cases hother : other = id
      · subst other
        simpa using hnot
      · exact hs.mem_iff_running_set id _ hother

theorem Timer.restart_consistent {s : EventLoop I} (hs : s.Consistent) (id : I)
    (now : UInt64) : (Timer.restart s id now).Consistent := by
  unfold Timer.restart
  split
  · exact Timer.start_consistent (Timer.stop_consistent hs id) _ _ _ _
  · exact Timer.start_consistent hs _ _ _ _

theorem TimerCall.perform_consistent {s : EventLoop I} (hs : s.Consistent)
    (call : TimerCall I) : (call.perform s).Consistent := by
  cases call with
  | start id msec isRepeat now =>
      exact Timer.start_consistent hs id msec isRepeat now
  | stop id => exact Timer.stop_consistent hs id
  | restart id now => exact Timer.restart_consistent hs id now

theorem TimerCall.foldl_perform_consistent {s : EventLoop I}
    (hs : s.Consistent) (calls : List (TimerCall I)) :
    (calls.foldl TimerCall.perform s).Consistent := by
  induction calls generalizing s with
  | nil => exact hs
  | cons call rest ih => exact ih (TimerCall.perform_consistent hs call)

/-- Whatever a handler does to the timers, the invariant holds when it
returns. -/
theorem Timer.callHandler_consistent {s : EventLoop I} (hs : s.Consistent)
    (id : I) (handler : List (TimerCall I)) :
    (Timer.callHandler s id handler).Consistent := by
  unfold Timer.callHandler
  split
  · exact TimerCall.foldl_perform_consistent hs handler
  · exact hs

/-! ### Firings -/

/-- When the handler of the fired timer has returned, `runTimers` puts the list
right for a repeating timer by sorting it, for a timer that is no longer listed
by doing nothing, and for a one-shot timer by removing the front. -/
def EventLoop.Settled (returned : EventLoop I) (id : I) : Prop :=
  (returned.timer id).mRepeat = true ∨ id ∉ returned.mTimers ∨
    returned.mTimers.head? = some id

instance (returned : EventLoop I) (id : I) : Decidable (returned.Settled id) :=
  inferInstanceAs (Decidable (_ ∨ _ ∨ _))

/-- A step of the program that fires a timer reaches a settled state by the
time the handler returns. -/
def TopStep.FiringSettled (s : EventLoop I) : TopStep I → Prop
  | .call _ => True
  | .runTimers now handler => ∀ id, s.mTimers.head? = some id →
      s.getExpiry id ≤ now → (Timer.callHandler s id handler).Settled id

@[simp] theorem EventLoop.timer_popIfFront (s : EventLoop I) (id : I) :
    (s.popIfFront id).timer = s.timer := by
  unfold EventLoop.popIfFront
  split
  · rfl
  · split <;> rfl

theorem EventLoop.mTimers_popIfFront (s : EventLoop I) (id : I) :
    (s.popIfFront id).mTimers =
      if s.mTimers.head? = some id then s.mTimers.tail else s.mTimers := by
  unfold EventLoop.popIfFront
  cases hlist : s.mTimers with
  | nil => simp [hlist]
  | cons front rest =>
      by_cases hfront : id = front
      · simp [hfront]
      · simp [hfront, Ne.symm hfront, hlist]

theorem EventLoop.Consistent.rearm_repeating {s : EventLoop I}
    (hs : s.Consistent) {id : I} (hrepeat : (s.timer id).mRepeat = true) :
    (Timer.rearm s id).1.sortTimers.Consistent := by
  simp only [Timer.rearm, hrepeat, ↓reduceIte]
  refine EventLoop.sortTimers_consistent hs.nodup fun other => ?_
  by_cases hother : other = id
  · subst other
    simpa using hs.mem_iff_running id
  · exact hs.mem_iff_running_set id _ hother

/-- A one-shot timer has stopped running, so the list may not hold it: it has
to be gone before, or to be the front that is removed. -/
theorem EventLoop.Consistent.rearm_oneShot_iff {s : EventLoop I}
    (hs : s.Consistent) {id : I} (hrepeat : (s.timer id).mRepeat = false) :
    ((Timer.rearm s id).1.popIfFront id).sortTimers.Consistent ↔
      id ∉ s.mTimers ∨ s.mTimers.head? = some id := by
  simp only [Timer.rearm, hrepeat, Bool.false_eq_true, ↓reduceIte]
  have hothers {other : I} (value : Timer) (hne : other ≠ id) :=
    hs.mem_iff_running_set id value hne
  by_cases hfront : s.mTimers.head? = some id
  · simp only [hfront, or_true, iff_true]
    obtain ⟨rest, hlist⟩ : ∃ rest, s.mTimers = id :: rest :=
      ⟨s.mTimers.tail, List.eq_cons_of_mem_head? hfront⟩
    have hnodup : (id :: rest).Nodup := hlist ▸ hs.nodup
    apply EventLoop.sortTimers_consistent
    · simpa [EventLoop.mTimers_popIfFront, hlist] using hnodup.of_cons
    · intro other
      by_cases hother : other = id
      · subst other
        simpa [EventLoop.mTimers_popIfFront, hlist] using hnodup.notMem
      · simpa [EventLoop.mTimers_popIfFront, hlist, hother] using
          hothers _ hother
  · simp only [hfront, or_false]
    constructor
    · intro hafter hmem
      -- still listed, although `rearm` has cleared `mRunning`
      have hrunning := (hafter.mem_iff_running id).mp (by
        simpa [EventLoop.mTimers_popIfFront, hfront] using hmem)
      simp at hrunning
    · intro hnot
      apply EventLoop.sortTimers_consistent
      · simpa [EventLoop.mTimers_popIfFront, hfront] using hs.nodup
      · intro other
        by_cases hother : other = id
        · subst other
          simpa [EventLoop.mTimers_popIfFront, hfront] using hnot
        · simpa [EventLoop.mTimers_popIfFront, hfront] using
            hothers _ hother

/-- The exact condition under which a firing keeps the invariant. -/
theorem EventLoop.fire_consistent_iff {s : EventLoop I} (hs : s.Consistent)
    (now : UInt64) (id : I) (handler : List (TimerCall I)) :
    (s.fire now id handler).loop.Consistent ↔
      (Timer.callHandler s id handler).Settled id := by
  have hreturned := Timer.callHandler_consistent hs id handler
  cases hrepeat : ((Timer.callHandler s id handler).timer id).mRepeat with
  | true =>
      have hloop : (s.fire now id handler).loop =
          (Timer.rearm (Timer.callHandler s id handler) id).1.sortTimers := by
        simp [EventLoop.fire, Timer.execute, Timer.rearm, hrepeat]
      rw [hloop]
      exact iff_of_true (hreturned.rearm_repeating hrepeat) (Or.inl hrepeat)
  | false =>
      have hloop : (s.fire now id handler).loop =
          ((Timer.rearm (Timer.callHandler s id handler) id).1.popIfFront
            id).sortTimers := by
        simp [EventLoop.fire, Timer.execute, Timer.rearm, hrepeat]
      rw [hloop, hreturned.rearm_oneShot_iff hrepeat]
      simp [EventLoop.Settled, hrepeat]

/-- One step of the program keeps the invariant exactly when a firing in it is
settled. -/
theorem TopStep.perform_consistent_iff {s : EventLoop I} (hs : s.Consistent)
    (action : TopStep I) :
    (action.perform s).Consistent ↔ action.FiringSettled s := by
  cases action with
  | call operation =>
      exact iff_of_true (TimerCall.perform_consistent hs operation) trivial
  | runTimers now handler =>
      simp only [TopStep.perform, TopStep.FiringSettled, EventLoop.runTimers]
      cases hlist : s.mTimers with
      | nil => simpa using hs
      | cons front rest =>
          by_cases hdue : s.getExpiry front ≤ now
          · simpa [hdue] using EventLoop.fire_consistent_iff hs now front handler
          · simpa [hdue] using hs

/-- The program as a labelled transition function; all its steps are enabled. -/
def TopStep.step (s : EventLoop I) (action : TopStep I) : Option (EventLoop I) :=
  some (action.perform s)

/-- The timer list of a run is consistent after every operation exactly when
every firing of the run is settled: then and only then `mTimers` stays sorted,
free of duplicates and equal to the set of running timers. -/
theorem timerQueue_consistent_iff (handler : I → Bool) (expiry : I → UInt64)
    (actions : List (TopStep I)) :
    LabelledRun.EachState TopStep.step EventLoop.Consistent
        (EventLoop.init handler expiry) actions ↔
      LabelledRun.EachStep TopStep.step TopStep.FiringSettled
        (EventLoop.init handler expiry) actions := by
  apply LabelledRun.eachState_iff_eachStep _
    (EventLoop.init_consistent handler expiry)
  intro s action t hs hstep
  obtain rfl := Option.some.inj hstep
  exact TopStep.perform_consistent_iff hs action

/-- Two one-shot timers, due at 100 and 150.  The handler of the first restarts
its own timer at 100, which moves it behind the second: `runTimers` leaves it in
the list with `mRunning` false. -/
def restartedBehind : List (TopStep Nat) :=
  [.call (.start 0 100 false 0), .call (.start 1 150 false 0),
    .runTimers 100 [.restart 0 100]]

theorem restartedBehind_not_consistent :
    ¬ LabelledRun.EachState TopStep.step EventLoop.Consistent
      (EventLoop.init (fun _ => true) fun _ => 0) restartedBehind := by
  intro hrun
  have hlast := (((hrun.2 _ rfl).2 _ rfl).2 _ rfl).mem_iff_running 0
  exact absurd (hlast.mp (by decide)) (by decide)

end MyDirectFB

/-
Repeating timers over runs of the event loop, in which each round of `runTimers` reads
the clock.  A round that executes a timer moves its expiry on by the interval and never
sets it to the reading.  So a timer that is left alone keeps the cadence of its start:
whenever the loop goes on to its wait, there has been a call for each whole interval,
however late the loop has come round and whatever becomes of the other timers.
-/
import MyDirectFB.TimerExpiry
import MyDirectFB.TimerFront
import MyDirectFB.TimerWait

namespace MyDirectFB

universe u

variable {I : Type u}

/-! ### Runs with a clock -/

/-- The timers with the reading of the last round, and the calls of handlers with the
reading of the round that has made them. -/
structure ClockedTimers (I : Type u) where
  loop : EventLoop I
  now : UInt64
  calls : List (UInt64 × HandlerCall I)

/-- The reading of the clock after a step. -/
def TopStep.reading (now : UInt64) : TopStep I → UInt64
  | .call _ => now
  | .runTimers next _ => next

/-- The step makes no call on the timer. -/
def TopStep.Spares (id : I) : TopStep I → Prop
  | .call operation => operation.target ≠ id
  | .runTimers _ handler => ∀ call ∈ handler, call.target ≠ id

/-- A round after which the loop waits: it returns a time to wait, and no timer that it
leaves is more than 2^31-1 ms late. -/
structure RunTimers.Ends (round : RunTimers I) (now : UInt64) : Prop where
  waits : round.timeout ≠ 0
  near : ∀ id ∈ round.loop.mTimers,
    now.toNat ≤ (round.loop.getExpiry id).toNat + (2 ^ 31 - 1)

variable [DecidableEq I]

/-- The handler calls of a step. -/
def TopStep.called (s : EventLoop I) : TopStep I → List (HandlerCall I)
  | .call _ => []
  | .runTimers now handler => (s.runTimers now handler).called

namespace ClockedTimers

/-- The transition function.  The clock does not go back, and stays below 2^63. -/
def step (s : ClockedTimers I) (action : TopStep I) : Option (ClockedTimers I) :=
  let reading := action.reading s.now
  if s.now.toNat ≤ reading.toNat ∧ reading.toNat < 2 ^ 63 then
    some
      { loop := action.perform s.loop
        now := reading
        calls := s.calls ++ (action.called s.loop).map (reading, ·) }
  else none

/-- The readings of the rounds that have called the handler of a timer. -/
def readingsOf (id : I) (calls : List (UInt64 × HandlerCall I)) : List UInt64 :=
  (calls.filter fun call => call.2.id = id).map Prod.fst

theorem readingsOf_append (id : I) (front back : List (UInt64 × HandlerCall I)) :
    readingsOf id (front ++ back) = readingsOf id front ++ readingsOf id back := by
  rw [readingsOf, List.filter_append, List.map_append]
  rfl

end ClockedTimers

/-- After a round that ends nothing is due. -/
theorem RunTimers.Ends.later {s : EventLoop I} (hs : s.Sorted) {now : UInt64}
    {handler : List (TimerCall I)} (hends : (s.runTimers now handler).Ends now) :
    ∀ id ∈ (s.runTimers now handler).loop.mTimers,
      now < (s.runTimers now handler).loop.getExpiry id := by
  have hwaits := hends.waits
  rw [EventLoop.timeout_runTimers] at hwaits
  cases hlist : (s.runTimers now handler).loop.mTimers with
  | nil => exact List.forall_mem_nil _
  | cons front rest =>
      rw [hlist] at hwaits
      have hnear := hends.near front (by simp [hlist])
      rw [← hlist]
      refine (EventLoop.runTimers_sorted hs now handler).later_of_front hlist ?_
      by_contra hdue
      have hle := UInt64.le_iff_toNat_le.mp (UInt64.not_lt.mp hdue)
      refine hwaits ((clampTimeout_eq_zero_iff _).mpr ?_)
      dsimp only
      rw [toInt32_sub hnear (by omega)]
      omega

/-! ### A timer that is left alone -/

omit [DecidableEq I] in
theorem EventLoop.mem_addTimer (s : EventLoop I) (id other : I) :
    other ∈ (s.addTimer id).mTimers ↔ other ∈ s.mTimers ∨ other = id := by
  rw [EventLoop.addTimer, EventLoop.mem_sortTimers, List.mem_append, List.mem_singleton]

theorem Timer.start_keeps {s : EventLoop I} {id : I} (hid : id ∈ s.mTimers) (other : I)
    (msec : UInt32) (isRepeat : Bool) (now : UInt64) :
    id ∈ (Timer.start s other msec isRepeat now).mTimers := by
  unfold Timer.start
  split
  · exact hid
  · exact (EventLoop.mem_addTimer _ _ _).mpr (.inl hid)

theorem Timer.stop_keeps {s : EventLoop I} {id other : I} (hid : id ∈ s.mTimers)
    (hne : other ≠ id) : id ∈ (Timer.stop s other).mTimers := by
  unfold Timer.stop EventLoop.removeTimer
  split
  · exact (EventLoop.mem_sortTimers _ id).mpr
      ((List.mem_erase_of_ne hne.symm).mpr hid)
  · exact hid

theorem TimerCall.perform_keeps {s : EventLoop I} {id : I} (hid : id ∈ s.mTimers)
    {call : TimerCall I} (hne : call.target ≠ id) : id ∈ (call.perform s).mTimers := by
  cases call with
  | start other msec isRepeat now => exact Timer.start_keeps hid other msec isRepeat now
  | stop other => exact Timer.stop_keeps hid hne
  | restart other now =>
      simp only [TimerCall.perform, Timer.restart]
      split
      · exact Timer.start_keeps (Timer.stop_keeps hid hne) _ _ _ _
      · exact Timer.start_keeps hid _ _ _ _

/-- What the calls of a handler that leaves the timer alone do to it. -/
theorem Timer.callHandler_spared {s : EventLoop I} {id : I} (hid : id ∈ s.mTimers)
    (due : I) {handler : List (TimerCall I)} (hspares : ∀ call ∈ handler,
      call.target ≠ id) :
    id ∈ (Timer.callHandler s due handler).mTimers ∧
      (Timer.callHandler s due handler).timer id = s.timer id := by
  have hcalls : id ∈ (handler.foldl TimerCall.perform s).mTimers := by
    induction handler generalizing s with
    | nil => exact hid
    | cons call rest ih =>
        obtain ⟨hfirst, hrest⟩ := List.forall_mem_cons.mp hspares
        exact ih (TimerCall.perform_keeps hid hfirst) hrest
  unfold Timer.callHandler
  split
  · exact ⟨hcalls, TimerCall.foldl_perform_other s handler hspares⟩
  · exact ⟨hid, rfl⟩

/-- A round that executes another timer. -/
theorem EventLoop.fire_spared_other {s : EventLoop I} {id due : I}
    (hid : id ∈ s.mTimers) (hne : id ≠ due) (now : UInt64)
    {handler : List (TimerCall I)} (hspares : ∀ call ∈ handler, call.target ≠ id) :
    id ∈ (s.fire now due handler).loop.mTimers ∧
      (s.fire now due handler).loop.timer id = s.timer id := by
  obtain ⟨hmem, htimer⟩ := Timer.callHandler_spared hid due hspares
  constructor
  · refine (EventLoop.mem_sortTimers _ id).mpr ?_
    rw [← Timer.mTimers_execute] at hmem
    split
    · exact hmem
    · rw [EventLoop.mTimers_popIfFront]
      split
      · next hfront =>
        rw [List.eq_cons_of_mem_head? hfront] at hmem
        exact (List.mem_cons.mp hmem).resolve_left hne
      · exact hmem
  · rw [s.timer_fire, Timer.execute, ← htimer, Timer.rearm]
    split <;> exact EventLoop.timer_set_of_ne _ _ hne

/-- A round that executes the timer itself. -/
theorem EventLoop.fire_spared_self {s : EventLoop I} {id : I} (hid : id ∈ s.mTimers)
    (hrepeat : (s.timer id).mRepeat = true) (now : UInt64)
    {handler : List (TimerCall I)} (hspares : ∀ call ∈ handler, call.target ≠ id) :
    id ∈ (s.fire now id handler).loop.mTimers ∧
      (s.fire now id handler).loop.timer id = { s.timer id with
        mExpiry := (s.timer id).mExpiry + (s.timer id).mInterval.toUInt64 } := by
  obtain ⟨hmem, htimer⟩ := Timer.callHandler_spared hid id hspares
  constructor
  · refine (EventLoop.mem_sortTimers _ id).mpr ?_
    rw [if_pos ((Timer.execute_repeats s id handler).trans (by rw [htimer, hrepeat])),
      Timer.mTimers_execute]
    exact hmem
  · rw [s.timer_fire, Timer.execute, Timer.rearm, htimer]
    simp only [hrepeat, ↓reduceIte, EventLoop.timer_set_self]

namespace ClockedTimers

/-! ### The cadence -/

/-- The invariant of a timer that repeats since `start`: its expiry lies one interval
behind as many intervals as it has been called, and the latest of these calls, or the
start, was not before its time. -/
structure Cadence (s : ClockedTimers I) (id : I) (msec : UInt32) (start : UInt64) :
    Prop where
  sorted : s.loop.Sorted
  listed : id ∈ s.loop.mTimers
  handler : (s.loop.timer id).mHandler = true
  repeating : (s.loop.timer id).mRepeat = true
  interval : (s.loop.timer id).mInterval = msec
  expiry : (s.loop.getExpiry id).toNat =
    start.toNat + ((readingsOf id s.calls).length + 1) * msec.toNat
  latest : ∃ reading ∈ start :: readingsOf id s.calls, reading.toNat ≤ s.now.toNat ∧
    start.toNat + (readingsOf id s.calls).length * msec.toNat ≤ reading.toNat

variable {s t : ClockedTimers I} {id : I} {msec : UInt32} {start : UInt64}

/-- A step that does not execute the timer. -/
theorem Cadence.idle (hs : s.Cadence id msec start) {loop : EventLoop I}
    {now : UInt64} {called : List (HandlerCall I)} (hsorted : loop.Sorted)
    (hlisted : id ∈ loop.mTimers) (htimer : loop.timer id = s.loop.timer id)
    (hcalled : ∀ call ∈ called, call.id ≠ id) (hnow : s.now.toNat ≤ now.toNat) :
    Cadence ⟨loop, now, s.calls ++ called.map (now, ·)⟩ id msec start := by
  have hnone : readingsOf id (called.map (now, ·)) = [] := by
    rw [readingsOf, List.filter_map, List.filter_eq_nil_iff.mpr]
    · rfl
    · exact fun call hcall => by simpa using hcalled call hcall
  have hcalls : readingsOf id (s.calls ++ called.map (now, ·)) =
      readingsOf id s.calls := by
    rw [readingsOf_append, hnone, List.append_nil]
  refine ⟨hsorted, hlisted, ?_, ?_, ?_, ?_, ?_⟩
  · rw [htimer, hs.handler]
  · rw [htimer, hs.repeating]
  · rw [htimer, hs.interval]
  · rw [hcalls, ← hs.expiry, EventLoop.getExpiry, htimer]
    rfl
  · rw [hcalls]
    obtain ⟨reading, hreading, hle, hlatest⟩ := hs.latest
    exact ⟨reading, hreading, hle.trans hnow, hlatest⟩

/-- A round that executes the timer. -/
theorem Cadence.fire (hs : s.Cadence id msec start) {now : UInt64}
    {handler : List (TimerCall I)} (hspares : ∀ call ∈ handler, call.target ≠ id)
    (hdue : s.loop.getExpiry id ≤ now) (hnow : now.toNat < 2 ^ 63) :
    Cadence ⟨(s.loop.fire now id handler).loop, now,
      s.calls ++ (s.loop.fire now id handler).called.map (now, ·)⟩ id msec start := by
  obtain ⟨hlisted, htimer⟩ :=
    EventLoop.fire_spared_self hs.listed hs.repeating now hspares
  have hcalls : readingsOf id (s.calls ++
      (s.loop.fire now id handler).called.map (now, ·)) =
      readingsOf id s.calls ++ [now] := by
    rw [readingsOf_append]
    simp [readingsOf, EventLoop.fire, hs.handler]
  have hbound := Nat.lt_of_le_of_lt (UInt64.le_iff_toNat_le.mp hdue) hnow
  have hmoved := toNat_add_toUInt64 hbound msec
  have hexpiry := hs.expiry
  have hle := UInt64.le_iff_toNat_le.mp hdue
  refine ⟨EventLoop.sortTimers_sorted _, hlisted, ?_, ?_, ?_, ?_, ?_⟩
  · rw [htimer, hs.handler]
  · rw [htimer, hs.repeating]
  · rw [htimer, hs.interval]
  · rw [hcalls, List.length_append, List.length_singleton, EventLoop.getExpiry, htimer]
    dsimp only
    rw [hs.interval, Nat.succ_mul]
    change (s.loop.getExpiry id + msec.toUInt64).toNat = _
    omega
  · rw [hcalls, List.length_append, List.length_singleton]
    exact ⟨now, by simp, Nat.le_refl _, by omega⟩

/-- Every step that leaves the timer alone keeps the cadence. -/
theorem step_cadence (hs : s.Cadence id msec start) {action : TopStep I}
    (hspares : action.Spares id) (hstep : s.step action = some t) :
    t.Cadence id msec start := by
  obtain ⟨⟨hnow, hbound⟩, hnext⟩ := Option.ite_none_right_eq_some.mp hstep
  obtain rfl := Option.some.inj hnext
  have hsorted := TopStep.perform_sorted hs.sorted action
  cases action with
  | call operation =>
      exact hs.idle hsorted (TimerCall.perform_keeps hs.listed hspares)
        (TimerCall.perform_other _ operation hspares) (List.forall_mem_nil _) hnow
  | runTimers now handler =>
      dsimp only [TopStep.perform, TopStep.called, TopStep.reading] at *
      cases hdueTimer : s.loop.dueTimer now with
      | none =>
          obtain ⟨hloop, hcalled⟩ := EventLoop.dueTimer_eq_none hdueTimer handler
          rw [hloop, hcalled]
          exact hs.idle hs.sorted hs.listed rfl (List.forall_mem_nil _) hnow
      | some due =>
          obtain ⟨hdue, hround⟩ := EventLoop.dueTimer_eq_some hdueTimer
          rw [hround handler] at hsorted ⊢
          by_cases hself : due = id
          · subst hself
            exact hs.fire hspares hdue hbound
          · obtain ⟨hlisted, htimer⟩ :=
              EventLoop.fire_spared_other hs.listed (Ne.symm hself) now hspares
            refine hs.idle hsorted hlisted htimer (fun call hcall => ?_) hnow
            simp only [EventLoop.fire] at hcall
            split at hcall
            · rw [List.mem_singleton.mp hcall]
              exact hself
            · cases hcall

theorem run_cadence (hs : s.Cadence id msec start) {actions : List (TopStep I)}
    (hspares : ∀ action ∈ actions, action.Spares id)
    (hrun : LabelledRun.run step s actions = some t) : t.Cadence id msec start := by
  induction actions generalizing s with
  | nil =>
      obtain rfl := Option.some.inj hrun
      exact hs
  | cons action rest ih =>
      obtain ⟨mid, hstep, hrest⟩ := LabelledRun.run_cons.mp hrun
      obtain ⟨hfirst, hmore⟩ := List.forall_mem_cons.mp hspares
      exact ih (step_cadence hs hfirst hstep) hmore hrest

/-- The timer has been called once for each whole interval when nothing is due any
more. -/
theorem Cadence.length_readingsOf (hs : s.Cadence id msec start)
    (hlater : s.now < s.loop.getExpiry id) :
    (readingsOf id s.calls).length = (s.now.toNat - start.toNat) / msec.toNat := by
  obtain ⟨reading, -, hle, hlatest⟩ := hs.latest
  have hexpiry := hs.expiry
  have hlt := UInt64.lt_iff_toNat_lt.mp hlater
  exact (Nat.div_eq_of_lt_le (by omega) (by omega)).symm

end ClockedTimers

/-! ### From the start of a timer -/

/-- A timer has been started to repeat, and nothing has been called yet. -/
def ClockedTimers.startedAt (s : EventLoop I) (id : I) (msec : UInt32)
    (start : UInt64) : ClockedTimers I :=
  ⟨Timer.start s id msec true start, start, []⟩

theorem ClockedTimers.startedAt_cadence {s : EventLoop I} {id : I} {msec : UInt32}
    {start : UInt64} (hhandler : (s.timer id).mHandler = true)
    (hstopped : (s.timer id).mRunning = false) (hfinite : msec ≠ TIMER_INFINITE)
    (hstart : start.toNat < 2 ^ 63) :
    (startedAt s id msec start).Cadence id msec start := by
  have hstarted : Timer.start s id msec true start = (s.set id { s.timer id with
      mInterval := msec
      mRepeat := true
      mExpiry := start + msec.toUInt64
      mRunning := true }).addTimer id := by
    rw [Timer.start, if_neg (by simp [hstopped]), if_pos hfinite]
  have htimer := Timer.start_startedAt hfinite true start hstopped
  have hrecord := congrArg (·.timer id) hstarted
  simp only [EventLoop.timer_addTimer, EventLoop.timer_set_self] at hrecord
  refine ⟨?_, ?_, ?_, ?_, htimer.interval, ?_, start, List.mem_cons_self,
    Nat.le_refl _, ?_⟩
  · rw [startedAt, hstarted]
    exact EventLoop.sortTimers_sorted _
  · rw [startedAt, hstarted]
    exact (EventLoop.mem_addTimer _ id id).mpr (.inr rfl)
  · rw [startedAt, hrecord, hhandler]
  · rw [startedAt, hrecord]
  · rw [startedAt, EventLoop.getExpiry, htimer.expires, toNat_add_toUInt64 hstart]
    simp [ClockedTimers.readingsOf]
  · simp [startedAt, ClockedTimers.readingsOf]

/-- The cadence at the end of a drain, with nothing due. -/
theorem ClockedTimers.ends_cadence {s : EventLoop I} {id : I} {msec : UInt32}
    {start now : UInt64} {actions : List (TopStep I)} {handler : List (TimerCall I)}
    {t u : ClockedTimers I} (hhandler : (s.timer id).mHandler = true)
    (hstopped : (s.timer id).mRunning = false) (hfinite : msec ≠ TIMER_INFINITE)
    (hstart : start.toNat < 2 ^ 63) (hspares : ∀ action ∈ actions, action.Spares id)
    (hrun : LabelledRun.run step (startedAt s id msec start) actions = some t)
    (hlast : ∀ call ∈ handler, call.target ≠ id)
    (hround : t.step (.runTimers now handler) = some u)
    (hends : (t.loop.runTimers now handler).Ends now) :
    u.Cadence id msec start ∧ u.now = now ∧ u.now < u.loop.getExpiry id := by
  have ht := run_cadence (startedAt_cadence hhandler hstopped hfinite hstart) hspares
    hrun
  have hspared : (TopStep.runTimers now handler).Spares id := hlast
  have hu := step_cadence ht hspared hround
  obtain ⟨-, hnext⟩ := Option.ite_none_right_eq_some.mp hround
  obtain rfl := Option.some.inj hnext
  exact ⟨hu, rfl, hends.later ht.sorted id hu.listed⟩

/-- A repeating timer that is started and left alone keeps its cadence: in any run of
rounds and of calls on other timers, within handlers or without, whenever a round ends
at a reading of the clock there has been a call for each whole interval since the
start. -/
theorem Timer.start_cadence {s : EventLoop I} {id : I} {msec : UInt32}
    {start now : UInt64} {actions : List (TopStep I)} {handler : List (TimerCall I)}
    {t u : ClockedTimers I} (hhandler : (s.timer id).mHandler = true)
    (hstopped : (s.timer id).mRunning = false) (hfinite : msec ≠ TIMER_INFINITE)
    (hstart : start.toNat < 2 ^ 63) (hspares : ∀ action ∈ actions, action.Spares id)
    (hrun : LabelledRun.run ClockedTimers.step
      (ClockedTimers.startedAt s id msec start) actions = some t)
    (hlast : ∀ call ∈ handler, call.target ≠ id)
    (hround : t.step (.runTimers now handler) = some u)
    (hends : (t.loop.runTimers now handler).Ends now) :
    (ClockedTimers.readingsOf id u.calls).length =
      (now.toNat - start.toNat) / msec.toNat := by
  obtain ⟨hu, rfl, hlater⟩ := ClockedTimers.ends_cadence hhandler hstopped hfinite
    hstart hspares hrun hlast hround hends
  exact hu.length_readingsOf hlater

/-- A timer of 300 ms that is started at 0, and another one that its handler starts
and the program stops; the loop comes round late, and reads the clock in each round. -/
def twoTimers : List (TopStep Bool) :=
  [.runTimers 700 [.start false 5 true 701], .runTimers 702 [], .runTimers 704 [],
    .call (.stop false)]

def noTimers : EventLoop Bool := EventLoop.init (fun _ => true) fun _ => 0

theorem Timer.start_cadence_twoTimers :
    ∃ t u, LabelledRun.run ClockedTimers.step
        (ClockedTimers.startedAt noTimers true 300 0) twoTimers = some t ∧
      t.step (.runTimers 1000 []) = some u ∧
      (ClockedTimers.readingsOf true u.calls).length = (1000 - 0) / 300 :=
  ⟨_, _, rfl, rfl, @Timer.start_cadence Bool _ noTimers true 300 0 1000 twoTimers [] _ _
    rfl rfl (by decide) (by decide) (by simp [twoTimers, TopStep.Spares, TimerCall.target])
    rfl (List.forall_mem_nil _) rfl ⟨by decide, by decide⟩⟩

end MyDirectFB

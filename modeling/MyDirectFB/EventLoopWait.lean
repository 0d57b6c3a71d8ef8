/-
The wake-ups of the event loop.  The thread of the loop computes how long it may
wait before it waits, and a timer that is started in the meantime may be due
earlier.  That `Timer::start` writes to the pipe behind the change makes up for
it: the loop never sleeps past an expiry unless a byte is on its way.
-/
import MyDirectFB.EventLoopCommands
import MyDirectFB.TimerWait

namespace MyDirectFB

universe u v

/-! ### Calls on timers -/

section

variable {I : Type u} [DecidableEq I]

/-- A call that wakes nobody up has changed nothing. -/
theorem TimerCall.perform_of_wakeups_eq_zero {s : EventLoop I}
    {call : TimerCall I} (hnone : call.wakeups s = 0) : call.perform s = s := by
  cases call with
  | start id msec isRepeat now =>
      cases hrunning : (s.timer id).mRunning with
      | true => simp [TimerCall.perform, Timer.start, hrunning]
      | false => simp [TimerCall.wakeups, hrunning] at hnone
  | stop id => simp [TimerCall.wakeups] at hnone
  | restart id now =>
      simp only [TimerCall.wakeups] at hnone
      split at hnone <;> simp at hnone

/-! ### The wait ends before an expiry -/

/-- The narrowed distance is not more than the distance, unless the expiry is
2^31 ms in the past. -/
theorem clampTimeout_toInt32_le {expiry now : UInt64}
    (hnear : now.toNat ≤ expiry.toNat + 2 ^ 31)
    (hwait : clampTimeout (toInt32 (expiry - now)) ≠ 0) :
    (now.toNat : Int) + clampTimeout (toInt32 (expiry - now)) ≤ expiry.toNat := by
  rw [toInt32_sub_eq_bmod, clampTimeout_eq, Int.bmod_def] at hwait ⊢
  unfold WAIT_TIME at hwait ⊢
  split at hwait <;> split <;> omega

/-- No timer that the round leaves is more than 2^31 ms late. -/
def RunTimers.InTime (round : RunTimers I) (now : UInt64) : Prop :=
  ∀ id ∈ round.loop.mTimers, now.toNat ≤ (round.loop.getExpiry id).toNat + 2 ^ 31

instance (round : RunTimers I) (now : UInt64) : Decidable (round.InTime now) :=
  inferInstanceAs (Decidable (∀ id ∈ round.loop.mTimers, _))

theorem EventLoop.runTimers_wait_le {s : EventLoop I} (hs : s.Sorted)
    {now : UInt64} {handler : List (TimerCall I)}
    (hinTime : (s.runTimers now handler).InTime now)
    (hwait : (s.runTimers now handler).timeout ≠ 0) :
    ∀ id ∈ (s.runTimers now handler).loop.mTimers,
      (now.toNat : Int) + (s.runTimers now handler).timeout ≤
        ((s.runTimers now handler).loop.getExpiry id).toNat := by
  have hsorted := EventLoop.runTimers_sorted hs now handler
  rw [EventLoop.timeout_runTimers] at hwait ⊢
  generalize hafter : (s.runTimers now handler).loop = after at *
  unfold RunTimers.InTime at hinTime
  rw [hafter] at hinTime
  unfold EventLoop.Sorted at hsorted
  cases hlist : after.mTimers with
  | nil => exact fun id hid => nomatch hid
  | cons front rest =>
      simp only [hlist] at hsorted hinTime hwait ⊢
      have hfront := clampTimeout_toInt32_le
        (hinTime front List.mem_cons_self) hwait
      intro id hid
      rcases List.mem_cons.mp hid with rfl | hrest
      · exact hfront
      · have hle := List.rel_of_pairwise_cons hsorted hrest
        rw [UInt64.le_iff_toNat_le] at hle
        omega

end

/-! ### No wake-up is lost -/

namespace LoopThread

variable {I : Type u} {L : Type v}

/-- When the thread waits with an empty pipe, and no other thread is about to
write to it, the wait is past the next expiry by no more than what lies between the
last reading of the clock, which comes before the handler, and the beginning of the
wait. -/
def WaitsInTime (s : LoopThread I L) : Prop :=
  ∀ set now timeToWait, s.pc = .selecting set now timeToWait →
    s.mPipe.queue = [] → s.unsent = 0 →
    ∀ id ∈ s.timers.mTimers, ∀ begun : Int, now.toNat ≤ begun →
      begun + timeToWait ≤ (s.timers.getExpiry id).toNat + (begun - now.toNat)

/-- The timers are sorted, and the thread waits in time. -/
structure InTime (s : LoopThread I L) : Prop where
  sorted : s.timers.Sorted
  waits : s.WaitsInTime

variable [DecidableEq I]

/-- A call of `runTimers` leaves no timer that is more than 2^31 ms late. -/
def LeavesInTime (s : LoopThread I L) : LoopAction I L → Prop
  | .runTimers now handler => (s.timers.runTimers now handler).InTime now
  | _ => True

instance (s : LoopThread I L) (action : LoopAction I L) :
    Decidable (s.LeavesInTime action) :=
  match action with
  | .runTimers now handler =>
      inferInstanceAs (Decidable ((s.timers.runTimers now handler).InTime now))
  | .enter _ | .select _ | .readCommand _ | .lockWatchers | .visit _ | .returns _
  | .unlockWatchers | .addFdWatcher _ | .removeFdWatcher _ | .timerCall _
  | .sendWakeup | .wakeup | .terminate => isTrue trivial

omit [DecidableEq I] in
/-- The thread does not wait. -/
theorem waitsInTime_of_awake {s : LoopThread I L}
    (hpc : ∀ set now timeToWait, s.pc ≠ .selecting set now timeToWait) :
    s.WaitsInTime :=
  fun set now timeToWait hwaits => absurd hwaits (hpc set now timeToWait)

omit [DecidableEq I] in
/-- Something is written to the pipe. -/
theorem waitsInTime_of_written {s : LoopThread I L} (hqueue : s.mPipe.queue ≠ []) :
    s.WaitsInTime :=
  fun _ _ _ _ hempty => absurd hempty hqueue

/-- Another thread changes the timers, and has not called `wakeup` yet. -/
theorem InTime.timerCall {s : LoopThread I L} (hs : s.InTime) (call : TimerCall I) :
    InTime { s with
      timers := call.perform s.timers
      unsent := s.unsent + call.wakeups s.timers } := by
  refine ⟨TimerCall.perform_sorted hs.sorted call, ?_⟩
  intro set now timeToWait hpc hqueue hunsent
  change s.unsent + call.wakeups s.timers = 0 at hunsent
  have hsame := TimerCall.perform_of_wakeups_eq_zero (s := s.timers)
    (Nat.eq_zero_of_add_eq_zero_left hunsent)
  change ∀ id ∈ (call.perform s.timers).mTimers, ∀ begun : Int, _ → _ ≤
    (((call.perform s.timers).getExpiry id).toNat : Int) + _
  rw [hsame]
  exact hs.waits set now timeToWait hpc hqueue
    (Nat.eq_zero_of_add_eq_zero_right hunsent)

variable [DecidableEq L]

theorem step_inTime {pipeFd : Int} {s t : LoopThread I L}
    {action : LoopAction I L} (hs : s.InTime) (hguard : s.LeavesInTime action)
    (hstep : s.step pipeFd action = some t) : t.InTime := by
  cases step_move hstep with
  | enter | noFd | readFailed | lockWatchers | unlockWatchers =>
      exact ⟨hs.sorted, waitsInTime_of_awake (by simp)⟩
  | drain now handler set hpc hzero =>
      exact ⟨EventLoop.runTimers_sorted hs.sorted now handler,
        waitsInTime_of_awake (by simp)⟩
  | drained now handler set hpc hwait =>
      refine ⟨EventLoop.runTimers_sorted hs.sorted now handler, ?_⟩
      intro other now' timeToWait hselecting hqueue hunsent
      cases hselecting
      intro id hid begun hbegun
      have hwaits := EventLoop.runTimers_wait_le hs.sorted hguard hwait id hid
      change begun + (s.timers.runTimers now handler).timeout ≤
        (((s.timers.runTimers now handler).loop.getExpiry id).toNat : Int) +
          (begun - now.toNat)
      omega
  | select outcome set now timeToWait hpc hadmits =>
      refine ⟨hs.sorted, waitsInTime_of_awake ?_⟩
      cases outcome <;> simp [SelectOutcome.next]
  | readCommand ready cCmd mPipe hpc hready htake =>
      refine ⟨hs.sorted, waitsInTime_of_awake fun set now timeToWait hnext => ?_⟩
      change afterCommand cCmd = _ at hnext
      unfold afterCommand at hnext
      split at hnext <;> cases hnext
  | visit | returns | addFdWatcher | removeFdWatcher => exact ⟨hs.sorted, hs.waits⟩
  | timerCall call => exact hs.timerCall call
  | sendWakeup | wakeup | terminate =>
      exact ⟨hs.sorted, waitsInTime_of_written (by simp [write])⟩

/-- In every run in which no timer is left more than 2^31 ms late, the loop never
waits past the next expiry unless it is about to be woken up, whichever timers
are started, stopped and restarted while it waits. -/
theorem run_waitsInTime {pipeFd : Int} (handler : I → Bool) (expiry : I → UInt64)
    (watchers : NodeList L) {actions : List (LoopAction I L)}
    (hguard : LabelledRun.EachStep (step pipeFd) LeavesInTime
      (init (EventLoop.init handler expiry) watchers) actions)
    {s : LoopThread I L}
    (hrun : LabelledRun.run (step pipeFd)
      (init (EventLoop.init handler expiry) watchers) actions = some s) :
    s.WaitsInTime := by
  have hinit : InTime (init (EventLoop.init handler expiry) watchers) :=
    ⟨List.Pairwise.nil, waitsInTime_of_awake (by simp [init])⟩
  have hs := LabelledRun.run_invariant_of_eachStep (P := InTime)
    (fun _ _ _ hs hinTime hstep => step_inTime hs hinTime hstep) hinit hguard hrun
  exact hs.waits

/-- A timer of 2 ms is started while the loop waits for one of 50 ms; the wait is
cut short by the byte that follows. -/
def startedDuringWait : List (LoopAction Nat Nat) :=
  [.timerCall (.start 0 50 false 0), .sendWakeup, .enter [], .runTimers 0 [],
    .select (.ready [3]), .readCommand true, .enter [], .runTimers 1 [],
    .timerCall (.start 1 2 false 3), .sendWakeup, .select (.ready [3]),
    .readCommand true, .enter [], .runTimers 3 []]

theorem startedDuringWait_inTime :
    (LabelledRun.run (step 3)
        (init (EventLoop.init (fun _ => true) fun _ => 0) NodeList.empty)
        startedDuringWait).map LoopThread.pc =
      some (.selecting ⟨[3], 4⟩ 3 2) ∧
    ∃ s, LabelledRun.run (step 3)
        (init (EventLoop.init (fun _ => true) fun _ => 0) NodeList.empty)
        startedDuringWait = some s ∧ s.WaitsInTime :=
  ⟨by decide +kernel, _, rfl, @run_waitsInTime Nat Nat _ _ 3 (fun _ => true)
    (fun _ => 0) NodeList.empty startedDuringWait (by decide +kernel) _ rfl⟩

end LoopThread

end MyDirectFB

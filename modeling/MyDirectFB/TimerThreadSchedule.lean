/-
A repeating timer thread keeps to its schedule: the handler calls of a worker
are due at its start time plus the intervals in force so far, however long the
handlers take.  The remaining time is an unsigned difference that wraps when the
worker is late, and comes back negative through the `int` of `Task::sleep`.
-/
import MyDirectFB.TimerThreadExpiry
import Mathlib.Algebra.Ring.Int.Defs

namespace MyDirectFB

/-! ### The conversions on the way of a remaining time -/

/-- An `int` that is not negative keeps its value. -/
theorem toNat_intToUInt64 {value : Int32} (hvalue : 0 ≤ value.toInt) :
    ((intToUInt64 value).toNat : Int) = value.toInt := by
  have hwide : 0 ≤ value.toInt64 := by
    rw [Int64.le_iff_toInt_le, Int32.toInt_toInt64]
    exact hvalue
  rw [intToUInt64, Int64.toNat_toUInt64_of_le hwide, Int64.toNatClampNeg,
    Int32.toInt_toInt64, Int.toNat_of_nonneg hvalue]

theorem toInt_toInt32_of_short {msec : UInt32} (hshort : msec.toNat < 2 ^ 31) :
    msec.toInt32.toInt = msec.toNat := by
  have hmsb : msec.toBitVec.msb = false := by
    rw [BitVec.msb_eq_false_iff_two_mul_lt]
    exact (Nat.mul_lt_mul_left (by decide)).mpr hshort
  exact BitVec.toInt_eq_toNat_of_msb hmsb

/-- A remaining time comes through the two conversions unchanged also when it is
the difference of a worker that is late. -/
theorem intToUInt64_uint64ToInt_of_late {value : UInt64}
    (hvalue : 2 ^ 64 - 2 ^ 31 ≤ value.toNat) :
    intToUInt64 (uint64ToInt value) = value := by
  have hlt := value.toNat_lt
  apply UInt64.toNat_inj.mp
  rw [uint64ToInt, toNat_intToUInt64_toInt32, UInt64.toNat_toUInt32]
  split <;> omega

/-- The deadline of a wait is the expiry and the advance of the clock between
the two readings. -/
theorem toNat_waitDeadline {due : Int} {expireTime reading clock : UInt64}
    (hexpire : (expireTime.toNat : Int) = due) (hreading : reading ≤ clock)
    (hclock : clock.toNat ≤ 2 ^ 64 - 2 ^ 31)
    (hsoon : due < reading.toNat + 2 ^ 31)
    (hlate : (reading.toNat : Int) < due + 2 ^ 31) :
    ((waitDeadline clock (uint64ToInt (expireTime - reading))).toNat : Int) =
      due + (clock.toNat - reading.toNat) := by
  have hreading := UInt64.le_iff_toNat_le.mp hreading
  have hexpireLt := expireTime.toNat_lt
  rcases Nat.lt_or_ge expireTime.toNat reading.toNat with hpast | hahead
  · have htimeout : (expireTime - reading).toNat =
        2 ^ 64 - (reading.toNat - expireTime.toNat) := by
      rw [UInt64.toNat_sub]
      omega
    rw [waitDeadline, intToUInt64_uint64ToInt_of_late (by omega),
      UInt64.toNat_add, htimeout]
    omega
  · have htimeout : (expireTime - reading).toNat =
        expireTime.toNat - reading.toNat :=
      UInt64.toNat_sub_of_le _ _ (UInt64.le_iff_toNat_le.mpr hahead)
    rw [waitDeadline, intToUInt64_uint64ToInt (by omega), UInt64.toNat_add,
      htimeout]
    omega

/-! ### The schedule of a worker -/

/-- A timer thread, with the intervals in force when the handler calls of each
worker have returned, and the reading of the clock from which each worker has
computed its remaining time. -/
structure ScheduledThread where
  thread : TimerThread
  later : Nat → List Int
  reading : Nat → UInt64

namespace ScheduledThread

def init (startTime clock : UInt64) : ScheduledThread :=
  ⟨TimerThread.init true startTime clock, fun _ => [], fun _ => 0⟩

/-- What is recorded of a step of worker `w`. -/
def record (s : ScheduledThread) (w : Nat) (thread : TimerThread) :
    ScheduledThread :=
  match s.thread.run w with
  | .atClock _ =>
      ⟨thread, s.later, Function.update s.reading w s.thread.clock⟩
  | .inHandler _ =>
      ⟨thread, Function.update s.later w
        (s.later w ++ [s.thread.mIntervalMs.toInt]), s.reading⟩
  | _ => { s with thread := thread }

def step (s : ScheduledThread) (action : TimerThreadStep) :
    Option ScheduledThread :=
  (s.thread.step action).map fun thread =>
    match action with
    | .worker w => s.record w thread
    | _ => { s with thread := thread }

/-- The time at which handler call `n` of worker `w` is due: the time of its
start and the first `n` intervals. -/
def nominal (s : ScheduledThread) (w n : Nat) : Int :=
  (s.thread.arming w).time.toNat +
    ((((s.thread.arming w).msec.toNat : Int) :: s.later w).take n).sum

/-- What is assumed of a step: the intervals in force are those of an `int` that
is not negative, a worker is less than 2^31 late when it reads the clock, and
without a signal a wait lasts until its deadline. -/
def OnTime (s : ScheduledThread) : TimerThreadStep → Prop
  | .start args => args.msec.toNat < 2 ^ 31
  | .worker w =>
      match s.thread.run w with
      | .atClock _ => (s.thread.clock.toNat : Int) <
          s.nominal w ((s.later w).length + 1) + 2 ^ 31
      | .inHandler _ => 0 ≤ s.thread.mIntervalMs.toInt
      | _ => True
  | .wake w => ∀ expireTime deadline,
      s.thread.run w = .inWait expireTime deadline → deadline ≤ s.thread.clock
  | _ => True

/-- No handler call comes before it is due. -/
def NotAhead (s : ScheduledThread) : Prop :=
  ∀ w n now, (s.thread.calls w)[n]? = some now →
    s.nominal w (n + 1) ≤ now.toNat

/-- A worker that begins to wait for its next handler call has the time at which
the call is due as its deadline, put off by the advance of the clock between the
two readings; when the call was due at the first reading, the wait is over. -/
def WaitsUntilDue (s : ScheduledThread) : TimerThreadStep → Prop
  | .worker w => ∀ t expireTime deadline,
      s.thread.step (.worker w) = some t →
      t.run w = .inWait expireTime deadline →
      let due := s.nominal w ((s.thread.calls w).length + 1)
      s.reading w ≤ s.thread.clock ∧
        (deadline.toNat : Int) =
          due + (s.thread.clock.toNat - (s.reading w).toNat) ∧
        (due ≤ (s.reading w).toNat → deadline ≤ s.thread.clock)
  | _ => True

end ScheduledThread

/-- A reading of the clock at which an `int` can still be added. -/
def TimerThreadStep.ClockInRange : TimerThreadStep → Prop
  | .tick now => now.toNat ≤ 2 ^ 64 - 2 ^ 31
  | _ => True

/-- The worker has yet to call its handler in this round of its loop. -/
def RunPc.IsBeforeCall : RunPc → Prop
  | .inHandler _ | .atRepeat _ | .atStore _ | .atEnd => False
  | _ => True

/-- Where a worker can be whose last handler call was due at `base` and whose
next one is due at `due`; `stopped` tells that its caller is joining. -/
def RunPc.OnSchedule (base due : Int) (reading clock : UInt64)
    (stopped : Prop) : RunPc → Prop
  | .atLoop | .atStartTime | .atEnd => True
  | .atInterval startTime => (startTime.toNat : Int) = base
  | .atClock expireTime => (expireTime.toNat : Int) = due
  | .atSleep expireTime timeoutMs =>
      (expireTime.toNat : Int) = due ∧ timeoutMs = expireTime - reading ∧
        base ≤ reading.toNat ∧ reading ≤ clock ∧
        (reading.toNat : Int) < due + 2 ^ 31
  | .inWait expireTime deadline =>
      (expireTime.toNat : Int) = due ∧ due ≤ deadline.toNat
  | .awake expireTime | .slept expireTime =>
      (expireTime.toNat : Int) = due ∧ (due ≤ clock.toNat ∨ stopped)
  | .atHandler expireTime | .inHandler expireTime =>
      (expireTime.toNat : Int) = due ∧ due ≤ clock.toNat
  | .atRepeat expireTime | .atStore expireTime =>
      (expireTime.toNat : Int) = base

theorem RunPc.OnSchedule.mono {base due : Int} {reading clock later : UInt64}
    {stopped stopped' : Prop} {pc : RunPc}
    (hpc : pc.OnSchedule base due reading clock stopped) (hle : clock ≤ later)
    (hstopped : stopped → stopped') :
    pc.OnSchedule base due reading later stopped' := by
  have hnat : (clock.toNat : Int) ≤ later.toNat :=
    Int.ofNat_le.mpr (UInt64.le_iff_toNat_le.mp hle)
  cases pc with
  | atLoop => trivial
  | atStartTime => trivial
  | atEnd => trivial
  | atInterval startTime => exact hpc
  | atClock expireTime => exact hpc
  | atSleep expireTime timeoutMs =>
      obtain ⟨hexpire, htimeout, hbase, hreading, hlate⟩ := hpc
      exact ⟨hexpire, htimeout, hbase, UInt64.le_trans hreading hle, hlate⟩
  | inWait expireTime deadline => exact hpc
  | awake expireTime => exact ⟨hpc.1, hpc.2.imp (Int.le_trans · hnat) hstopped⟩
  | slept expireTime => exact ⟨hpc.1, hpc.2.imp (Int.le_trans · hnat) hstopped⟩
  | atHandler expireTime => exact ⟨hpc.1, Int.le_trans hpc.2 hnat⟩
  | inHandler expireTime => exact ⟨hpc.1, Int.le_trans hpc.2 hnat⟩
  | atRepeat expireTime => exact hpc
  | atStore expireTime => exact hpc

namespace TimerThread

/-- A worker begins a wait in `Task::sleep` only. -/
theorem workerStep_inWait {s t : TimerThread} {w : Nat}
    (hstep : s.workerStep w = some t) {expireTime deadline : UInt64}
    (hwait : t.run w = .inWait expireTime deadline) :
    ∃ timeoutMs, s.run w = .atSleep expireTime timeoutMs ∧
      deadline = waitDeadline s.clock (uint64ToInt timeoutMs) := by
  have hset (pc : RunPc) : (s.setRun w pc).run w = pc :=
    Function.update_self _ _ _
  obtain ⟨-, hmove⟩ := workerStep_move hstep
  generalize s.run w = pc at hmove ⊢
  cases hmove with
  | wait expireTime' timeoutMs hstopping hself =>
      rw [hset] at hwait
      cases hwait
      exact ⟨timeoutMs, rfl, rfl⟩
  | loop =>
      rw [hset] at hwait
      split at hwait <;> cases hwait
  | repeats =>
      rw [hset] at hwait
      split at hwait <;> cases hwait
  | _ => simp [setRun] at hwait

end TimerThread

namespace ScheduledThread

/-! ### The invariant -/

/-- The time at which the last handler call of worker `w` was due, or its start
when there was none. -/
def base (s : ScheduledThread) (w : Nat) : Int :=
  s.nominal w (s.later w).length

/-- The time at which the handler call of worker `w` to come is due, or the one
it is in. -/
def due (s : ScheduledThread) (w : Nat) : Int :=
  s.nominal w ((s.later w).length + 1)

/-- A worker that is running, and the members it reads. -/
structure Scheduled (s : ScheduledThread) (w : Nat) : Prop where
  past : s.base w ≤ s.thread.clock.toNat
  startTime : (s.thread.run w).IsBeforeCall →
    (s.thread.mStartTime.toNat : Int) = s.base w
  interval : (s.thread.run w).isInHandler = false →
    s.due w = s.base w + s.thread.mIntervalMs.toInt ∧
      0 ≤ s.thread.mIntervalMs.toInt
  place : (s.thread.run w).OnSchedule (s.base w) (s.due w) (s.reading w)
    s.thread.clock (s.thread.task.client ()).InWindow

/-- The invariant of a timer thread that keeps to its schedule. -/
structure Inv (s : ScheduledThread) : Prop where
  thread : s.thread.Inv
  handler : s.thread.mHandler = true
  clock : s.thread.clock.toNat ≤ 2 ^ 64 - 2 ^ 31
  prepared : s.thread.Prepared
  calls : ∀ w, (s.thread.calls w).length =
    (s.later w).length + if (s.thread.run w).isInHandler then 1 else 0
  scheduled : ∀ w, s.thread.task.worker w = .running → s.Scheduled w
  notAhead : s.NotAhead

theorem init_inv (startTime : UInt64) {clock : UInt64}
    (hclock : clock.toNat ≤ 2 ^ 64 - 2 ^ 31) :
    (init startTime clock).Inv where
  thread := TimerThread.init_inv true startTime clock
  handler := rfl
  clock := hclock
  prepared := trivial
  calls _ := rfl
  scheduled _ hw := by cases hw
  notAhead _ _ _ hcall := by cases hcall

/-! ### Steps of the other threads -/

theorem Scheduled.undisturbed {s : ScheduledThread} {t : TimerThread} {w : Nat}
    (hs : s.Scheduled w) (hsame : s.thread.Undisturbed t w) :
    Scheduled { s with thread := t } w := by
  have hnominal (n : Nat) :
      nominal { s with thread := t } w n = s.nominal w n := by
    simp only [nominal, TimerThread.arming, hsame.started]
  have hclock : (s.thread.clock.toNat : Int) ≤ t.clock.toNat :=
    Int.ofNat_le.mpr (UInt64.le_iff_toNat_le.mp hsame.clock)
  have hbase : base { s with thread := t } w = s.base w := hnominal _
  have hdue : due { s with thread := t } w = s.due w := hnominal _
  have hkept : (s.thread.run w).OnSchedule (s.base w) (s.due w) (s.reading w)
      t.clock (t.task.client ()).InWindow :=
    hs.place.mono hsame.clock hsame.window
  have hhandler : (t.run w).isInHandler = (s.thread.run w).isInHandler := by
    rcases hsame.place with h | ⟨_, _, hwait, hawake, -⟩
    · rw [h]
    · rw [hwait, hawake]
      rfl
  have hbefore : (t.run w).IsBeforeCall → (s.thread.run w).IsBeforeCall := by
    rcases hsame.place with h | ⟨_, _, hwait, -, -⟩
    · rw [h]
      exact id
    · rw [hwait]
      exact fun _ => trivial
  refine ⟨?_, ?_, ?_, ?_⟩
  · rw [hbase]
    exact Int.le_trans hs.past hclock
  · intro hcall
    rw [hbase, hsame.startTime]
    exact hs.startTime (hbefore hcall)
  · intro hnot
    rw [hhandler] at hnot
    have hinterval : t.mIntervalMs = s.thread.mIntervalMs :=
      hsame.interval.resolve_right (by rw [hnot]; exact Bool.false_ne_true)
    rw [hbase, hdue, hinterval]
    exact hs.interval hnot
  · rw [hbase, hdue]
    rcases hsame.place with h | ⟨expireTime, deadline, hwait, hawake, hover⟩
    · rw [h]
      exact hkept
    · rw [hwait] at hkept
      rw [hawake]
      refine ⟨hkept.1, ?_⟩
      rcases hover with hjoining | hdeadline
      · exact .inr hjoining
      · have hreached : (deadline.toNat : Int) ≤ t.clock.toNat :=
          Int.ofNat_le.mpr (UInt64.le_iff_toNat_le.mp hdeadline)
        exact .inl (Int.le_trans hkept.2 hreached)

/-- A worker that has been created finds what the `start` has prepared. -/
theorem Scheduled.created {s : ScheduledThread} (hs : s.Inv) {args : StartArgs}
    (hcaller : s.thread.caller = .starting args .startTask) :
    Scheduled { s with thread := s.thread.startNext args .startTask }
      s.thread.task.created := by
  have hprepared := hs.prepared
  unfold TimerThread.Prepared at hprepared
  rw [hcaller] at hprepared
  obtain ⟨hshort, hpast, hinterval⟩ := hprepared
  obtain ⟨hrun, hcalls⟩ := hs.thread.fresh s.thread.task.created (Nat.le_refl _)
  have hlater : s.later s.thread.task.created = [] := by
    have hlength := hs.calls s.thread.task.created
    rw [hcalls, List.length_nil] at hlength
    exact List.eq_nil_of_length_eq_zero (by omega)
  have harming : (s.thread.startNext args .startTask).arming
      s.thread.task.created = ⟨s.thread.mStartTime, args.msec⟩ := by
    simp [TimerThread.arming, TimerThread.startNext]
  have hbase : base { s with thread := s.thread.startNext args .startTask }
      s.thread.task.created = s.thread.mStartTime.toNat := by
    simp [base, nominal, harming, hlater]
  have hdue : due { s with thread := s.thread.startNext args .startTask }
      s.thread.task.created = s.thread.mStartTime.toNat + args.msec.toNat := by
    simp [due, nominal, harming, hlater]
  have hplace : (s.thread.startNext args .startTask).run
      s.thread.task.created = .atLoop := hrun
  refine ⟨?_, ?_, ?_, ?_⟩
  · rw [hbase]
    exact Int.ofNat_le.mpr (UInt64.le_iff_toNat_le.mp hpast)
  · intro _
    rw [hbase]
    rfl
  · intro _
    have hvalue : s.thread.mIntervalMs.toInt = args.msec.toNat := by
      rw [hinterval]
      exact toInt_toInt32_of_short hshort
    rw [hbase, hdue]
    change _ = _ + s.thread.mIntervalMs.toInt ∧ 0 ≤ s.thread.mIntervalMs.toInt
    omega
  · change RunPc.OnSchedule _ _ _ _ _
      ((s.thread.startNext args .startTask).run s.thread.task.created)
    rw [hplace]
    trivial

/-- A step that is not a worker's keeps the schedule of every worker. -/
theorem Inv.other {s : ScheduledThread} (hs : s.Inv) {action : TimerThreadStep}
    {t : TimerThread} (hguard : s.OnTime action) (hclock : action.ClockInRange)
    (hne : ∀ w, action ≠ .worker w) (hstep : s.thread.step action = some t) :
    Inv { s with thread := t } := by
  have hshort : action.IsShort := by
    cases action with
    | start args => exact hguard
    | _ => trivial
  have hwake (v : Nat) (expireTime deadline : UInt64) (hv : action = .wake v)
      (hwait : s.thread.run v = .inWait expireTime deadline) :
      deadline ≤ s.thread.clock := by
    subst hv
    exact hguard expireTime deadline hwait
  obtain ⟨hhandler, htick⟩ := TimerThread.step_mHandler_clock hstep
  refine ⟨TimerThread.step_inv s.thread action t hs.thread hstep,
    hhandler.trans hs.handler, ?_,
    hs.prepared.step hs.thread hshort hstep, fun w => ?_, fun w hw => ?_,
    fun w n now hcall => ?_⟩
  · rcases htick with hsame | rfl
    · change t.clock.toNat ≤ 2 ^ 64 - 2 ^ 31
      rw [hsame]
      exact hs.clock
    · exact hclock
  · obtain ⟨hcalls, hhandler, -⟩ := TimerThread.step_other hstep (hne w)
    rw [hcalls, hhandler]
    exact hs.calls w
  · rcases TimerThread.step_running hs.thread hstep hwake hw (hne w) with
      hsame | ⟨args, hcaller, rfl, rfl⟩
    · exact (hs.scheduled w hsame.running).undisturbed hsame
    · exact Scheduled.created hs hcaller
  · obtain ⟨hcalls, -, hstarted⟩ := TimerThread.step_other hstep (hne w)
    have hold : (s.thread.calls w)[n]? = some now := hcalls ▸ hcall
    rcases hstarted with hsame | rfl
    · have hnominal : nominal { s with thread := t } w (n + 1) =
          s.nominal w (n + 1) := by
        simp only [nominal, TimerThread.arming, hsame]
      rw [hnominal]
      exact hs.notAhead w n now hold
    · rw [(hs.thread.fresh _ (Nat.le_refl _)).2] at hold
      cases hold

/-! ### Steps of the workers -/

/-- A worker's step concerns that worker alone: it is the only one that runs. -/
theorem Inv.worker {s : ScheduledThread} (hs : s.Inv) {w : Nat} {t : TimerThread}
    (hstep : s.thread.step (.worker w) = some t) {later : Nat → List Int}
    {reading : Nat → UInt64} (hlater : ∀ v, v ≠ w → later v = s.later v)
    (hcalls : (t.calls w).length =
      (later w).length + if (t.run w).isInHandler then 1 else 0)
    (hscheduled : Scheduled ⟨t, later, reading⟩ w)
    (hnotAhead : ∀ n now, (t.calls w)[n]? = some now →
      nominal ⟨t, later, reading⟩ w (n + 1) ≤ now.toNat) :
    Inv ⟨t, later, reading⟩ := by
  have hw := TimerThread.running_of_workerStep hstep
  obtain ⟨hcaller, hrun⟩ := TimerThread.workerStep_frame hstep
  obtain ⟨⟨htask, hhandler, hclock, hstarted⟩, hothers⟩ :=
    TimerThread.workerStep_members hstep
  refine ⟨TimerThread.step_inv s.thread (.worker w) t hs.thread hstep,
    hhandler.trans hs.handler, ?_,
    hs.prepared.of_running hs.thread hw hcaller, fun v => ?_, fun v hv => ?_,
    fun v n now hcall => ?_⟩
  · change t.clock.toNat ≤ 2 ^ 64 - 2 ^ 31
    rw [hclock]
    exact hs.clock
  · by_cases hvw : v = w
    · subst v
      exact hcalls
    · simp only [hothers v hvw, hlater v hvw, hrun v hvw]
      exact hs.calls v
  · have hv' : s.thread.task.worker v = .running := htask ▸ hv
    obtain rfl := hs.thread.one_running hv' hw
    exact hscheduled
  · by_cases hvw : v = w
    · subst v
      exact hnotAhead n now hcall
    · have hnominal : nominal ⟨t, later, reading⟩ v (n + 1) =
          s.nominal v (n + 1) := by
        simp only [nominal, TimerThread.arming, hstarted, hlater v hvw]
      rw [hnominal]
      exact hs.notAhead v n now (hothers v hvw ▸ hcall)

/-- A worker moves on from `old` outside of its handler. -/
theorem Inv.setRun {s : ScheduledThread} (hs : s.Inv) {w : Nat} {old pc : RunPc}
    {reading : Nat → UInt64} (hpc : s.thread.run w = old)
    (hstep : s.thread.step (.worker w) = some (s.thread.setRun w pc))
    (hold : old.isInHandler = false) (hnew : pc.isInHandler = false)
    (hbefore : pc.IsBeforeCall → old.IsBeforeCall)
    (hplace : s.Scheduled w →
      old.OnSchedule (s.base w) (s.due w) (s.reading w) s.thread.clock
        (s.thread.task.client ()).InWindow →
      pc.OnSchedule (s.base w) (s.due w) (reading w) s.thread.clock
        (s.thread.task.client ()).InWindow) :
    Inv ⟨s.thread.setRun w pc, s.later, reading⟩ := by
  have hscheduled := hs.scheduled w (TimerThread.running_of_workerStep hstep)
  have hrun : (s.thread.setRun w pc).run w = pc := Function.update_self _ _ _
  apply hs.worker hstep (fun _ _ => rfl)
  · have hcalls := hs.calls w
    rw [hpc, hold] at hcalls
    rw [hrun, hnew]
    exact hcalls
  · refine ⟨hscheduled.past, fun hcall => ?_, fun _ => ?_, ?_⟩
    · apply hscheduled.startTime
      rw [hpc]
      exact hbefore (hrun ▸ hcall)
    · apply hscheduled.interval
      rw [hpc]
      exact hold
    · change RunPc.OnSchedule _ _ _ _ _ ((s.thread.setRun w pc).run w)
      rw [hrun]
      exact hplace hscheduled (hpc ▸ hscheduled.place)
  · exact hs.notAhead w

/-- What stands in a list with a new last entry. -/
theorem getElem?_append_singleton {A : Type} {l : List A} {x y : A} {n : Nat}
    (h : (l ++ [x])[n]? = some y) : l[n]? = some y ∨ n = l.length ∧ y = x := by
  rcases Nat.lt_or_ge n l.length with hlt | hge
  · rw [List.getElem?_append_left hlt] at h
    exact .inl h
  · rw [List.getElem?_append_right hge, List.getElem?_singleton] at h
    obtain ⟨hzero, hsame⟩ := Option.ite_none_right_eq_some.mp h
    exact .inr ⟨by omega, (Option.some.inj hsame).symm⟩

/-- The handler is called when the call is due. -/
theorem Inv.callHandler {s : ScheduledThread} (hs : s.Inv) {w : Nat}
    {expireTime : UInt64} (hpc : s.thread.run w = .atHandler expireTime)
    {t : TimerThread} (ht : t = { s.thread.setRun w (.inHandler expireTime) with
      calls := Function.update s.thread.calls w
        (s.thread.calls w ++ [s.thread.clock]) })
    (hstep : s.thread.step (.worker w) = some t) :
    Inv ⟨t, s.later, s.reading⟩ := by
  have hscheduled := hs.scheduled w (TimerThread.running_of_workerStep hstep)
  have hplace := hscheduled.place
  rw [hpc] at hplace
  have hlength := hs.calls w
  rw [hpc] at hlength
  have hrun : t.run w = .inHandler expireTime := by
    rw [ht]
    exact Function.update_self _ _ _
  have hcalls : t.calls w = s.thread.calls w ++ [s.thread.clock] := by
    rw [ht]
    exact Function.update_self _ _ _
  have hnominal (n : Nat) :
      nominal ⟨t, s.later, s.reading⟩ w n = s.nominal w n := by
    rw [ht]
    rfl
  have hclock : t.clock = s.thread.clock := by rw [ht]; rfl
  have hclient : t.task.client () = s.thread.task.client () := by rw [ht]; rfl
  apply hs.worker hstep (fun _ _ => rfl)
  · rw [hcalls, hrun, List.length_append, hlength]
    rfl
  · refine ⟨?_, fun hcall => ?_, fun hnot => ?_, ?_⟩
    · rw [base, hnominal, hclock]
      exact hscheduled.past
    · rw [hrun] at hcall
      exact hcall.elim
    · rw [hrun] at hnot
      cases hnot
    · rw [base, due, hnominal, hnominal, hclock, hclient, hrun]
      exact hplace
  · intro n now hcall
    rw [hnominal]
    rw [hcalls] at hcall
    rcases getElem?_append_singleton hcall with hold | ⟨hlast, rfl⟩
    · exact hs.notAhead w n now hold
    · have hn : n = (s.later w).length := by
        simp [RunPc.isInHandler] at hlength
        omega
      rw [hn]
      exact hplace.2

/-- The handler of worker `w` has returned, with the interval that is in force then. -/
def returned (s : ScheduledThread) (w : Nat) (expireTime : UInt64) : ScheduledThread :=
  ⟨s.thread.setRun w (.atRepeat expireTime),
    Function.update s.later w (s.later w ++ [s.thread.mIntervalMs.toInt]), s.reading⟩

section

variable (s : ScheduledThread) (w : Nat) (expireTime : UInt64)

@[simp] theorem run_returned :
    (s.returned w expireTime).thread.run w = .atRepeat expireTime :=
  Function.update_self _ _ _

@[simp] theorem later_returned : (s.returned w expireTime).later w =
    s.later w ++ [s.thread.mIntervalMs.toInt] :=
  Function.update_self _ _ _

@[simp] theorem arming_returned :
    (s.returned w expireTime).thread.arming w = s.thread.arming w := rfl

/-- The calls so far are due when they were. -/
theorem nominal_returned {n : Nat} (hn : n ≤ (s.later w).length + 1) :
    (s.returned w expireTime).nominal w n = s.nominal w n := by
  rw [nominal, nominal, later_returned, arming_returned, ← List.cons_append,
    List.take_append_of_le_length (by simpa using hn)]

theorem base_returned : (s.returned w expireTime).base w = s.due w := by
  rw [base, later_returned, List.length_append, List.length_singleton]
  exact nominal_returned s w expireTime (Nat.le_refl _)

theorem due_returned : (s.returned w expireTime).due w =
    s.due w + s.thread.mIntervalMs.toInt := by
  simp only [due, nominal, later_returned, arming_returned, List.length_append,
    List.length_singleton]
  rw [List.take_of_length_le (by simp), List.take_of_length_le (by simp)]
  simp only [List.sum_cons, List.sum_append, List.sum_nil]
  omega

end

/-- When its handler returns, the interval in force is the next one. -/
theorem Inv.handlerReturns {s : ScheduledThread} (hs : s.Inv) {w : Nat}
    {expireTime : UInt64} (hpc : s.thread.run w = .inHandler expireTime)
    (hinterval : 0 ≤ s.thread.mIntervalMs.toInt)
    (hstep : s.thread.step (.worker w) =
      some (s.thread.setRun w (.atRepeat expireTime))) :
    (s.returned w expireTime).Inv := by
  have hscheduled := hs.scheduled w (TimerThread.running_of_workerStep hstep)
  have hplace := hscheduled.place
  rw [hpc] at hplace
  have hlength := hs.calls w
  rw [hpc] at hlength
  have hcalls : (s.thread.calls w).length =
      ((s.returned w expireTime).later w).length +
        if ((s.returned w expireTime).thread.run w).isInHandler then 1 else 0 := by
    rw [run_returned, later_returned, List.length_append]
    exact hlength
  have hnext : (s.returned w expireTime).Scheduled w := by
    refine ⟨?_, fun hcall => ?_, fun _ => ?_, ?_⟩
    · rw [base_returned]
      exact hplace.2
    · rw [run_returned] at hcall
      exact hcall.elim
    · rw [base_returned, due_returned]
      exact ⟨rfl, hinterval⟩
    · rw [base_returned, run_returned]
      exact hplace.1
  refine hs.worker hstep (fun v hv => Function.update_of_ne hv _ _) hcalls hnext ?_
  intro n now hcall
  have hn : n < (s.thread.calls w).length :=
    (List.getElem?_eq_some_iff.mp hcall).1
  simp only [RunPc.isInHandler, ↓reduceIte] at hlength
  have hnominal := nominal_returned s w expireTime (n := n + 1) (by omega)
  exact Int.le_trans (Int.le_of_eq hnominal) (hs.notAhead w n now hcall)

/-- The time at which the call was due is what the next one counts from. -/
theorem Inv.store {s : ScheduledThread} (hs : s.Inv) {w : Nat}
    {expireTime : UInt64} (hpc : s.thread.run w = .atStore expireTime)
    (hstep : s.thread.step (.worker w) =
      some { s.thread.setRun w .atLoop with mStartTime := expireTime }) :
    Inv { s with thread :=
      { s.thread.setRun w .atLoop with mStartTime := expireTime } } := by
  have hscheduled := hs.scheduled w (TimerThread.running_of_workerStep hstep)
  have hplace := hscheduled.place
  rw [hpc] at hplace
  have hlength := hs.calls w
  rw [hpc] at hlength
  have hrun : ({ s.thread.setRun w .atLoop with
      mStartTime := expireTime } : TimerThread).run w = .atLoop :=
    Function.update_self _ _ _
  apply hs.worker hstep (fun _ _ => rfl)
  · rw [hrun]
    exact hlength
  · refine ⟨hscheduled.past, fun _ => hplace, fun _ => ?_, ?_⟩
    · apply hscheduled.interval
      rw [hpc]
      rfl
    · change RunPc.OnSchedule _ _ _ _ _ (({ s.thread.setRun w .atLoop with
        mStartTime := expireTime } : TimerThread).run w)
      rw [hrun]
      trivial
  · exact hs.notAhead w

/-- The expiry that `run` computes. -/
theorem Scheduled.toNat_expireTime {s : ScheduledThread} {w : Nat}
    (hs : s.Scheduled w) (hclock : s.thread.clock.toNat ≤ 2 ^ 64 - 2 ^ 31)
    (hnot : (s.thread.run w).isInHandler = false) {startTime : UInt64}
    (hstart : (startTime.toNat : Int) = s.base w) :
    ((startTime + intToUInt64 s.thread.mIntervalMs).toNat : Int) = s.due w := by
  obtain ⟨hdue, hnonneg⟩ := hs.interval hnot
  have hpast := hs.past
  have hvalue := toNat_intToUInt64 hnonneg
  have hshort := s.thread.mIntervalMs.toInt_lt
  rw [UInt64.toNat_add]
  omega

/-- The deadline of a worker that begins to wait. -/
theorem Scheduled.toNat_deadline {s : ScheduledThread} {w : Nat}
    (hs : s.Scheduled w) (hnot : (s.thread.run w).isInHandler = false)
    (hclock : s.thread.clock.toNat ≤ 2 ^ 64 - 2 ^ 31) {expireTime : UInt64}
    (hexpire : (expireTime.toNat : Int) = s.due w)
    (hbase : s.base w ≤ (s.reading w).toNat)
    (hreading : s.reading w ≤ s.thread.clock)
    (hlate : ((s.reading w).toNat : Int) < s.due w + 2 ^ 31) :
    ((waitDeadline s.thread.clock
        (uint64ToInt (expireTime - s.reading w))).toNat : Int) =
      s.due w + (s.thread.clock.toNat - (s.reading w).toNat) := by
  have hshort := s.thread.mIntervalMs.toInt_lt
  have hdue := (hs.interval hnot).1
  exact toNat_waitDeadline hexpire hreading hclock (by omega) hlate

/-- A worker's step keeps its schedule. -/
theorem Inv.workerStep {s t : ScheduledThread} (hs : s.Inv) {w : Nat}
    (hguard : s.OnTime (.worker w)) (hstep : s.step (.worker w) = some t) :
    t.Inv := by
  obtain ⟨thread, hthread, rfl⟩ := Option.map_eq_some_iff.mp hstep
  obtain ⟨hw, hmove⟩ := TimerThread.workerStep_move hthread
  simp only [OnTime] at hguard
  simp only [record]
  generalize hpc : s.thread.run w = pc at hmove
  cases hmove with
  | loop =>
      apply hs.setRun hpc hthread rfl
      · split <;> rfl
      · exact fun _ => trivial
      · intro _ _
        split <;> trivial
  | startTime =>
      apply hs.setRun hpc hthread rfl rfl id
      intro hscheduled _
      exact hscheduled.startTime (by rw [hpc]; trivial)
  | interval startTime =>
      apply hs.setRun hpc hthread rfl rfl id
      intro hscheduled hplace
      exact hscheduled.toNat_expireTime hs.clock (by rw [hpc]; rfl) hplace
  | clock expireTime =>
      simp only [hpc] at hguard
      apply hs.setRun hpc hthread rfl rfl id
      intro hscheduled hplace
      rw [Function.update_self]
      exact ⟨hplace, rfl, hscheduled.past, UInt64.le_refl _, hguard⟩
  | sleepStopping expireTime timeoutMs hstopping =>
      apply hs.setRun hpc hthread rfl rfl id
      intro _ hplace
      obtain ⟨stage, htask⟩ := hs.thread.task
      exact ⟨hplace.1, .inr (TimerThread.inWindow_of_stopping htask hstopping)⟩
  | wait expireTime timeoutMs hstopping hself =>
      apply hs.setRun hpc hthread rfl rfl id
      intro hscheduled hplace
      obtain ⟨hexpire, rfl, hbase, hreading, hlate⟩ := hplace
      have hdeadline := hscheduled.toNat_deadline (by rw [hpc]; rfl) hs.clock
        hexpire hbase hreading hlate
      have hadvance := UInt64.le_iff_toNat_le.mp hreading
      exact ⟨hexpire, by omega⟩
  | usleep expireTime timeoutMs hstopping hother =>
      exact absurd (hs.thread.mId_of_running hw) hother
  | awake expireTime =>
      exact hs.setRun hpc hthread rfl rfl id fun _ hplace => hplace
  | sleptStopping expireTime hstopping =>
      exact hs.setRun hpc hthread rfl rfl id fun _ _ => trivial
  | slept expireTime hstopping =>
      apply hs.setRun hpc hthread rfl rfl id
      intro _ hplace
      refine ⟨hplace.1, hplace.2.resolve_right fun hjoining => ?_⟩
      exact hstopping (hs.thread.stopping_of_inWindow hw hjoining)
  | callHandler expireTime hset => exact hs.callHandler hpc rfl hthread
  | noHandler expireTime hset => exact absurd hs.handler hset
  | handlerReturns expireTime =>
      simp only [hpc] at hguard
      exact hs.handlerReturns hpc hguard hthread
  | repeats expireTime =>
      apply hs.setRun hpc hthread rfl
      · split <;> rfl
      · split <;> exact id
      · intro _ hplace
        split
        · exact hplace
        · trivial
  | store expireTime => exact hs.store hpc hthread

/-! ### Runs -/

theorem step_inv (s : ScheduledThread) (action : TimerThreadStep)
    (t : ScheduledThread) (hs : s.Inv)
    (hguard : s.OnTime action ∧ action.ClockInRange)
    (hstep : s.step action = some t) : t.Inv := by
  cases action with
  | worker w => exact hs.workerStep hguard.1 hstep
  | _ =>
      obtain ⟨thread, hthread, rfl⟩ := Option.map_eq_some_iff.mp hstep
      exact hs.other hguard.1 hguard.2 nofun hthread

/-- A worker that begins to wait does so until its next call is due. -/
theorem Inv.waitsUntilDue {s : ScheduledThread} (hs : s.Inv)
    (action : TimerThreadStep) : s.WaitsUntilDue action := by
  cases action with
  | worker w =>
      intro t expireTime deadline hstep hwait
      have hscheduled :=
        hs.scheduled w (TimerThread.running_of_workerStep hstep)
      obtain ⟨timeoutMs, hpc, hdeadline⟩ :=
        TimerThread.workerStep_inWait hstep hwait
      have hnot : (s.thread.run w).isInHandler = false := by
        rw [hpc]
        rfl
      have hdue : s.nominal w ((s.thread.calls w).length + 1) = s.due w := by
        have hcalls := hs.calls w
        rw [hnot] at hcalls
        rw [hcalls]
        rfl
      have hplace := hscheduled.place
      rw [hpc] at hplace
      obtain ⟨hexpire, rfl, hbase, hreading, hlate⟩ := hplace
      have hvalue := hscheduled.toNat_deadline hnot hs.clock hexpire hbase
        hreading hlate
      rw [← hdeadline, ← hdue] at hvalue
      refine ⟨hreading, hvalue, fun hover => ?_⟩
      rw [UInt64.le_iff_toNat_le]
      omega
  | _ => trivial

/-- In every run in time with the clock in range, no handler call of a worker
comes before it is due, and each wait lasts until the next call is due. -/
theorem run_onSchedule (startTime clock : UInt64) (steps : List TimerThreadStep)
    (s : ScheduledThread) (hclock : clock.toNat ≤ 2 ^ 64 - 2 ^ 31)
    (hrange : ∀ action ∈ steps, action.ClockInRange)
    (honTime : LabelledRun.EachStep step OnTime (init startTime clock) steps)
    (hrun : LabelledRun.run step (init startTime clock) steps = some s) :
    s.NotAhead ∧
      LabelledRun.EachStep step WaitsUntilDue (init startTime clock) steps := by
  have hguard := honTime.and_mem hrange
  have hinit := init_inv startTime hclock
  constructor
  · exact (LabelledRun.run_invariant_of_eachStep step_inv hinit hguard
      hrun).notAhead
  · exact LabelledRun.EachStep.of_invariant
      (fun u action v hu hnow hstep =>
        ⟨hu.waitsUntilDue action, step_inv u action v hu hnow hstep⟩)
      hguard hinit

/-- A repeating timer thread, started for 10 at 0, whose handler is called at 12
and sets the interval to 5. -/
def calledLate : List TimerThreadStep :=
  [.start ⟨10, true⟩, .taskStop none, .startNext, .startNext, .startNext,
    .startNext, .startNext, .worker 0, .worker 0, .worker 0, .worker 0,
    .worker 0, .tick 12, .wake 0, .worker 0, .worker 0, .worker 0,
    .setInterval 0 5, .worker 0, .worker 0, .worker 0, .worker 0, .worker 0,
    .worker 0, .worker 0, .worker 0]

open LabelledRun in
/-- The second call is due at 15, not at 17. -/
theorem run_onSchedule_calledLate :
    ∃ s, run step (init 0 0) calledLate = some s ∧
      s.thread.calls 0 = [12] ∧ s.nominal 0 2 = 15 ∧
      s.thread.run 0 = .inWait 15 15 ∧
      (s.NotAhead ∧ EachStep step WaitsUntilDue (init 0 0) calledLate) := by
  refine ⟨_, rfl, rfl, by decide, rfl,
    run_onSchedule 0 0 calledLate _ (by decide) ?_ ?_ rfl⟩
  · simp [calledLate, TimerThreadStep.ClockInRange]
  · refine eachStep_cons rfl (by decide : _ < _) <| eachStep_cons rfl trivial <|
      eachStep_cons rfl trivial <| eachStep_cons rfl trivial <|
      eachStep_cons rfl trivial <| eachStep_cons rfl trivial <|
      eachStep_cons rfl trivial <| eachStep_cons rfl trivial <|
      eachStep_cons rfl trivial <| eachStep_cons rfl trivial <|
      eachStep_cons rfl (by decide : _ < _) <| eachStep_cons rfl trivial <|
      eachStep_cons rfl trivial <| eachStep_cons rfl ?_ <|
      eachStep_cons rfl trivial <| eachStep_cons rfl trivial <|
      eachStep_cons rfl trivial <| eachStep_cons rfl trivial <|
      eachStep_cons rfl (by decide : _ ≤ _) <| eachStep_cons rfl trivial <|
      eachStep_cons rfl trivial <| eachStep_cons rfl trivial <|
      eachStep_cons rfl trivial <| eachStep_cons rfl trivial <|
      eachStep_cons rfl (by decide : _ < _) <| eachStep_cons rfl trivial trivial
    intro expireTime deadline hwait
    cases hwait
    decide

open LabelledRun in
/-- At the last reading of the clock an interval of 1 wraps, and the handler is
called before the call is due. -/
theorem startedAtLastReading_ahead :
    EachStep step OnTime (init 0 18446744073709551615)
        (TimerThread.startedAndCalled ⟨1, true⟩) ∧
      ∃ s, run step (init 0 18446744073709551615)
          (TimerThread.startedAndCalled ⟨1, true⟩) = some s ∧
        ¬ s.NotAhead := by
  constructor
  · refine eachStep_cons rfl (by decide : _ < _) <| eachStep_cons rfl trivial <|
      eachStep_cons rfl trivial <| eachStep_cons rfl trivial <|
      eachStep_cons rfl trivial <| eachStep_cons rfl trivial <|
      eachStep_cons rfl trivial <| eachStep_cons rfl trivial <|
      eachStep_cons rfl trivial <| eachStep_cons rfl trivial <|
      eachStep_cons rfl (by decide : _ < _) <| eachStep_cons rfl trivial <|
      eachStep_cons rfl ?_ <| eachStep_cons rfl trivial <|
      eachStep_cons rfl trivial <| eachStep_cons rfl trivial trivial
    intro expireTime deadline hwait
    cases hwait
    decide
  · refine ⟨_, rfl, fun hnot => ?_⟩
    have hfirst := hnot 0 0 18446744073709551615 rfl
    exact absurd hfirst (by decide)

end ScheduledThread

end MyDirectFB

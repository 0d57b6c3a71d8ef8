/-
A timer thread does not fire early, as long as its interval is below 2^31.  The
interval goes through an `int` twice: a larger one comes out negative, and the
thread waits for a deadline that is over.
-/
import MyDirectFB.TimerThreadStop
import MyDirectFB.TimerExpiry

namespace MyDirectFB

universe u

/-! ### The conversions on the way of an interval -/

theorem toNat_intToUInt64_toInt32 (msec : UInt32) :
    (intToUInt64 msec.toInt32).toNat =
      if msec.toNat < 2 ^ 31 then msec.toNat
      else 2 ^ 64 - 2 ^ 32 + msec.toNat := by
  have hmsec := msec.toNat_lt
  simp [intToUInt64, ← UInt64.toNat_toBitVec, BitVec.toNat_signExtend,
    BitVec.msb_eq_decide]
  split <;> split <;> omega

theorem uint64ToInt_intToUInt64 (value : Int32) :
    uint64ToInt (intToUInt64 value) = value := by
  apply Int32.toBitVec_inj.mp
  apply BitVec.eq_of_toNat_eq
  simp [intToUInt64, uint64ToInt, BitVec.toNat_signExtend, BitVec.msb_eq_decide]
  split <;> omega

theorem intToUInt64_uint64ToInt {value : UInt64} (hvalue : value.toNat < 2 ^ 31) :
    intToUInt64 (uint64ToInt value) = value := by
  apply UInt64.toNat_inj.mp
  rw [uint64ToInt, toNat_intToUInt64_toInt32, UInt64.toNat_toUInt32]
  split <;> omega

/-- The time a timer has been started for. -/
def Arming.due (arming : Arming) : Nat :=
  arming.time.toNat + arming.msec.toNat

/-- The expiry that `run` computes. -/
theorem Arming.toNat_expireTime {arming : Arming}
    (htime : arming.time.toNat < 2 ^ 63) (hshort : arming.msec.toNat < 2 ^ 31) :
    (arming.time + intToUInt64 arming.msec.toInt32).toNat = arming.due := by
  rw [UInt64.toNat_add, toNat_intToUInt64_toInt32, if_pos hshort]
  unfold Arming.due
  omega

/-- A timeout computed at the reading `now` and used at the later reading
`clock` ends when the timer is due, unless it is due already. -/
theorem Arming.due_le_waitDeadline {arming : Arming} {now clock expireTime : UInt64}
    (hshort : arming.msec.toNat < 2 ^ 31) (hpast : arming.time ≤ now)
    (hnow : now ≤ clock) (hclock : clock.toNat < 2 ^ 63)
    (hexpire : expireTime.toNat = arming.due) :
    arming.due ≤ clock.toNat ∨
      arming.due ≤
        (waitDeadline clock (uint64ToInt (expireTime - now))).toNat := by
  have hpast := UInt64.le_iff_toNat_le.mp hpast
  have hnow := UInt64.le_iff_toNat_le.mp hnow
  rcases Nat.lt_or_ge clock.toNat arming.due with hearly | hlate
  · right
    have htimeout : (expireTime - now).toNat = arming.due - now.toNat := by
      rw [UInt64.toNat_sub_of_le]
      · rw [hexpire]
      · rw [UInt64.le_iff_toNat_le, hexpire]
        omega
    have hsmall : (expireTime - now).toNat < 2 ^ 31 := by
      rw [htimeout, Arming.due]
      omega
    rw [waitDeadline, intToUInt64_uint64ToInt hsmall, UInt64.toNat_add, htimeout]
    omega
  · exact .inl hlate

namespace TimerThread

/-- What worker `w` has been created for. -/
def arming (s : TimerThread) (w : Nat) : Arming :=
  ⟨(s.started w).2, (s.started w).1.msec⟩

/-- The first handler call of a start is not early, and there is none after
`TIMER_INFINITE`. -/
def NotEarly (s : TimerThread) : Prop :=
  ∀ w now rest, s.calls w = now :: rest → (s.arming w).ExpiredAt now

/-- What is assumed of the clock and of `pthread_cond_timedwait`: the readings
stay below 2^63, and without a signal a wait lasts until its deadline. -/
def Timely (s : TimerThread) : TimerThreadStep → Prop
  | .wake w => ∀ expireTime deadline,
      s.run w = .inWait expireTime deadline → deadline ≤ s.clock
  | .tick now => now.toNat < 2 ^ 63
  | _ => True

end TimerThread

/-- A `start` has an interval that an `int` holds. -/
def TimerThreadStep.IsShort : TimerThreadStep → Prop
  | .start args => args.msec.toNat < 2 ^ 31
  | _ => True

/-- Where a worker can be before its first handler call, when it has been
created for `arming`; `stopped` tells that its caller is joining. -/
def RunPc.Awaits (arming : Arming) (clock : UInt64) (stopped : Prop) :
    RunPc → Prop
  | .atLoop | .atStartTime | .atEnd => True
  | .atInterval startTime => startTime = arming.time
  | .atClock expireTime => expireTime.toNat = arming.due
  | .atSleep expireTime timeoutMs =>
      expireTime.toNat = arming.due ∧
        ∃ now, arming.time ≤ now ∧ now ≤ clock ∧ timeoutMs = expireTime - now
  | .inWait _ deadline =>
      arming.due ≤ clock.toNat ∨ arming.due ≤ deadline.toNat
  | .awake _ | .slept _ => arming.due ≤ clock.toNat ∨ stopped
  | .atHandler _ => arming.due ≤ clock.toNat
  | .inHandler _ | .atRepeat _ | .atStore _ => False

theorem RunPc.Awaits.mono {arming : Arming} {clock later : UInt64}
    {stopped stopped' : Prop} {pc : RunPc}
    (hpc : pc.Awaits arming clock stopped) (hle : clock ≤ later)
    (hstopped : stopped → stopped') : pc.Awaits arming later stopped' := by
  have hnat := UInt64.le_iff_toNat_le.mp hle
  cases pc with
  | atLoop => trivial
  | atStartTime => trivial
  | atEnd => trivial
  | atInterval startTime => exact hpc
  | atClock expireTime => exact hpc
  | atSleep expireTime timeoutMs =>
      obtain ⟨hexpire, now, hpast, hnow, htimeout⟩ := hpc
      exact ⟨hexpire, now, hpast, UInt64.le_trans hnow hle, htimeout⟩
  | inWait expireTime deadline => exact hpc.imp_left (Nat.le_trans · hnat)
  | awake expireTime => exact hpc.imp (Nat.le_trans · hnat) hstopped
  | slept expireTime => exact hpc.imp (Nat.le_trans · hnat) hstopped
  | atHandler expireTime => exact Nat.le_trans hpc hnat
  | inHandler expireTime => exact hpc
  | atRepeat expireTime => exact hpc
  | atStore expireTime => exact hpc

theorem RunPc.Awaits.isInHandler {arming : Arming} {clock : UInt64}
    {stopped : Prop} {pc : RunPc} (hpc : pc.Awaits arming clock stopped) :
    pc.isInHandler = false := by
  cases pc with
  | inHandler expireTime => exact hpc.elim
  | _ => rfl

namespace TimerThread

/-- A worker that has not called the handler yet, and the members it reads. -/
structure Waiting (s : TimerThread) (w : Nat) : Prop where
  short : (s.arming w).msec.toNat < 2 ^ 31
  past : (s.arming w).time ≤ s.clock
  startTime : s.mStartTime = (s.arming w).time
  interval : s.mIntervalMs = (s.arming w).msec.toInt32
  place : (s.run w).Awaits (s.arming w) s.clock (s.task.client ()).InWindow

/-- What a `start` under way has prepared for its worker. -/
def Prepared (s : TimerThread) : Prop :=
  match s.caller with
  | .exitTaskSet (some args) | .inTaskStop (some args)
  | .starting args .setRepeat | .starting args .setStartTime =>
      args.msec.toNat < 2 ^ 31
  | .starting args .setIntervalMs =>
      args.msec.toNat < 2 ^ 31 ∧ s.mStartTime ≤ s.clock
  | .starting args .clearExitTask | .starting args .startTask =>
      args.msec.toNat < 2 ^ 31 ∧ s.mStartTime ≤ s.clock ∧
        s.mIntervalMs = args.msec.toInt32
  | _ => True

/-- The invariant of a timer thread that does not fire early. -/
structure Punctual (s : TimerThread) : Prop where
  clock : s.clock.toNat < 2 ^ 63
  prepared : s.Prepared
  waiting : s.mHandler = true → ∀ w, s.task.worker w = .running →
    s.calls w = [] → s.Waiting w
  notEarly : s.NotEarly

theorem init_punctual (handler : Bool) (startTime : UInt64) {clock : UInt64}
    (hclock : clock.toNat < 2 ^ 63) :
    (init handler startTime clock).Punctual where
  clock := hclock
  prepared := trivial
  waiting _ _ hw := by cases hw
  notEarly _ _ _ hcalls := by cases hcalls

/-! ### Steps of the other threads -/

/-- Worker `w` has been running and goes on undisturbed: a wait of it ends with
a signal of the caller, which is joining, or at its deadline. -/
structure Undisturbed (s t : TimerThread) (w : Nat) : Prop where
  running : s.task.worker w = .running
  started : t.started w = s.started w
  startTime : t.mStartTime = s.mStartTime
  interval : t.mIntervalMs = s.mIntervalMs ∨ (s.run w).isInHandler = true
  clock : s.clock ≤ t.clock
  window : (s.task.client ()).InWindow → (t.task.client ()).InWindow
  place : t.run w = s.run w ∨ ∃ expireTime deadline,
    s.run w = .inWait expireTime deadline ∧ t.run w = .awake expireTime ∧
      ((t.task.client ()).InWindow ∨ deadline ≤ t.clock)

/-- `Task::stop` in the caller wakes a worker only when it is going to join it. -/
theorem undisturbed_taskStop {s t : TimerThread} (hs : s.Inv) {woken : Option Nat}
    (hstep : s.step (.taskStop woken) = some t) {w : Nat}
    (hw : t.task.worker w = .running) : Undisturbed s t w := by
  obtain ⟨next, hcaller, hspan⟩ := taskStop_cases hstep
  have hidle := hs.idle_of_exitTaskSet hcaller
  have hout {P : Prop} (hjoining : (s.task.client ()).InWindow) : P := by
    rw [hidle] at hjoining
    exact hjoining.elim
  obtain ⟨task, run, -, hworker, -, hwakes, hcases⟩ := hs.taskStop_cases hcaller hspan
  rcases hcases with ⟨rfl, rfl, -, -⟩ | ⟨rfl, hclient, -⟩
  · exact ⟨hworker ▸ hw, rfl, rfl, .inl rfl, UInt64.le_refl _, hout, .inl rfl⟩
  · have hwindow : (task.client ()).InWindow := by
      rw [hclient]
      trivial
    refine ⟨hworker ▸ hw, rfl, rfl, .inl rfl, UInt64.le_refl _, hout, ?_⟩
    rcases hwakes w with hsame | ⟨expireTime, deadline, hwait, hawake⟩
    · exact .inl hsame
    · exact .inr ⟨expireTime, deadline, hwait, hawake, .inl hwindow⟩

/-- A worker that is running after a step of `start` has been created by it. -/
theorem created_of_startNext {s t : TimerThread} (hs : s.Inv)
    (hstep : s.step .startNext = some t) {w : Nat} (hw : t.task.worker w = .running) :
    ∃ args, s.caller = .starting args .startTask ∧ w = s.task.created ∧
      t = s.startNext args .startTask := by
  obtain ⟨args, pc, hcaller, rfl⟩ := startNext_cases hstep
  have hat := hs.caller
  unfold CallerAt at hat
  rw [hcaller] at hat
  have hnone := hs.not_running hat.2.1 w
  cases pc with
  | startTask =>
      refine ⟨args, hcaller, ?_, rfl⟩
      by_contra hold
      have hstart : s.task.start () = s.task.create := by
        simp [Task.start, hat.2.1]
      simp [TimerThread.startNext, hstart, Task.create, hold, hnone] at hw
  | _ => exact absurd hw hnone

/-- A step of another thread leaves a worker that is running undisturbed, or
creates it. -/
theorem step_running {s t : TimerThread} (hs : s.Inv) {action : TimerThreadStep}
    (hstep : s.step action = some t)
    (hwake : ∀ v expireTime deadline, action = .wake v →
      s.run v = .inWait expireTime deadline → deadline ≤ s.clock)
    {w : Nat} (hw : t.task.worker w = .running) (hne : action ≠ .worker w) :
    Undisturbed s t w ∨ ∃ args, s.caller = .starting args .startTask ∧
      w = s.task.created ∧ t = s.startNext args .startTask := by
  cases action with
  | start args =>
      obtain ⟨-, -, rfl⟩ := start_cases hstep
      exact .inl ⟨hw, rfl, rfl, .inl rfl, UInt64.le_refl _, id, .inl rfl⟩
  | stop =>
      obtain ⟨-, -, rfl⟩ := stopCall_cases hstep
      exact .inl ⟨hw, rfl, rfl, .inl rfl, UInt64.le_refl _, id, .inl rfl⟩
  | taskStop woken => exact .inl (undisturbed_taskStop hs hstep hw)
  | client step woken =>
      have hnext := hs.clientStep hstep
      obtain ⟨next, task, hcaller, -, hgoes, rfl⟩ := hs.clientStep_cases hstep
      refine .inl ⟨hgoes.worker ▸ hw, rfl, rfl, .inl rfl, UInt64.le_refl _,
        fun _ => ?_, .inl rfl⟩
      rcases hgoes.client with hpc | ⟨-, hinit⟩
      · exact hpc.inWindow
      · exact absurd hw (hnext.not_running hinit w)
  | startNext => exact .inr (created_of_startNext hs hstep hw)
  | createFails =>
      obtain ⟨-, -, rfl⟩ := createFails_cases hstep
      exact .inl ⟨hw, rfl, rfl, .inl rfl, UInt64.le_refl _, id, .inl rfl⟩
  | worker v =>
      have hwv : w ≠ v := fun h => hne (h ▸ rfl)
      rw [(workerStep_members hstep).1.1] at hw
      exact absurd (hs.one_running hw (running_of_workerStep hstep)) hwv
  | wake v =>
      obtain ⟨expireTime, deadline, hpc, rfl⟩ := wake_cases hstep
      refine .inl ⟨hw, rfl, rfl, .inl rfl, UInt64.le_refl _, id, ?_⟩
      rcases setRun_wakes hpc w with hsame | ⟨_, _, hwait, hawake⟩
      · exact .inl hsame
      · by_cases hwv : w = v
        · subst w
          exact .inr ⟨_, _, hwait, hawake, .inr (hwake v _ _ rfl hwait)⟩
        · exact .inl (Function.update_of_ne hwv _ _)
  | leave step =>
      obtain ⟨task, rfl, hclient, hrunning⟩ := leaveStep_running hstep
      refine .inl ⟨hrunning w hw, rfl, rfl, .inl rfl, UInt64.le_refl _, ?_,
        .inl rfl⟩
      rw [hclient]
      exact id
  | setInterval v msec =>
      obtain ⟨⟨hv, hin⟩, rfl⟩ := setInterval_cases hstep
      obtain rfl := hs.one_running hw hv
      exact .inl ⟨hw, rfl, rfl, .inr hin, UInt64.le_refl _, id, .inl rfl⟩
  | tick now =>
      obtain ⟨hle, rfl⟩ := tick_cases hstep
      exact .inl ⟨hw, rfl, rfl, .inl rfl, hle, id, .inl rfl⟩

theorem Prepared.afterStop {s t : TimerThread} {next : Option StartArgs}
    (hs : s.Prepared)
    (hcaller : s.caller = .exitTaskSet next ∨ s.caller = .inTaskStop next)
    (hnext : t.caller = afterStop next ∨ t.caller = .inTaskStop next) :
    t.Prepared := by
  unfold Prepared at hs ⊢
  cases next with
  | none => rcases hnext with h | h <;> rw [h] <;> trivial
  | some args =>
      have hshort : args.msec.toNat < 2 ^ 31 := by
        rcases hcaller with h | h <;> rw [h] at hs <;> exact hs
      rcases hnext with h | h <;> rw [h] <;> exact hshort

/-- While a worker is running, the caller has not come to the assignments of a
`start`. -/
theorem Prepared.of_running {s t : TimerThread} (hs : s.Prepared) (hinv : s.Inv)
    {w : Nat} (hw : s.task.worker w = .running) (hcaller : t.caller = s.caller) :
    t.Prepared := by
  have hat := hinv.caller
  unfold CallerAt at hat
  unfold Prepared at hs ⊢
  rw [hcaller]
  cases hplace : s.caller with
  | idle stopped => trivial
  | inTaskStart => trivial
  | exitTaskSet next =>
      rw [hplace] at hs
      cases next with
      | none => trivial
      | some args => exact hs
  | inTaskStop next =>
      rw [hplace] at hs
      cases next with
      | none => trivial
      | some args => exact hs
  | starting args pc =>
      rw [hplace] at hat
      exact absurd hw (hinv.not_running hat.2.1 w)

/-- A `start` prepares what its worker reads. -/
theorem Prepared.step {s t : TimerThread} (hs : s.Prepared) (hinv : s.Inv)
    {action : TimerThreadStep} (hshort : action.IsShort)
    (hstep : s.step action = some t) : t.Prepared := by
  cases action with
  | start args =>
      obtain ⟨-, -, rfl⟩ := start_cases hstep
      exact hshort
  | stop =>
      obtain ⟨-, -, rfl⟩ := stopCall_cases hstep
      trivial
  | taskStop woken =>
      obtain ⟨next, hcaller, hspan⟩ := taskStop_cases hstep
      obtain ⟨task, run, -, -, -, -, hcases⟩ :=
        hinv.taskStop_cases hcaller hspan
      rcases hcases with ⟨rfl, -, -, -⟩ | ⟨rfl, -, -⟩
      · exact hs.afterStop (.inl hcaller) (.inl rfl)
      · exact hs.afterStop (.inl hcaller) (.inr rfl)
  | client step woken =>
      obtain ⟨next, task, hcaller, -, -, rfl⟩ := hinv.clientStep_cases hstep
      apply hs.afterStop (.inr hcaller)
      by_cases hidle : task.client () = .idle
      · exact .inl (if_pos hidle)
      · exact .inr ((if_neg hidle).trans hcaller)
  | startNext =>
      obtain ⟨args, pc, hcaller, rfl⟩ := startNext_cases hstep
      unfold Prepared at hs
      rw [hcaller] at hs
      cases pc with
      | setRepeat => exact hs
      | setStartTime => exact ⟨hs, UInt64.le_refl _⟩
      | setIntervalMs => exact ⟨hs.1, hs.2, rfl⟩
      | clearExitTask => exact hs
      | startTask =>
          simp only [Prepared, TimerThread.startNext]
          by_cases hidle : (s.task.start ()).client () = .idle
          · rw [if_pos hidle]
            trivial
          · rw [if_neg hidle]
            trivial
  | createFails =>
      obtain ⟨-, -, rfl⟩ := createFails_cases hstep
      trivial
  | worker w =>
      exact hs.of_running hinv (running_of_workerStep hstep)
        (workerStep_frame hstep).1
  | wake w =>
      obtain ⟨expireTime, deadline, hpc, rfl⟩ := wake_cases hstep
      exact hs.of_running hinv (hinv.running_of_isInWait (w := w) (by
        rw [hpc]
        rfl)) rfl
  | leave step =>
      obtain ⟨-, -, rfl⟩ := leaveStep_eq hstep
      exact hs
  | setInterval w msec =>
      obtain ⟨⟨hw, -⟩, rfl⟩ := setInterval_cases hstep
      exact hs.of_running hinv hw rfl
  | tick now =>
      obtain ⟨hle, rfl⟩ := tick_cases hstep
      unfold Prepared at hs ⊢
      split at hs
      all_goals rename_i hcaller; simp only [hcaller]
      · exact hs
      · exact hs
      · exact hs
      · exact hs
      · exact ⟨hs.1, UInt64.le_trans hs.2 hle⟩
      · exact ⟨hs.1, UInt64.le_trans hs.2.1 hle, hs.2.2⟩
      · exact ⟨hs.1, UInt64.le_trans hs.2.1 hle, hs.2.2⟩

theorem Waiting.undisturbed {s t : TimerThread} {w : Nat} (hs : s.Waiting w)
    (hsame : s.Undisturbed t w) : t.Waiting w := by
  have harming : t.arming w = s.arming w := by
    simp only [arming, hsame.started]
  have hkept : (s.run w).Awaits (s.arming w) t.clock
      (t.task.client ()).InWindow :=
    hs.place.mono hsame.clock hsame.window
  have hinterval : t.mIntervalMs = s.mIntervalMs := by
    apply hsame.interval.resolve_right
    rw [hs.place.isInHandler]
    exact Bool.false_ne_true
  refine ⟨?_, ?_, ?_, ?_, ?_⟩
  · rw [harming]
    exact hs.short
  · rw [harming]
    exact UInt64.le_trans hs.past hsame.clock
  · rw [harming, hsame.startTime]
    exact hs.startTime
  · rw [harming, hinterval]
    exact hs.interval
  · rw [harming]
    rcases hsame.place with h | ⟨expireTime, deadline, hwait, hawake, hover⟩
    · rw [h]
      exact hkept
    · rw [hwait] at hkept
      rw [hawake]
      rcases hover with hjoining | hdeadline
      · exact .inr hjoining
      · have hreached := UInt64.le_iff_toNat_le.mp hdeadline
        exact .inl (hkept.elim id (Nat.le_trans · hreached))

/-- A worker that has been created finds what the `start` has prepared. -/
theorem Waiting.created {s : TimerThread} (hs : s.Prepared) (hinv : s.Inv)
    {args : StartArgs} (hcaller : s.caller = .starting args .startTask) :
    (s.startNext args .startTask).Waiting s.task.created := by
  unfold Prepared at hs
  rw [hcaller] at hs
  obtain ⟨hshort, hpast, hinterval⟩ := hs
  have hnew := hinv.fresh s.task.created (Nat.le_refl _)
  have hcreated : (s.startNext args .startTask).arming s.task.created =
      ⟨s.mStartTime, args.msec⟩ := by
    simp [arming, TimerThread.startNext]
  refine ⟨hcreated ▸ hshort, hcreated ▸ hpast, ?_, ?_, ?_⟩
  · rw [hcreated]
    rfl
  · rw [hcreated]
    exact hinterval
  · change (s.run s.task.created).Awaits _ _ _
    rw [hnew.1]
    trivial

/-- A step that is not a worker's. -/
theorem Punctual.other {s t : TimerThread} (hs : s.Punctual) (hinv : s.Inv)
    {action : TimerThreadStep} (htimely : s.Timely action)
    (hshort : action.IsShort) (hne : ∀ w, action ≠ .worker w)
    (hstep : s.step action = some t) : t.Punctual := by
  have hwake (v : Nat) (expireTime deadline : UInt64) (hv : action = .wake v)
      (hwait : s.run v = .inWait expireTime deadline) :
      deadline ≤ s.clock := by
    subst hv
    exact htimely expireTime deadline hwait
  obtain ⟨hhandler, htick⟩ := step_mHandler_clock hstep
  refine ⟨?_, hs.prepared.step hinv hshort hstep, fun hset w hw hnone => ?_,
    fun w now rest hcall => ?_⟩
  · rcases htick with hsame | rfl
    · rw [hsame]
      exact hs.clock
    · exact htimely
  · have hcalls := (step_other hstep (hne w)).1
    rcases step_running hinv hstep hwake hw (hne w) with
      hsame | ⟨args, hcaller, rfl, rfl⟩
    · exact (hs.waiting (hhandler ▸ hset) w hsame.running
        (hcalls ▸ hnone)).undisturbed hsame
    · exact Waiting.created hs.prepared hinv hcaller
  · obtain ⟨hcalls, -, hstarted⟩ := step_other hstep (hne w)
    have hold : s.calls w = now :: rest := hcalls ▸ hcall
    rcases hstarted with hsame | rfl
    · rw [arming, hsame]
      exact hs.notEarly w now rest hold
    · rw [(hinv.fresh _ (Nat.le_refl _)).2] at hold
      cases hold

/-! ### Steps of the workers -/

/-- A worker in `run` moves on without a handler call. -/
theorem Punctual.setRun {s : TimerThread} (hs : s.Punctual) {w : Nat}
    {pc : RunPc}
    (hplace : s.mHandler = true → s.calls w = [] → s.Waiting w →
      pc.Awaits (s.arming w) s.clock (s.task.client ()).InWindow) :
    (s.setRun w pc).Punctual where
  clock := hs.clock
  prepared := hs.prepared
  waiting hset v hv hnone := by
    have hold := hs.waiting hset v hv hnone
    refine ⟨hold.short, hold.past, hold.startTime, hold.interval, ?_⟩
    change (Function.update s.run w pc v).Awaits (s.arming v) s.clock _
    by_cases hvw : v = w
    · subst v
      rw [Function.update_self]
      exact hplace hset hnone hold
    · rw [Function.update_of_ne hvw]
      exact hold.place
  notEarly := hs.notEarly

/-- A worker moves on from `old` without a handler call. -/
theorem Punctual.setRun_from {s : TimerThread} (hs : s.Punctual) {w : Nat}
    {old pc : RunPc} (hpc : s.run w = old)
    (hplace : s.Waiting w →
      old.Awaits (s.arming w) s.clock (s.task.client ()).InWindow →
      pc.Awaits (s.arming w) s.clock (s.task.client ()).InWindow) :
    (s.setRun w pc).Punctual :=
  hs.setRun fun _ _ hwaiting => hplace hwaiting (hpc ▸ hwaiting.place)

/-- The time at which the last call was due is stored.  The worker is the only
one that runs, so no call to come depends on it. -/
theorem Punctual.store {s : TimerThread} (hs : s.Punctual) (hinv : s.Inv)
    {w : Nat} (hw : s.task.worker w = .running) {expireTime : UInt64}
    (hpc : s.run w = .atStore expireTime) :
    Punctual { s.setRun w .atLoop with mStartTime := expireTime } where
  clock := hs.clock
  prepared := hs.prepared.of_running hinv hw rfl
  waiting hset v hv hnone := by
    obtain rfl := hinv.one_running hv hw
    have hplace := (hs.waiting hset v hw hnone).place
    rw [hpc] at hplace
    exact hplace.elim
  notEarly := hs.notEarly

/-- A handler is called when the timer is due. -/
theorem Punctual.callHandler {s : TimerThread} (hs : s.Punctual) {w : Nat}
    (hw : s.task.worker w = .running) (hset : s.mHandler = true)
    {expireTime : UInt64} (hpc : s.run w = .atHandler expireTime) :
    Punctual { s.setRun w (.inHandler expireTime) with
      calls := Function.update s.calls w (s.calls w ++ [s.clock]) } where
  clock := hs.clock
  prepared := hs.prepared
  waiting _ v hv hnone := by
    by_cases hvw : v = w
    · simp [hvw] at hnone
    · have hold := hs.waiting hset v hv (by simpa [hvw] using hnone)
      refine ⟨hold.short, hold.past, hold.startTime, hold.interval, ?_⟩
      change (Function.update s.run w _ v).Awaits (s.arming v) s.clock _
      rw [Function.update_of_ne hvw]
      exact hold.place
  notEarly v now rest hcall := by
    change Function.update s.calls w (s.calls w ++ [s.clock]) v = now :: rest
      at hcall
    by_cases hvw : v = w
    · subst v
      rw [Function.update_self] at hcall
      cases hcalls : s.calls w with
      | cons first later =>
          rw [hcalls] at hcall
          obtain rfl := (List.cons.inj hcall).1
          exact hs.notEarly w first later hcalls
      | nil =>
          rw [hcalls] at hcall
          obtain rfl := (List.cons.inj hcall).1
          have hwaiting := hs.waiting hset w hw hcalls
          have hdue := hwaiting.place
          rw [hpc] at hdue
          refine ⟨fun hinfinite => ?_, hdue⟩
          have hshort := hwaiting.short
          rw [show (s.arming w).msec = TIMER_INFINITE from hinfinite] at hshort
          exact absurd hshort (by decide)
    · rw [Function.update_of_ne hvw] at hcall
      exact hs.notEarly v now rest hcall

theorem Punctual.workerStep {s t : TimerThread} (hs : s.Punctual) (hinv : s.Inv)
    {w : Nat} (hstep : s.workerStep w = some t) : t.Punctual := by
  obtain ⟨hw, hmove⟩ := workerStep_move hstep
  generalize hpc : s.run w = pc at hmove
  cases hmove with
  | loop =>
      apply hs.setRun_from hpc
      intro _ _
      split <;> trivial
  | startTime => exact hs.setRun_from hpc fun hwaiting _ => hwaiting.startTime
  | interval startTime =>
      apply hs.setRun_from hpc
      intro hwaiting hplace
      obtain rfl : startTime = (s.arming w).time := hplace
      have hpast := UInt64.le_iff_toNat_le.mp hwaiting.past
      rw [hwaiting.interval]
      exact Arming.toNat_expireTime (Nat.lt_of_le_of_lt hpast hs.clock)
        hwaiting.short
  | clock expireTime =>
      apply hs.setRun_from hpc
      intro hwaiting hplace
      exact ⟨hplace, s.clock, hwaiting.past, UInt64.le_refl _, rfl⟩
  | sleepStopping expireTime timeoutMs hstopping =>
      apply hs.setRun_from hpc
      intro _ _
      obtain ⟨stage, htask⟩ := hinv.task
      exact .inr (inWindow_of_stopping htask hstopping)
  | wait expireTime timeoutMs hstopping hself =>
      apply hs.setRun_from hpc
      intro hwaiting hplace
      obtain ⟨hexpire, now, hpast, hnow, rfl⟩ := hplace
      exact Arming.due_le_waitDeadline hwaiting.short hpast hnow hs.clock hexpire
  | usleep expireTime timeoutMs hstopping hother =>
      exact absurd (hinv.mId_of_running hw) hother
  | awake expireTime => exact hs.setRun_from hpc fun _ hplace => hplace
  | sleptStopping expireTime hstopping =>
      exact hs.setRun_from hpc fun _ _ => trivial
  | slept expireTime hstopping =>
      apply hs.setRun_from hpc
      intro _ hplace
      apply hplace.resolve_right
      intro hjoining
      exact hstopping (hinv.stopping_of_inWindow hw hjoining)
  | callHandler expireTime hset => exact hs.callHandler hw hset hpc
  | noHandler expireTime hset =>
      apply hs.setRun
      exact fun hhandler => absurd hhandler hset
  | handlerReturns expireTime =>
      exact hs.setRun_from hpc fun _ hplace => hplace.elim
  | repeats expireTime => exact hs.setRun_from hpc fun _ hplace => hplace.elim
  | store expireTime => exact hs.store hinv hw hpc

/-! ### Runs -/

/-- A step in time keeps the invariant. -/
theorem step_punctual (s : TimerThread) (action : TimerThreadStep)
    (t : TimerThread) (hs : s.Inv ∧ s.Punctual)
    (hguard : s.Timely action ∧ action.IsShort)
    (hstep : s.step action = some t) : t.Inv ∧ t.Punctual := by
  obtain ⟨hinv, hs⟩ := hs
  refine ⟨step_inv s action t hinv hstep, ?_⟩
  cases action with
  | worker w => exact hs.workerStep hinv hstep
  | _ => exact hs.other hinv hguard.1 hguard.2 (by simp) hstep

/-- In every run with intervals below 2^31 the first handler call of a start is
not early. -/
theorem run_notEarly (handler : Bool) (startTime clock : UInt64)
    (steps : List TimerThreadStep) (s : TimerThread)
    (hclock : clock.toNat < 2 ^ 63) (hshort : ∀ action ∈ steps, action.IsShort)
    (htimely : LabelledRun.EachStep step Timely (init handler startTime clock)
      steps)
    (hrun : LabelledRun.run step (init handler startTime clock) steps = some s) :
    s.NotEarly := by
  have hs := LabelledRun.run_invariant_of_eachStep step_punctual
    ⟨init_inv handler startTime clock,
      init_punctual handler startTime hclock⟩ (htimely.and_mem hshort) hrun
  exact hs.2.notEarly

/-- A timer thread is started, and its worker comes to the handler without a
delay. -/
def startedAndCalled (args : StartArgs) : List TimerThreadStep :=
  [.start args, .taskStop none, .startNext, .startNext, .startNext, .startNext,
    .startNext, .worker 0, .worker 0, .worker 0, .worker 0, .worker 0, .wake 0,
    .worker 0, .worker 0, .worker 0]

/-- A longer interval has its worker wait for a deadline that is over. -/
theorem waitDeadline_of_long {msec : UInt32} (hlong : 2 ^ 31 ≤ msec.toNat) :
    waitDeadline 2147483648 (uint64ToInt
      (2147483648 + intToUInt64 msec.toInt32 - 2147483648)) ≤ 2147483648 := by
  have hmsec := msec.toNat_lt
  rw [UInt64.add_comm, UInt64.add_sub_cancel, uint64ToInt_intToUInt64,
    waitDeadline,
    UInt64.le_iff_toNat_le, UInt64.toNat_add, toNat_intToUInt64_toInt32,
    if_neg (Nat.not_lt.mpr hlong)]
  simp only [UInt64.reduceToNat]
  omega

open LabelledRun in
/-- Its wait has to be over when it begins. -/
theorem startedAndCalled_timely {args : StartArgs} {clock : UInt64}
    (hover : waitDeadline clock (uint64ToInt
      (clock + intToUInt64 args.msec.toInt32 - clock)) ≤ clock) :
    EachStep step Timely (init true 0 clock) (startedAndCalled args) := by
  refine eachStep_cons rfl trivial <| eachStep_cons rfl trivial <|
    eachStep_cons rfl trivial <| eachStep_cons rfl trivial <|
    eachStep_cons rfl trivial <| eachStep_cons rfl trivial <|
    eachStep_cons rfl trivial <| eachStep_cons rfl trivial <|
    eachStep_cons rfl trivial <| eachStep_cons rfl trivial <|
    eachStep_cons rfl trivial <| eachStep_cons rfl trivial <|
    eachStep_cons rfl ?_ <| eachStep_cons rfl trivial <|
    eachStep_cons rfl trivial <| eachStep_cons rfl trivial trivial
  intro expireTime deadline hwait
  cases hwait
  exact hover

open LabelledRun in
theorem startedAndCalled_early {args : StartArgs}
    (hlong : 2 ^ 31 ≤ args.msec.toNat) :
    EachStep step Timely (init true 0 2147483648) (startedAndCalled args) ∧
      ∃ s, LabelledRun.run step (init true 0 2147483648)
          (startedAndCalled args) = some s ∧ ¬ s.NotEarly := by
  constructor
  · exact startedAndCalled_timely (waitDeadline_of_long hlong)
  · refine ⟨_, rfl, fun hnot => ?_⟩
    obtain ⟨-, hdue⟩ := hnot 0 2147483648 [] rfl
    have hfirst : (2147483648 : UInt64).toNat + args.msec.toNat ≤
        (2147483648 : UInt64).toNat := hdue
    simp only [UInt64.reduceToNat] at hfirst
    omega

end TimerThread

/-- Neither of the two timers fires early, as long as each run meets its
conditions: for a timer of the event loop those of `TopStep.InTime`, for a timer
thread that its intervals are below 2^31.  A longer interval has a timer thread
fire early. -/
theorem timers_notEarly {I : Type u} [DecidableEq I] :
    (∀ (handler : I → Bool) (expiry : I → UInt64) (steps : List (TopStep I)),
      LabelledRun.EachStep ArmedTimers.step (fun s action => action.InTime s)
          (.init handler expiry) steps →
        LabelledRun.EachStep ArmedTimers.step
          (fun s action => action.NotEarly s) (.init handler expiry) steps) ∧
    (∀ (handler : Bool) (startTime clock : UInt64)
        (steps : List TimerThreadStep) (s : TimerThread),
      clock.toNat < 2 ^ 63 → (∀ action ∈ steps, action.IsShort) →
        LabelledRun.EachStep TimerThread.step TimerThread.Timely
          (.init handler startTime clock) steps →
        LabelledRun.run TimerThread.step (.init handler startTime clock)
          steps = some s →
        s.NotEarly) ∧
    ∀ args : StartArgs, 2 ^ 31 ≤ args.msec.toNat →
      ∃ clock steps s, clock.toNat < 2 ^ 63 ∧ .start args ∈ steps ∧
        LabelledRun.EachStep TimerThread.step TimerThread.Timely
          (.init true 0 clock) steps ∧
        LabelledRun.run TimerThread.step (.init true 0 clock) steps = some s ∧
        ¬ s.NotEarly := by
  refine ⟨fun _ _ _ => ArmedTimers.eachStep_notEarly,
    TimerThread.run_notEarly, fun args hlong => ?_⟩
  obtain ⟨htimely, s, hrun, hearly⟩ := TimerThread.startedAndCalled_early hlong
  exact ⟨2147483648, TimerThread.startedAndCalled args, s, by decide,
    List.mem_cons_self, htimely, hrun, hearly⟩

/-- A timer started for 100, and a round of the event loop at 100. -/
def dueAfterHundred : List (TopStep Nat) :=
  [.call (.start 0 100 false 0), .runTimers 100 []]

/-- A timer thread started for 100 at 0, and its handler called at 100. -/
def calledAfterHundred : List TimerThreadStep :=
  [.start ⟨100, false⟩, .taskStop none, .startNext, .startNext, .startNext,
    .startNext, .startNext, .worker 0, .worker 0, .worker 0, .worker 0,
    .worker 0, .tick 100, .wake 0, .worker 0, .worker 0, .worker 0]

open LabelledRun in
theorem timers_notEarly_afterHundred :
    EachStep ArmedTimers.step (fun s action => action.NotEarly s)
        (.init (fun _ => true) fun _ => 0) dueAfterHundred ∧
      (∃ s, run TimerThread.step (.init true 0 0) calledAfterHundred = some s ∧
        s.calls 0 = [100] ∧ s.NotEarly) ∧
      ∃ clock steps s, clock.toNat < 2 ^ 63 ∧
        TimerThreadStep.start ⟨TIMER_INFINITE, false⟩ ∈ steps ∧
        EachStep TimerThread.step TimerThread.Timely (.init true 0 clock) steps ∧
        run TimerThread.step (.init true 0 clock) steps = some s ∧
        ¬ s.NotEarly := by
  have hreading : (100 : UInt64).toNat < 2 ^ 63 := by decide
  refine ⟨timers_notEarly.1 _ _ _ ?_, ⟨_, rfl, rfl,
    (timers_notEarly (I := Nat)).2.1 true 0 0 calledAfterHundred _ (by decide)
      ?_ ?_ rfl⟩, (timers_notEarly (I := Nat)).2.2 _ (by decide)⟩
  · refine eachStep_cons rfl ⟨by decide, fun hrunning => ?_⟩ <|
      eachStep_cons rfl ⟨by decide, fun id hdue => ?_⟩ trivial
    · exact absurd hrunning (by decide)
    · obtain rfl : 0 = id := Option.some.inj hdue
      exact ⟨fun _ => trivial, fun hrepeat => absurd hrepeat (by decide)⟩
  · simp [calledAfterHundred, TimerThreadStep.IsShort]
  · refine eachStep_cons rfl trivial <| eachStep_cons rfl trivial <|
      eachStep_cons rfl trivial <| eachStep_cons rfl trivial <|
      eachStep_cons rfl trivial <| eachStep_cons rfl trivial <|
      eachStep_cons rfl trivial <| eachStep_cons rfl trivial <|
      eachStep_cons rfl trivial <| eachStep_cons rfl trivial <|
      eachStep_cons rfl trivial <| eachStep_cons rfl trivial <|
      eachStep_cons rfl hreading <| eachStep_cons rfl ?_ <|
      eachStep_cons rfl trivial <| eachStep_cons rfl trivial <|
      eachStep_cons rfl trivial trivial
    intro expireTime deadline hwait
    cases hwait
    decide

open LabelledRun in
/-- A timer thread started for `TIMER_INFINITE` calls its handler at once. -/
theorem infiniteStart_early :
    EachStep TimerThread.step TimerThread.Timely (.init true 0 1000)
        (TimerThread.startedAndCalled ⟨TIMER_INFINITE, false⟩) ∧
      ∃ s, run TimerThread.step (.init true 0 1000)
          (TimerThread.startedAndCalled ⟨TIMER_INFINITE, false⟩) = some s ∧
        s.calls 0 = [1000] ∧ ¬ s.NotEarly := by
  constructor
  · exact TimerThread.startedAndCalled_timely (by decide)
  · exact ⟨_, rfl, rfl, fun hnot => (hnot 0 1000 [] rfl).1 rfl⟩

end MyDirectFB

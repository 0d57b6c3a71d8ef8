/-
The deadlines of the timed waits of the byte buffer (utils/byte_buffer.cpp).  The
microseconds of the clock and the milliseconds of the timeout are added up before a
single carry, which is not made where they come to one second exactly.
-/
import MyDirectFB.ByteBuffer
import MyDirectFB.Lib.LabelledRun

namespace MyDirectFB

universe u

/-- A reading of the clock. -/
def Timeval.IsReading (now : Timeval) : Prop :=
  0 ≤ now.tv_usec ∧ now.tv_usec < 1000000

instance (now : Timeval) : Decidable now.IsReading :=
  inferInstanceAs (Decidable (_ ∧ _))

/-- A target that `pthread_cond_timedwait` does not refuse with `EINVAL`. -/
def WaitTarget.Normalised (target : WaitTarget) : Prop :=
  0 ≤ target.tv_nsec ∧ target.tv_nsec < 1000000000

instance (target : WaitTarget) : Decidable target.Normalised :=
  inferInstanceAs (Decidable (_ ∧ _))

def Timeval.nanoseconds (now : Timeval) : Int :=
  now.tv_sec * 1000000000 + now.tv_usec * 1000

def WaitTarget.nanoseconds (target : WaitTarget) : Int :=
  target.tv_sec * 1000000000 + target.tv_nsec

/-- The target is normalised, and is the time of `timeout` milliseconds behind the
reading. -/
structure WaitTarget.IsDeadline (target : WaitTarget) (now : Timeval)
    (timeout : Int) : Prop where
  normalised : target.Normalised
  denotes : target.nanoseconds = now.nanoseconds + timeout * 1000000

/-- The parts of a second in the reading and in the timeout come to one second. -/
def FillsSecond (now : Timeval) (timeout : Int) : Prop :=
  now.tv_usec + timeout % 1000 * 1000 = 1000000

/-- What a call gives `pthread_cond_timedwait`. -/
inductive ByteBuffer.TimedWait (b : ByteBuffer) (timeout : Int) (now : Timeval)
    (target : WaitTarget) : Prop
  | write (data : List UInt8)
      (hwait : b.write data timeout now = .waiting (some target))
  | read (len : Int) (hwait : b.read len timeout now = .waiting (some target))

/-! ### The target -/

section

variable {b : ByteBuffer} {now : Timeval} {timeout : Int} {target : WaitTarget}

/-- The carry moves a second and loses nothing, whatever the reading. -/
theorem nanoseconds_waitTarget (now : Timeval) (timeout : Int) :
    (waitTarget now timeout).nanoseconds =
      now.nanoseconds + timeout * 1000000 := by
  have hsplit := Int.tmod_add_mul_tdiv timeout 1000
  simp only [waitTarget]
  split
  · simp only [WaitTarget.nanoseconds, Timeval.nanoseconds]
    omega
  · simp only [WaitTarget.nanoseconds, Timeval.nanoseconds]
    omega

/-- The carry is missed exactly if there is one second and nothing more. -/
theorem normalised_waitTarget_iff (hclock : now.IsReading) (htimeout : 1 ≤ timeout) :
    (waitTarget now timeout).Normalised ↔ ¬ FillsSecond now timeout := by
  obtain ⟨hnonneg, hlt⟩ := hclock
  have hrest := Int.tmod_eq_emod_of_nonneg (show 0 ≤ timeout by omega) (b := 1000)
  simp only [waitTarget, hrest]
  split
  · simp only [WaitTarget.Normalised, FillsSecond]
    omega
  · simp only [WaitTarget.Normalised, FillsSecond]
    omega

/-- Only a timeout that is neither 0 nor -1 gives a target. -/
theorem ByteBuffer.enterWait_target
    (hwait : b.enterWait timeout now = .waiting (some target)) :
    (timeout ≠ 0 ∧ timeout ≠ -1) ∧ target = waitTarget now timeout := by
  unfold ByteBuffer.enterWait at hwait
  split at hwait
  · cases hwait
  · next hzero =>
      split at hwait
      · cases hwait
      · next hforever =>
          cases hwait
          exact ⟨⟨hzero, hforever⟩, rfl⟩

/-- Both calls compute their target in the same way. -/
theorem ByteBuffer.TimedWait.target_eq (hwait : b.TimedWait timeout now target) :
    (timeout ≠ 0 ∧ timeout ≠ -1) ∧ target = waitTarget now timeout := by
  cases hwait with
  | write data hwait =>
      unfold ByteBuffer.write at hwait
      split at hwait
      · cases hwait
      · split at hwait
        · exact ByteBuffer.enterWait_target hwait
        · cases hwait
  | read len hwait =>
      unfold ByteBuffer.read at hwait
      split at hwait
      · cases hwait
      · split at hwait
        · exact ByteBuffer.enterWait_target hwait
        · cases hwait

end

/-- The target of a timed write or read is normalised, and is the reading of the clock
with the timeout added, exactly if their parts of a second do not come to one second. -/
theorem timedWait_isDeadline_iff (b : ByteBuffer) (now : Timeval) (timeout : Int)
    (target : WaitTarget) (hclock : now.IsReading) (htimeout : 1 ≤ timeout)
    (hwait : b.TimedWait timeout now target) :
    target.IsDeadline now timeout ↔ ¬ FillsSecond now timeout := by
  obtain ⟨-, rfl⟩ := hwait.target_eq
  rw [← normalised_waitTarget_iff hclock htimeout]
  exact ⟨fun hdeadline => hdeadline.normalised,
    fun hnormalised => ⟨hnormalised, nanoseconds_waitTarget now timeout⟩⟩

/-- A buffer of one byte that is full. -/
def oneByteFull : ByteBuffer := ⟨false, 1, 1, 0, 1, [7]⟩

/-- Half a second and 499 milliseconds are less than one second. -/
theorem timedWait_isDeadline_halfSecond :
    (⟨0, 999000000⟩ : WaitTarget).IsDeadline ⟨0, 500000⟩ 499 ↔
      ¬ FillsSecond ⟨0, 500000⟩ 499 :=
  timedWait_isDeadline_iff oneByteFull ⟨0, 500000⟩ 499 _ (by decide) (by decide)
    (.write [1] rfl)

/-- At half a second a timeout of 500 milliseconds gives a target with 1000000000
nanoseconds, for a write to the full buffer and for a read. -/
theorem halfSecond_not_deadline :
    ¬ (∀ target, oneByteFull.write [1] 500 ⟨0, 500000⟩ = .waiting (some target) →
        target.IsDeadline ⟨0, 500000⟩ 500) ∧
      ¬ (∀ target, oneByteFull.read 1 500 ⟨0, 500000⟩ = .waiting (some target) →
        target.IsDeadline ⟨0, 500000⟩ 500) := by
  constructor
  · intro hall
    exact absurd (hall ⟨0, 1000000000⟩ rfl).normalised.2 (by decide)
  · intro hall
    exact absurd (hall ⟨0, 1000000000⟩ rfl).normalised.2 (by decide)

/-! ### Waiting threads -/

/-- A timeout that may be given at this reading: 0 and -1 stand for no target, and no
other timeout is negative. -/
def Punctual (now : Timeval) (timeout : Int) : Prop :=
  -1 ≤ timeout ∧ now.IsReading ∧ (1 ≤ timeout → ¬ FillsSecond now timeout)

theorem Punctual.normalised {b : ByteBuffer} {now : Timeval} {timeout : Int}
    {target : WaitTarget} (hpunctual : Punctual now timeout)
    (hwait : b.TimedWait timeout now target) : target.Normalised := by
  obtain ⟨hleast, hclock, hsecond⟩ := hpunctual
  obtain ⟨⟨hzero, hforever⟩, rfl⟩ := hwait.target_eq
  have htimeout : 1 ≤ timeout := by omega
  exact (normalised_waitTarget_iff hclock htimeout).mpr (hsecond htimeout)

variable {T : Type u}

def BufferStep.Punctual : BufferStep T → Prop
  | .write _ _ timeout now => MyDirectFB.Punctual now timeout
  | .read _ _ timeout now => MyDirectFB.Punctual now timeout
  | _ => True

/-- No thread is in a wait that is refused. -/
def SharedBuffer.WaitsNormalised (s : SharedBuffer T) : Prop :=
  ∀ thread call target, s.waiting thread = some (call, some target) →
    target.Normalised

theorem SharedBuffer.init_waitsNormalised (memory : List UInt8) :
    (SharedBuffer.init memory : SharedBuffer T).WaitsNormalised := by
  intro thread call target hwaiting
  simp only [SharedBuffer.init, reduceCtorEq] at hwaiting

variable [DecidableEq T]

theorem SharedBuffer.WaitsNormalised.complete {s : SharedBuffer T}
    (hs : s.WaitsNormalised) (thread : T) (call : BufferCall) (result : Returned) :
    (s.complete thread call result).WaitsNormalised := by
  intro other otherCall target hwaiting
  by_cases hother : other = thread
  · subst hother
    simp only [SharedBuffer.complete, Function.update_self] at hwaiting
    cases hwaiting
  · simp only [SharedBuffer.complete, Function.update_of_ne hother] at hwaiting
    exact hs other otherCall target hwaiting

/-- A call that enters its wait adds the target that it has computed. -/
theorem SharedBuffer.WaitsNormalised.enter {s : SharedBuffer T}
    (hs : s.WaitsNormalised) (thread : T) (call : BufferCall) {entered : Entered}
    (hentered : ∀ target, entered = .waiting (some target) → target.Normalised) :
    (s.enter thread call entered).WaitsNormalised := by
  cases entered with
  | returned result => exact hs.complete thread call result
  | waiting limit =>
      intro other otherCall target hwaiting
      by_cases hother : other = thread
      · subst hother
        simp only [SharedBuffer.enter, Function.update_self, Option.some.injEq,
          Prod.mk.injEq] at hwaiting
        exact hentered target (congrArg Entered.waiting hwaiting.2)
      · simp only [SharedBuffer.enter, Function.update_of_ne hother] at hwaiting
        exact hs other otherCall target hwaiting

theorem SharedBuffer.WaitsNormalised.step (s : SharedBuffer T)
    (action : BufferStep T) (t : SharedBuffer T) (hs : s.WaitsNormalised)
    (hpunctual : action.Punctual) (hstep : s.step action = some t) :
    t.WaitsNormalised := by
  cases SharedBuffer.step_move hstep with
  | write thread data timeout now hidle =>
      exact hs.enter thread (.write data) fun target hwait =>
        MyDirectFB.Punctual.normalised hpunctual (.write data hwait)
  | read thread len timeout now hidle =>
      exact hs.enter thread (.read len) fun target hwait =>
        MyDirectFB.Punctual.normalised hpunctual (.read len hwait)
  | timesOut thread call target hwaiting htimed => exact hs.complete thread call _
  | resume thread call target hwaiting => exact hs.complete thread call _
  | setEOS thread isEOS hidle => exact hs
  | flush thread hidle => exact hs

/-- In a run in which no timed call fills a second, no thread is ever in a wait that
`pthread_cond_timedwait` refuses. -/
theorem waitsNormalised_of_punctual (memory : List UInt8)
    (steps : List (BufferStep T)) (hpunctual : ∀ action ∈ steps, action.Punctual)
    {s : SharedBuffer T}
    (hrun : LabelledRun.run SharedBuffer.step (SharedBuffer.init memory) steps =
      some s) : s.WaitsNormalised :=
  LabelledRun.run_invariant_of_eachStep SharedBuffer.WaitsNormalised.step
    (SharedBuffer.init_waitsNormalised memory)
    (LabelledRun.eachStep_of_forall hpunctual) hrun

end MyDirectFB

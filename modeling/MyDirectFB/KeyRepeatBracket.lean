/-
Key repeats are bracketed by press and release, as long as the reader's span
from `mLastKeyCode` to the write of the press and the handler's span from
`mLastKeyCode` to the write of the repeat do not contain one another.
-/
import MyDirectFB.KeyRepeat
import MyDirectFB.TimerThreadStop
import Mathlib.Data.List.Induction

namespace MyDirectFB

/-! ### Streams of key events -/

/-- Every repeat comes after a press of its key, which is the latest press
before it and has no release after it. -/
def RepeatsBracketed (stream : List KeyEvent) : Prop :=
  ∀ before code after, stream = before ++ ⟨code, .KEY_REPEATED⟩ :: after →
    ∃ earlier between, before = earlier ++ ⟨code, .KEY_PRESSED⟩ :: between ∧
      ∀ key ∈ between, key.state = .KEY_REPEATED

/-- The key that is pressed after an event, when `pressed` is before it. -/
def KeyEvent.pressedAfter (pressed : Option Int32) (key : KeyEvent) :
    Option Int32 :=
  match key.state with
  | .KEY_PRESSED => some key.code
  | .KEY_RELEASED => none
  | .KEY_REPEATED => pressed

/-- The key of the latest press, when no release follows it. -/
def pressedKey (stream : List KeyEvent) : Option Int32 :=
  stream.foldl KeyEvent.pressedAfter none

@[simp] theorem pressedKey_concat (stream : List KeyEvent) (key : KeyEvent) :
    pressedKey (stream ++ [key]) = key.pressedAfter (pressedKey stream) := by
  simp [pressedKey]

theorem pressedKey_eq_some {stream : List KeyEvent} {code : Int32} :
    pressedKey stream = some code ↔
      ∃ earlier between, stream = earlier ++ ⟨code, .KEY_PRESSED⟩ :: between ∧
        ∀ key ∈ between, key.state = .KEY_REPEATED := by
  constructor
  · induction stream using List.reverseRecOn with
    | nil => exact fun h => by cases h
    | append_singleton stream key ih =>
        obtain ⟨last, state⟩ := key
        intro hpressed
        rw [pressedKey_concat] at hpressed
        cases state with
        | KEY_RELEASED => cases hpressed
        | KEY_PRESSED =>
            obtain rfl := Option.some.inj hpressed
            exact ⟨stream, [], rfl, fun key hkey => by cases hkey⟩
        | KEY_REPEATED =>
            obtain ⟨earlier, between, rfl, hall⟩ := ih hpressed
            refine ⟨earlier, between ++ [⟨last, .KEY_REPEATED⟩], by simp, ?_⟩
            intro key hkey
            rcases List.mem_append.mp hkey with h | h
            · exact hall key h
            · rw [List.mem_singleton.mp h]
  · rintro ⟨earlier, between, rfl, hall⟩
    induction between using List.reverseRecOn with
    | nil => exact pressedKey_concat _ _
    | append_singleton between key ih =>
        have hkey : key.state = .KEY_REPEATED := hall key (by simp)
        rw [← List.cons_append, ← List.append_assoc, pressedKey_concat,
          KeyEvent.pressedAfter, hkey]
        exact ih fun other hother => hall other (by simp [hother])

theorem repeatsBracketed_concat {stream : List KeyEvent} {key : KeyEvent} :
    RepeatsBracketed (stream ++ [key]) ↔
      RepeatsBracketed stream ∧
        (key.state = .KEY_REPEATED → pressedKey stream = some key.code) := by
  constructor
  · intro hall
    constructor
    · rintro before code after rfl
      exact hall before code (after ++ [key]) (by simp)
    · intro hkey
      apply pressedKey_eq_some.mpr
      exact hall stream key.code [] (by rw [← hkey])
  · rintro ⟨hstream, hlast⟩ before code after hsplit
    induction after using List.reverseRecOn with
    | nil =>
        obtain ⟨rfl, hkey⟩ := List.append_inj' hsplit rfl
        obtain rfl := (List.cons.inj hkey).1
        exact pressedKey_eq_some.mp (hlast rfl)
    | append_singleton after last _ =>
        rw [← List.cons_append, ← List.append_assoc] at hsplit
        obtain ⟨rfl, -⟩ := List.append_inj' hsplit rfl
        exact hstream before code after rfl

/-! ### The invariant -/

/-- What a place in `onTimerExpired` relies on: behind the check the key of
`mLastKeyCode` is pressed, and a key about to be repeated is pressed. -/
def ExpiredPc.Follows (mLastKeyCode : Int32) (pressed : Option Int32) :
    ExpiredPc → Prop
  | .atSetInterval | .atKeyCode => pressed = some mLastKeyCode
  | .atWrite code => pressed = some code
  | .atCheck | .returned => True

/-- An event that is read has the value 0 or 1. -/
def InputManagerStep.IsPressOrRelease : InputManagerStep → Prop
  | .readKey key => key.state ≠ .KEY_REPEATED
  | _ => True

namespace InputManager

/-- The members agree with the stream: there is no press under way whose key
`mLastKeyCode` has already. -/
structure Settled (s : InputManager) : Prop where
  last : s.mLastKeyCode ≠ -1 → pressedKey s.pipe = some s.mLastKeyCode
  expired : ∀ w, (s.expired w).Follows s.mLastKeyCode (pressedKey s.pipe)

/-- Where the reader is, in terms of the stream and of the timer. -/
def ReaderAt (s : InputManager) : Prop :=
  match s.reader with
  | .idle | .inStart _ => s.Settled
  | .inStop _ => s.Settled ∧ s.mRepeatTimer.caller.IsStopping
  | .atWrite ⟨code, .KEY_PRESSED⟩ =>
      s.mLastKeyCode = code ∧
        ∀ w repeated, s.expired w = .atWrite repeated →
          repeated = code ∨ pressedKey s.pipe = some repeated
  | .atWrite ⟨_, .KEY_RELEASED⟩ =>
      s.mLastKeyCode = -1 ∧ s.mRepeatTimer.caller = .idle true
  | .atWrite ⟨_, .KEY_REPEATED⟩ => False

/-- The invariant of the two threads. -/
structure Inv (s : InputManager) : Prop where
  timer : s.mRepeatTimer.Inv
  handled : ∀ w, s.expired w ≠ .atCheck →
    (s.mRepeatTimer.run w).isInHandler = true
  bracketed : RepeatsBracketed s.pipe
  reader : s.ReaderAt

/-- The condition on a step: the repeat of a key is not written before a press
of it that `mLastKeyCode` shows already, and a press is not written between the
moment at which `onTimerExpired` reads another key and its write. -/
def InTurn (s : InputManager) : InputManagerStep → Prop
  | .onTimerExpired w => ∀ code, s.expired w = .atWrite code →
      s.reader = .atWrite ⟨code, .KEY_PRESSED⟩ →
      pressedKey s.pipe = some code
  | .writeKey => ∀ code, s.reader = .atWrite ⟨code, .KEY_PRESSED⟩ →
      ∀ w repeated, s.expired w = .atWrite repeated → repeated = code
  | _ => True

theorem init_inv (startTime clock : UInt64) : (init startTime clock).Inv where
  timer := TimerThread.init_inv true startTime clock
  handled _ hw := absurd rfl hw
  bracketed before code after hsplit := by
    exact absurd hsplit.symm (List.append_ne_nil_of_right_ne_nil _ (by simp))
  reader := ⟨fun hne => absurd rfl hne, fun _ => trivial⟩

/-- After a `stop` no worker is in its handler. -/
theorem Inv.expired_of_stopped {s : InputManager} (hs : s.Inv)
    (hcaller : s.mRepeatTimer.caller = .idle true) (w : Nat) :
    s.expired w = .atCheck := by
  by_contra hne
  have hin := hs.handled w hne
  rw [hs.timer.silenced.silent hcaller w] at hin
  cases hin

/-! ### Steps of the reader -/

theorem Inv.readKey {s t : InputManager} (hs : s.Inv) {key : KeyEvent}
    (hkey : key.state ≠ .KEY_REPEATED) (hstep : s.readKey key = some t) :
    t.Inv := by
  have hat := hs.reader
  unfold ReaderAt at hat
  cases hreader : s.reader <;> simp [InputManager.readKey, hreader] at hstep
  rw [hreader] at hat
  have hsettled : s.Settled := hat
  have hsame {action : TimerThreadStep} {timer : TimerThread}
      (htimer : s.mRepeatTimer.step action = some timer)
      (hne : ∀ w, action ≠ .worker w) (w : Nat) (hw : s.expired w ≠ .atCheck) :
      (timer.run w).isInHandler = true := by
    rw [TimerThread.step_inHandler htimer (hne w) (hs.handled w hw)]
    exact hs.handled w hw
  cases hstate : key.state with
  | KEY_REPEATED => exact absurd hstate hkey
  | KEY_PRESSED =>
      simp only [hstate, Option.map_eq_some_iff] at hstep
      obtain ⟨timer, htimer, rfl⟩ := hstep
      exact ⟨TimerThread.step_inv _ _ _ hs.timer htimer,
        hsame htimer fun w => by simp, hs.bracketed,
        hsettled.last, hsettled.expired⟩
  | KEY_RELEASED =>
      simp only [hstate, Option.map_eq_some_iff] at hstep
      obtain ⟨timer, htimer, rfl⟩ := hstep
      refine ⟨TimerThread.step_inv _ _ _ hs.timer htimer,
        hsame htimer fun w => by simp, hs.bracketed,
        ⟨hsettled.last, hsettled.expired⟩, ?_⟩
      obtain ⟨-, -, rfl⟩ := TimerThread.stopCall_cases htimer
      trivial

theorem Inv.setLastKeyCode {s t : InputManager} (hs : s.Inv)
    (hstep : s.setLastKeyCode = some t) : t.Inv := by
  have hat := hs.reader
  unfold ReaderAt at hat
  simp only [InputManager.setLastKeyCode] at hstep
  split at hstep
  · rename_i stopped code hcaller hreader
    rw [hreader] at hat
    cases hstep
    refine ⟨hs.timer, hs.handled, hs.bracketed, rfl, fun w repeated hw => ?_⟩
    have hfollows := hat.expired w
    rw [hw] at hfollows
    exact .inr hfollows
  · rename_i stopped code hcaller hreader
    rw [hreader] at hat
    cases hstep
    refine ⟨hs.timer, hs.handled, hs.bracketed, rfl, ?_⟩
    have hstopping := hat.2
    rw [hcaller] at hstopping
    cases stopped with
    | true => exact hcaller
    | false => exact hstopping.elim
  · cases hstep

theorem Inv.writeKey {s t : InputManager} (hs : s.Inv)
    (hturn : s.InTurn .writeKey) (hstep : s.writeKey = some t) : t.Inv := by
  have hat := hs.reader
  unfold ReaderAt at hat
  cases hreader : s.reader <;> simp [InputManager.writeKey, hreader] at hstep
  rename_i key
  obtain ⟨code, state⟩ := key
  rw [hreader] at hat
  subst hstep
  cases state with
  | KEY_REPEATED => exact hat.elim
  | KEY_RELEASED =>
      obtain ⟨hlast, hcaller⟩ := hat
      refine ⟨hs.timer, hs.handled,
        repeatsBracketed_concat.mpr ⟨hs.bracketed, fun h => by cases h⟩,
        fun hne => absurd hlast hne, fun w => ?_⟩
      have hcheck := hs.expired_of_stopped hcaller w
      simp only [hcheck]
      trivial
  | KEY_PRESSED =>
      obtain ⟨hlast, -⟩ := hat
      have hpressed : pressedKey (s.pipe ++ [⟨code, .KEY_PRESSED⟩]) =
          some code := pressedKey_concat _ _
      refine ⟨hs.timer, hs.handled,
        repeatsBracketed_concat.mpr ⟨hs.bracketed, fun h => by cases h⟩,
        fun _ => hpressed.trans (congrArg some hlast.symm), fun w => ?_⟩
      simp only [hpressed, hlast]
      cases hpc : s.expired w with
      | atCheck => trivial
      | atSetInterval => rfl
      | atKeyCode => rfl
      | returned => trivial
      | atWrite repeated =>
          exact congrArg some (hturn code hreader w repeated hpc).symm

/-! ### Steps of the timer thread -/

/-- A step that leaves the reader, the stream and `mLastKeyCode` alone, and after
which the places in `onTimerExpired` are as they should be. -/
theorem Inv.setHandler {s : InputManager} (hs : s.Inv) {timer : TimerThread}
    {expired : Nat → ExpiredPc} (htimer : timer.Inv)
    (hhandled : ∀ w, expired w ≠ .atCheck →
      (timer.run w).isInHandler = true)
    (hstopping : s.mRepeatTimer.caller.IsStopping → timer.caller.IsStopping)
    (hidle : s.mRepeatTimer.caller = .idle true → timer.caller = .idle true)
    (hfollows : s.Settled → ∀ w,
      (expired w).Follows s.mLastKeyCode (pressedKey s.pipe))
    (hpress : ∀ w repeated, expired w = .atWrite repeated →
      s.expired w = .atWrite repeated ∨ repeated = s.mLastKeyCode) :
    Inv { s with mRepeatTimer := timer, expired := expired } := by
  refine ⟨htimer, hhandled, hs.bracketed, ?_⟩
  have hat := hs.reader
  unfold ReaderAt at hat ⊢
  split at hat
  all_goals rename_i hreader; simp only [hreader]
  · exact ⟨hat.last, hfollows hat⟩
  · exact ⟨hat.last, hfollows hat⟩
  · exact ⟨⟨hat.1.last, hfollows hat.1⟩, hstopping hat.2⟩
  · refine ⟨hat.1, fun w repeated hw => ?_⟩
    rcases hpress w repeated hw with hsame | hread
    · exact hat.2 w repeated hsame
    · exact .inl (hread.trans hat.1)
  · exact ⟨hat.1, hidle hat.2⟩
  · exact hat

/-- The same for a step within `onTimerExpired`. -/
theorem Inv.setExpired {s : InputManager} (hs : s.Inv) {w : Nat} {pc : ExpiredPc}
    (hin : (s.mRepeatTimer.run w).isInHandler = true)
    (hfollows : s.Settled → pc.Follows s.mLastKeyCode (pressedKey s.pipe))
    (hpress : ∀ repeated, pc = .atWrite repeated → repeated = s.mLastKeyCode) :
    (s.setExpired w pc).Inv := by
  apply hs.setHandler hs.timer _ id id
  · intro hsettled v
    by_cases hv : v = w
    · simpa [hv] using hfollows hsettled
    · simpa [hv] using hsettled.expired v
  · intro v repeated hv
    by_cases hvw : v = w
    · exact .inr (hpress repeated (by simpa [hvw] using hv))
    · exact .inl (by simpa [hvw] using hv)
  · intro v hv
    by_cases hvw : v = w
    · exact hvw ▸ hin
    · exact hs.handled v (by simpa [hvw] using hv)

/-- The key of a repeat that is about to be written is pressed. -/
theorem Inv.pressed_of_atWrite {s : InputManager} (hs : s.Inv) {w : Nat}
    {code : Int32} (hw : s.expired w = .atWrite code)
    (hturn : s.InTurn (.onTimerExpired w)) : pressedKey s.pipe = some code := by
  have hfollows (hsettled : s.Settled) : pressedKey s.pipe = some code := by
    have hplace := hsettled.expired w
    rw [hw] at hplace
    exact hplace
  have hat := hs.reader
  unfold ReaderAt at hat
  split at hat
  · exact hfollows hat
  · exact hfollows hat
  · exact hfollows hat.1
  · rename_i last hreader
    rcases hat.2 w code hw with hsame | hpressed
    · exact hturn code hw (hsame ▸ hreader)
    · exact hpressed
  · have hcheck := hs.expired_of_stopped hat.2 w
    rw [hw] at hcheck
    cases hcheck
  · exact hat.elim

/-- The repeat of the pressed key leaves it pressed. -/
theorem Inv.writeRepeat {s : InputManager} (hs : s.Inv) {code : Int32}
    (hpressed : pressedKey s.pipe = some code) :
    Inv { s with pipe := s.pipe ++ [⟨code, .KEY_REPEATED⟩] } := by
  have hsame : pressedKey (s.pipe ++ [⟨code, .KEY_REPEATED⟩]) =
      pressedKey s.pipe := pressedKey_concat _ _
  refine ⟨hs.timer, hs.handled,
    repeatsBracketed_concat.mpr ⟨hs.bracketed, fun _ => hpressed⟩, ?_⟩
  have hat := hs.reader
  unfold ReaderAt at hat ⊢
  split at hat
  all_goals rename_i hreader; simp only [hreader, hsame]
  · exact ⟨hsame ▸ hat.last, hsame ▸ hat.expired⟩
  · exact ⟨hsame ▸ hat.last, hsame ▸ hat.expired⟩
  · exact ⟨⟨hsame ▸ hat.1.last, hsame ▸ hat.1.expired⟩, hat.2⟩
  · exact hat
  · exact hat
  · exact hat

theorem onTimerExpired_atWrite {s : InputManager} {w : Nat} {code : Int32}
    (hin : (s.mRepeatTimer.run w).isInHandler = true)
    (hw : s.expired w = .atWrite code) :
    s.onTimerExpired w = some { s.setExpired w .returned with
      pipe := s.pipe ++ [⟨code, .KEY_REPEATED⟩] } := by
  simp only [InputManager.onTimerExpired, hin, hw, ↓reduceIte]

theorem Inv.onTimerExpired {s t : InputManager} (hs : s.Inv) {w : Nat}
    (hturn : s.InTurn (.onTimerExpired w))
    (hstep : s.onTimerExpired w = some t) : t.Inv := by
  simp only [InputManager.onTimerExpired] at hstep
  obtain ⟨hin, hstep⟩ := Option.ite_none_right_eq_some.mp hstep
  cases hpc : s.expired w with
  | returned => simp [hpc] at hstep
  | atCheck =>
      simp only [hpc, Option.some.injEq] at hstep
      subst hstep
      apply hs.setExpired hin
      · intro hsettled
        split
        · trivial
        · rename_i hlast
          exact hsettled.last hlast
      · intro repeated hwrite
        split at hwrite <;> cases hwrite
  | atSetInterval =>
      simp only [hpc, Option.map_eq_some_iff] at hstep
      obtain ⟨timer, htimer, rfl⟩ := hstep
      have hnext := TimerThread.step_inv _ _ _ hs.timer htimer
      obtain ⟨-, rfl⟩ := TimerThread.setInterval_cases htimer
      have hinterval := hs.setHandler hnext hs.handled id id
        (fun hsettled => hsettled.expired) fun _ _ hwrite => .inl hwrite
      apply hinterval.setExpired hin
      · intro hsettled
        have hfollows := hsettled.expired w
        rw [hpc] at hfollows
        exact hfollows
      · intro repeated hwrite
        cases hwrite
  | atKeyCode =>
      simp only [hpc, Option.some.injEq] at hstep
      subst hstep
      apply hs.setExpired hin
      · intro hsettled
        have hfollows := hsettled.expired w
        rw [hpc] at hfollows
        exact hfollows
      · intro repeated hwrite
        exact (ExpiredPc.atWrite.inj hwrite).symm
  | atWrite code =>
      simp only [hpc, Option.some.injEq] at hstep
      subst hstep
      have hwritten := hs.writeRepeat (hs.pressed_of_atWrite hpc hturn)
      exact hwritten.setExpired hin (fun _ => trivial)
        fun repeated hwrite => by cases hwrite

/-- The timer moves on by itself, and with a worker that calls the handler the place in
the handler is its begin. -/
theorem Inv.timerMoves {s : InputManager} (hs : s.Inv) {action : TimerThreadStep}
    (hstart : ∀ args, action ≠ .start args) (hstop : action ≠ .stop)
    {timer : TimerThread} (htimer : s.mRepeatTimer.step action = some timer)
    {expired : Nat → ExpiredPc}
    (hexpired : ∀ w, expired w = s.expired w ∨ expired w = .atCheck)
    (hhandled : ∀ w, expired w ≠ .atCheck → action ≠ .worker w) :
    Inv { s with mRepeatTimer := timer, expired := expired } := by
  apply hs.setHandler (TimerThread.step_inv _ _ _ hs.timer htimer)
  · intro w hw
    have hsame : expired w = s.expired w := (hexpired w).resolve_right hw
    have hin := hs.handled w (hsame ▸ hw)
    rw [TimerThread.step_inHandler htimer (hhandled w hw) hin]
    exact hin
  · exact TimerThread.step_isStopping htimer hstart
  · exact fun hidle => TimerThread.step_idle htimer hidle hstart hstop
  · intro hsettled w
    rcases hexpired w with h | h
    · exact h ▸ hsettled.expired w
    · rw [h]
      trivial
  · intro w repeated hw
    rcases hexpired w with h | h
    · exact .inl (h ▸ hw)
    · rw [h] at hw
      cases hw

theorem Inv.timerStep {s t : InputManager} (hs : s.Inv)
    {action : TimerThreadStep} (hstep : s.timerStep action = some t) :
    t.Inv := by
  obtain ⟨hstart, hstop⟩ : (∀ args, action ≠ .start args) ∧ action ≠ .stop := by
    cases action <;> simp_all [InputManager.timerStep]
  have hother (hstep : (s.mRepeatTimer.step action).map s.setTimer = some t)
      (hhandled : ∀ w, s.expired w ≠ .atCheck → action ≠ .worker w) :
      t.Inv := by
    obtain ⟨timer, htimer, rfl⟩ := Option.map_eq_some_iff.mp hstep
    exact hs.timerMoves hstart hstop htimer (fun _ => .inl rfl) hhandled
  cases action with
  | start args => exact absurd rfl (hstart args)
  | stop => exact absurd rfl hstop
  | setInterval w msec => cases hstep
  | worker w =>
      simp only [InputManager.timerStep] at hstep
      split at hstep
      · obtain ⟨-, hstep⟩ := Option.ite_none_right_eq_some.mp hstep
        obtain ⟨timer, htimer, rfl⟩ := Option.map_eq_some_iff.mp hstep
        apply hs.timerMoves hstart hstop htimer
        · intro v
          by_cases hv : v = w
          · exact .inr (by simp [hv])
          · exact .inl (Function.update_of_ne hv _ _)
        · intro v hv heq
          cases heq
          exact hv (Function.update_self _ _ _)
      · rename_i hout
        apply hother hstep
        intro v hv heq
        cases heq
        exact hout (hs.handled _ hv)
  | taskStop woken => exact hother hstep fun w _ => by simp
  | client step woken => exact hother hstep fun w _ => by simp
  | startNext => exact hother hstep fun w _ => by simp
  | createFails => exact hother hstep fun w _ => by simp
  | wake v => exact hother hstep fun w _ => by simp
  | leave step => exact hother hstep fun w _ => by simp
  | tick now => exact hother hstep fun w _ => by simp

/-! ### Runs -/

/-- Every step that meets its condition keeps the invariant. -/
theorem step_inv (s : InputManager) (action : InputManagerStep)
    (t : InputManager) (hs : s.Inv)
    (hguard : s.InTurn action ∧ action.IsPressOrRelease)
    (hstep : s.step action = some t) : t.Inv := by
  cases action with
  | readKey key => exact hs.readKey hguard.2 hstep
  | setLastKeyCode => exact hs.setLastKeyCode hstep
  | writeKey => exact hs.writeKey hguard.1 hstep
  | onTimerExpired w => exact hs.onTimerExpired hguard.1 hstep
  | timer action => exact hs.timerStep hstep

/-- The condition leaves out no step without need: such a step, or the write of
the repeat that is under way, breaks the brackets. -/
theorem Inv.broken_of_not_inTurn {s t : InputManager} (hs : s.Inv)
    {action : InputManagerStep} (hstep : s.step action = some t)
    (hturn : ¬ s.InTurn action) :
    ∃ rest u, LabelledRun.run step t rest = some u ∧
      ¬ RepeatsBracketed u.pipe := by
  cases action with
  | readKey key => exact absurd trivial hturn
  | setLastKeyCode => exact absurd trivial hturn
  | timer action => exact absurd trivial hturn
  | onTimerExpired w =>
      obtain ⟨code, hw, -, hne⟩ : ∃ code, s.expired w = .atWrite code ∧
          s.reader = .atWrite ⟨code, .KEY_PRESSED⟩ ∧
          pressedKey s.pipe ≠ some code := by
        simpa [InTurn] using hturn
      have hin := hs.handled w (by simp [hw])
      obtain rfl := Option.some.inj
        ((onTimerExpired_atWrite hin hw).symm.trans hstep)
      refine ⟨[], _, rfl, fun hall => hne ?_⟩
      exact (repeatsBracketed_concat.mp hall).2 rfl
  | writeKey =>
      obtain ⟨code, hreader, w, repeated, hw, hne⟩ : ∃ code,
          s.reader = .atWrite ⟨code, .KEY_PRESSED⟩ ∧
            ∃ w repeated, s.expired w = .atWrite repeated ∧
              repeated ≠ code := by
        simpa [InTurn] using hturn
      have hin := hs.handled w (by simp [hw])
      have hwritten : t.pipe = s.pipe ++ [⟨code, .KEY_PRESSED⟩] ∧
          t.mRepeatTimer = s.mRepeatTimer ∧ t.expired = s.expired := by
        simp only [InputManager.step, InputManager.writeKey, hreader,
          Option.some.injEq] at hstep
        subst hstep
        exact ⟨rfl, rfl, rfl⟩
      obtain ⟨hpipe, htimer, hexpired⟩ := hwritten
      have hnext := onTimerExpired_atWrite (htimer ▸ hin) (hexpired ▸ hw)
      refine ⟨[.onTimerExpired w], _,
        LabelledRun.run_cons.mpr ⟨_, hnext, rfl⟩, fun hall => hne ?_⟩
      have hpressed := (repeatsBracketed_concat.mp hall).2 rfl
      rw [hpipe, pressedKey_concat] at hpressed
      exact (Option.some.inj hpressed).symm

/-- In every run of the reader and the timer thread whose steps all meet their
condition the repeats are bracketed, and a further step that does not meet it
leads to a stream in which they are not. -/
theorem run_repeatsBracketed (startTime clock : UInt64)
    (steps : List InputManagerStep) (s : InputManager)
    (hvalues : ∀ action ∈ steps, action.IsPressOrRelease)
    (hturns : LabelledRun.EachStep step InTurn (init startTime clock) steps)
    (hrun : LabelledRun.run step (init startTime clock) steps = some s) :
    RepeatsBracketed s.pipe ∧
      ∀ action t, s.step action = some t → ¬ s.InTurn action →
        ∃ rest u, LabelledRun.run step t rest = some u ∧
          ¬ RepeatsBracketed u.pipe := by
  have hs := LabelledRun.run_invariant_of_eachStep step_inv
    (init_inv startTime clock) (hturns.and_mem hvalues) hrun
  exact ⟨hs.bracketed, fun _ _ => hs.broken_of_not_inTurn⟩

/-- A key is pressed, and the timer expires before `mLastKeyCode` is assigned:
the reader has been held up for as long as that. -/
def pressedAndExpired : List InputManagerStep :=
  [.readKey ⟨24, .KEY_PRESSED⟩, .timer (.taskStop none), .timer .startNext,
    .timer .startNext, .timer .startNext, .timer .startNext, .timer .startNext,
    .timer (.worker 0), .timer (.worker 0), .timer (.worker 0),
    .timer (.worker 0), .timer (.worker 0), .timer (.tick 700),
    .timer (.wake 0), .timer (.worker 0), .timer (.worker 0),
    .timer (.worker 0)]

/-- Then the press is written before the repeat. -/
def repeatedInTurn : List InputManagerStep :=
  pressedAndExpired ++ [.setLastKeyCode, .writeKey, .onTimerExpired 0,
    .onTimerExpired 0, .onTimerExpired 0, .onTimerExpired 0]

open LabelledRun in
theorem run_repeatsBracketed_inTurn :
    ∃ s, run step (init 0 0) repeatedInTurn = some s ∧
      s.pipe = [⟨24, .KEY_PRESSED⟩, ⟨24, .KEY_REPEATED⟩] ∧
      RepeatsBracketed s.pipe := by
  refine ⟨_, rfl, rfl,
    (run_repeatsBracketed 0 0 repeatedInTurn _ ?_ ?_ rfl).1⟩
  · simp [repeatedInTurn, pressedAndExpired,
      InputManagerStep.IsPressOrRelease]
  · refine eachStep_cons rfl trivial <| eachStep_cons rfl trivial <|
      eachStep_cons rfl trivial <| eachStep_cons rfl trivial <|
      eachStep_cons rfl trivial <| eachStep_cons rfl trivial <|
      eachStep_cons rfl trivial <| eachStep_cons rfl trivial <|
      eachStep_cons rfl trivial <| eachStep_cons rfl trivial <|
      eachStep_cons rfl trivial <| eachStep_cons rfl trivial <|
      eachStep_cons rfl trivial <| eachStep_cons rfl trivial <|
      eachStep_cons rfl trivial <| eachStep_cons rfl trivial <|
      eachStep_cons rfl trivial <| eachStep_cons rfl trivial <|
      eachStep_cons rfl ?_ <| eachStep_cons rfl ?_ <| eachStep_cons rfl ?_ <|
      eachStep_cons rfl ?_ <| eachStep_cons rfl ?_ trivial
    · intro code _ w repeated hw
      cases hw
    · intro code hw
      cases hw
    · intro code hw
      cases hw
    · intro code hw
      cases hw
    · intro code _ hreader
      cases hreader

/-- The repeat is written before the press. -/
def repeatedTooEarly : List InputManagerStep :=
  pressedAndExpired ++ [.setLastKeyCode, .onTimerExpired 0, .onTimerExpired 0,
    .onTimerExpired 0, .onTimerExpired 0, .writeKey]

theorem repeatedTooEarly_not_bracketed :
    ∃ s, LabelledRun.run step (init 0 0) repeatedTooEarly = some s ∧
      ¬ RepeatsBracketed s.pipe := by
  refine ⟨_, rfl, fun hall => ?_⟩
  obtain ⟨earlier, between, hbefore, -⟩ := hall [] 24 [⟨24, .KEY_PRESSED⟩] rfl
  exact absurd hbefore.symm (List.append_ne_nil_of_right_ne_nil _ (by simp))

end InputManager

end MyDirectFB

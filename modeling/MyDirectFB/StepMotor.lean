/-
The stepping motor of hw/motor/step_motor.cpp.  `cw` and `ccw` write the rows of a
table to the four pins, one pin after the other, and wait after each row.  What the
pins do is stated apart from the tables: the coils make a magnetic field, and while
the program waits the rotor turns to the nearest place where it lies in the field.
The four files of the pins are open, and the writes to them succeed.
-/
import MyDirectFB.Lib.LabelledRun
import Mathlib.Data.Int.ModEq
import Mathlib.Data.Fin.VecNotation
import Mathlib.Data.Fintype.Basic
import Mathlib.Logic.Function.Basic
import Mathlib.Tactic.Ring

namespace MyDirectFB

/-- Which of the four coils are on. -/
abbrev Coils := Fin 4 → Bool

def Coils.off : Coils := fun _ => false

/-- What the program does to the pins: a byte written to one of the files, and a
wait. -/
inductive MotorEvent where
  | write (pin : Fin 4) (data : UInt8)
  | usleep
deriving Repr, DecidableEq

namespace StepMotor

/-! ### The program -/

def gGpioStepCCW : List (Fin 4 → UInt8) :=
  [![1, 0, 0, 0], ![1, 1, 0, 0], ![0, 1, 0, 0], ![0, 1, 1, 0],
    ![0, 0, 1, 0], ![0, 0, 1, 1], ![0, 0, 0, 1], ![1, 0, 0, 1]]

def gGpioStepCW : List (Fin 4 → UInt8) :=
  [![1, 0, 0, 1], ![0, 0, 0, 1], ![0, 0, 1, 1], ![0, 0, 1, 0],
    ![0, 1, 1, 0], ![0, 1, 0, 0], ![1, 1, 0, 0], ![1, 0, 0, 0]]

/-- A row of a table. -/
def writeRow (pins : Fin 4 → UInt8) : List MotorEvent :=
  (List.finRange 4).map (fun jj => .write jj (48 + pins jj)) ++ [.usleep]

def reset : List MotorEvent :=
  (List.finRange 4).map (fun ii => .write ii 48) ++ [.usleep]

/-- `cw()` and `ccw()`. -/
def cwOnce : List MotorEvent := gGpioStepCW.flatMap writeRow

def ccwOnce : List MotorEvent := gGpioStepCCW.flatMap writeRow

def cw (cnt : Int) : List MotorEvent :=
  (List.replicate cnt.toNat cwOnce).flatten ++ reset

def ccw (cnt : Int) : List MotorEvent :=
  (List.replicate cnt.toNat ccwOnce).flatten ++ reset

inductive Call where
  | reset
  | cwOnce
  | ccwOnce
  | cw (cnt : Int)
  | ccw (cnt : Int)
deriving Repr, DecidableEq

def Call.events : Call → List MotorEvent
  | .reset => StepMotor.reset
  | .cwOnce => StepMotor.cwOnce
  | .ccwOnce => StepMotor.ccwOnce
  | .cw cnt => StepMotor.cw cnt
  | .ccw cnt => StepMotor.ccw cnt

/-! ### The motor -/

/-- The direction of the field, in eighths of a turn of it; opposite coils cancel
each other. -/
def direction (coils : Coils) : Option Int :=
  match (coils 0).toInt - (coils 2).toInt, (coils 1).toInt - (coils 3).toInt with
  | 1, 0 => some 0
  | 1, 1 => some 1
  | 0, 1 => some 2
  | -1, 1 => some 3
  | -1, 0 => some 4
  | -1, -1 => some 5
  | 0, -1 => some 6
  | 1, -1 => some 7
  | _, _ => none

/-- The rotor, whose place is counted in half steps.  A place that is half a turn of
the field away from it leaves open where it turns. -/
def turn (coils : Coils) (position : Int) : Option Int :=
  match direction coils with
  | none => some position
  | some k =>
      let way := (k - position).bmod 8
      if way = -4 then none else some (position + way)

end StepMotor

/-- The motor with its rotor. -/
structure StepMotor where
  coils : Coils
  position : Int

namespace StepMotor

/-- The transition function. -/
def step (s : StepMotor) : MotorEvent → Option StepMotor
  | .write pin data => some { s with coils := Function.update s.coils pin (data ≠ 48) }
  | .usleep => (turn s.coils s.position).map fun position => { s with position := position }

/-- How far the rotor turns in each wait. -/
def moves (s : StepMotor) : List MotorEvent → List Int
  | [] => []
  | event :: rest =>
      match s.step event with
      | none => []
      | some t =>
          (if event = .usleep then [t.position - s.position] else []) ++ moves t rest

/-- No two coils that are opposite each other are on. -/
def Unopposed (coils : Coils) : Prop :=
  ¬ (coils 0 = true ∧ coils 2 = true) ∧ ¬ (coils 1 = true ∧ coils 3 = true)

instance (coils : Coils) : Decidable (Unopposed coils) :=
  inferInstanceAs (Decidable (_ ∧ _))

/-- The turns of the field that a call makes, counter-clockwise. -/
def Call.turns : Call → Int
  | .reset => 0
  | .cwOnce => -1
  | .ccwOnce => 1
  | .cw cnt => -cnt.toNat
  | .ccw cnt => cnt.toNat

/-- How far the rotor is behind a full turn after a call: the last row of the table
for `ccw` is one half step in front of it. -/
def Call.behind (call : Call) (before : Int) : Int :=
  if 0 < call.turns then 1 else if call.turns < 0 then 0 else before

/-- The rows of a table move the rotor by one half step each, but the first one does
not move it if the rotor is at its place already: for `cw` that is behind a `ccw`, and
for `ccw` on a full turn. -/
def cwMoves (behind : Int) : List Int := (behind - 1) :: List.replicate 7 (-1)

def ccwMoves (behind : Int) : List Int := behind :: List.replicate 7 1

/-- The moves of the same table several times, of which each but the first finds the
rotor `rest` behind. -/
def movesOf (once : Int → List Int) (rest : Int) : Nat → Int → List Int
  | 0, _ => []
  | n + 1, behind => once behind ++ movesOf once rest n rest

/-- How far a call moves the rotor, wait by wait. -/
def Call.moves (behind : Int) : Call → List Int
  | .reset => [0]
  | .cwOnce => cwMoves behind
  | .ccwOnce => ccwMoves behind
  | .cw cnt => movesOf cwMoves 0 cnt.toNat behind ++ [0]
  | .ccw cnt => movesOf ccwMoves 1 cnt.toNat behind ++ [0]

def callsMoves : Int → List Call → List Int
  | _, [] => []
  | behind, call :: rest => call.moves behind ++ callsMoves (call.behind behind) rest

/-! ### A row -/

theorem moves_append {s t : StepMotor} {front : List MotorEvent}
    (hfront : LabelledRun.run step s front = some t) (back : List MotorEvent) :
    moves s (front ++ back) = moves s front ++ moves t back := by
  induction front generalizing s with
  | nil =>
      obtain rfl := Option.some.inj hfront
      rfl
  | cons event rest ih =>
      obtain ⟨mid, hstep, hrest⟩ := LabelledRun.run_cons.mp hfront
      simp only [List.cons_append, moves, hstep, ih hrest, List.append_assoc]

/-- The events take the motor from one state to the other by the moves given, and no
opposite coils are on in between. -/
structure Reaches (s : StepMotor) (events : List MotorEvent) (way : List Int)
    (t : StepMotor) : Prop where
  run : LabelledRun.run step s events = some t
  safe : LabelledRun.EachState step (fun s => Unopposed s.coils) s events
  moved : moves s events = way

theorem Reaches.append {s t u : StepMotor} {front back : List MotorEvent}
    {way rest : List Int} (hfront : Reaches s front way t)
    (hback : Reaches t back rest u) : Reaches s (front ++ back) (way ++ rest) u where
  run := LabelledRun.run_append.mpr ⟨t, hfront.run, hback.run⟩
  safe := LabelledRun.eachState_append hfront.safe hfront.run hback.safe
  moved := by rw [moves_append hfront.run, hfront.moved, hback.moved]

theorem Reaches.cons {s t u : StepMotor} {event : MotorEvent}
    {rest : List MotorEvent} {way : List Int} (hsafe : Unopposed s.coils)
    (hstep : s.step event = some t) (hrest : Reaches t rest way u) :
    Reaches s (event :: rest)
      ((if event = .usleep then [t.position - s.position] else []) ++ way) u where
  run := LabelledRun.run_cons.mpr ⟨t, hstep, hrest.run⟩
  safe := by
    refine ⟨hsafe, fun other hother => ?_⟩
    obtain rfl := Option.some.inj (hstep.symm.trans hother)
    exact hrest.safe
  moved := by simp only [moves, hstep, hrest.moved]

theorem Reaches.nil {s : StepMotor} (hsafe : Unopposed s.coils) : Reaches s [] [] s :=
  ⟨rfl, hsafe, rfl⟩

/-- The coils that a row turns on. -/
def coilsOf (pins : Fin 4 → UInt8) : Coils := fun jj => 48 + pins jj ≠ 48

/-- The coils after the first `n` writes of a row. -/
def partly (coils : Coils) (pins : Fin 4 → UInt8) (n : Nat) : Coils :=
  fun jj => if jj < n then coilsOf pins jj else coils jj

/-- The writes of a row never turn on opposite coils. -/
def SafeRow (coils : Coils) (pins : Fin 4 → UInt8) : Prop :=
  ∀ n ≤ 4, Unopposed (partly coils pins n)

instance (coils : Coils) (pins : Fin 4 → UInt8) : Decidable (SafeRow coils pins) :=
  inferInstanceAs (Decidable (∀ n ≤ 4, _))

theorem update_partly (coils : Coils) (pins : Fin 4 → UInt8) (jj : Fin 4) :
    Function.update (partly coils pins jj) jj (48 + pins jj ≠ 48) =
      partly coils pins (jj + 1) := by
  funext kk
  by_cases hkk : kk = jj
  · subst hkk
    simp [partly, coilsOf]
  · have hiff : kk.val < jj.val + 1 ↔ kk.val < jj.val := by
      have hne : kk.val ≠ jj.val := fun h => hkk (Fin.ext h)
      omega
    rw [Function.update_of_ne hkk]
    simp only [partly, hiff]

theorem writeRow_reaches {coils : Coils} {pins : Fin 4 → UInt8} {p q : Int}
    (hsafe : SafeRow coils pins) (hturn : turn (coilsOf pins) p = some q) :
    Reaches ⟨coils, p⟩ (writeRow pins) [q - p] ⟨coilsOf pins, q⟩ := by
  have hwrite (jj : Fin 4) :
      (⟨partly coils pins jj, p⟩ : StepMotor).step (.write jj (48 + pins jj)) =
        some ⟨partly coils pins (jj + 1), p⟩ := by
    rw [← update_partly]
    rfl
  have hfirst : partly coils pins 0 = coils := by
    funext jj
    simp [partly]
  have hlast : partly coils pins 4 = coilsOf pins := by
    funext jj
    simp [partly]
  rw [← hfirst]
  refine .cons (hsafe 0 (by decide)) (hwrite 0) ?_
  refine .cons (hsafe 1 (by decide)) (hwrite 1) ?_
  refine .cons (hsafe 2 (by decide)) (hwrite 2) ?_
  refine .cons (hsafe 3 (by decide)) (hwrite 3) ?_
  change Reaches ⟨partly coils pins 4, p⟩ _ _ _
  refine .cons (hsafe 4 (by decide)) (t := ⟨coilsOf pins, q⟩) ?_ (.nil ?_)
  · rw [hlast, step, hturn]
    rfl
  · rw [← hlast]
    exact hsafe 4 (by decide)

/-- The rotor turns to a place in the field that is less than half a turn away. -/
theorem turn_eq {coils : Coils} {k p q : Int} (hdirection : direction coils = some k)
    (hplace : (k - q) % 8 = 0) (hnear : -3 ≤ q - p ∧ q - p ≤ 3) :
    turn coils p = some q := by
  have hway : (k - p).bmod 8 = q - p := by
    rw [Int.bmod_def]
    omega
  rw [turn, hdirection]
  simp only [hway]
  rw [if_neg (by omega)]
  congr 1
  omega

theorem turn_off (p : Int) : turn Coils.off p = some p := rfl

/-! ### A turn of the field -/

/-- The way from each place to the next. -/
def differences : Int → List Int → List Int
  | _, [] => []
  | p, q :: places => (q - p) :: differences q places

/-- The rotor follows the rows from place to place. -/
def Follows : Coils → Int → List (Fin 4 → UInt8) → List Int → Prop
  | _, _, [], [] => True
  | coils, p, pins :: rows, q :: places =>
      SafeRow coils pins ∧ (∃ k, direction (coilsOf pins) = some k ∧ (k - q) % 8 = 0) ∧
        (-3 ≤ q - p ∧ q - p ≤ 3) ∧ Follows (coilsOf pins) q rows places
  | _, _, _, _ => False

theorem rows_reach {coils : Coils} {p : Int} {rows : List (Fin 4 → UInt8)}
    (places : List Int) (hunopposed : Unopposed coils)
    (hfollows : Follows coils p rows places) :
    Reaches ⟨coils, p⟩ (rows.flatMap writeRow) (differences p places)
      ⟨(rows.getLast?.map coilsOf).getD coils, places.getLast?.getD p⟩ := by
  induction rows generalizing coils p places with
  | nil =>
      cases places with
      | nil => exact .nil hunopposed
      | cons q places => exact hfollows.elim
  | cons pins rows ih =>
      cases places with
      | nil => exact hfollows.elim
      | cons q places =>
          obtain ⟨hsafe, ⟨k, hdirection, hplace⟩, hnear, hrest⟩ := hfollows
          have hrow := writeRow_reaches hsafe (turn_eq hdirection hplace hnear)
          have hlast : partly coils pins 4 = coilsOf pins := by
            funext jj
            simp [partly]
          have hafter := ih places (hlast ▸ hsafe 4 (by decide)) hrest
          rw [List.flatMap_cons, List.getLast?_cons, List.getLast?_cons]
          have hreach := hrow.append hafter
          cases hrows : rows.getLast? <;> cases hplaces : places.getLast? <;>
            simpa [differences, hrows, hplaces] using hreach

/-- Where a call finds the motor: at most one half step behind a full turn of the
field, with all coils off or with those of the last row that was written. -/
structure Settled (s : StepMotor) (turns behind : Int) : Prop where
  position : s.position = 8 * turns - behind
  zero_or_one : behind = 0 ∨ behind = 1
  coils : s.coils = Coils.off ∨ (s.coils = coilsOf ![1, 0, 0, 0] ∧ behind = 0) ∨
    (s.coils = coilsOf ![1, 0, 0, 1] ∧ behind = 1)

theorem Settled.unopposed {s : StepMotor} {turns behind : Int}
    (hs : s.Settled turns behind) : Unopposed s.coils := by
  rcases hs.coils with h | ⟨h, -⟩ | ⟨h, -⟩ <;> rw [h] <;> decide

/-- A row can follow if it can follow each of the coils that a call leaves on. -/
theorem Settled.safeRow {s : StepMotor} {turns behind : Int}
    (hs : s.Settled turns behind) {pins : Fin 4 → UInt8}
    (hoff : SafeRow Coils.off pins) (hfirst : SafeRow (coilsOf ![1, 0, 0, 0]) pins)
    (hlast : SafeRow (coilsOf ![1, 0, 0, 1]) pins) : SafeRow s.coils pins := by
  rcases hs.coils with h | ⟨h, -⟩ | ⟨h, -⟩ <;> rw [h] <;> assumption

theorem cwOnce_reaches {s : StepMotor} {turns behind : Int}
    (hs : s.Settled turns behind) :
    ∃ t, Reaches s cwOnce (cwMoves behind) t ∧ t.Settled (turns - 1) 0 := by
  have hbehind := hs.zero_or_one
  have hposition := hs.position
  have hmoves : cwMoves behind = differences s.position [8 * turns - 1, 8 * turns - 2,
      8 * turns - 3, 8 * turns - 4, 8 * turns - 5, 8 * turns - 6, 8 * turns - 7,
      8 * turns - 8] := by
    simp only [cwMoves, differences, List.replicate, List.cons.injEq, and_true]
    omega
  rw [hmoves]
  refine ⟨_, rows_reach [8 * turns - 1, 8 * turns - 2, 8 * turns - 3, 8 * turns - 4,
    8 * turns - 5, 8 * turns - 6, 8 * turns - 7, 8 * turns - 8] hs.unopposed ?_, ?_⟩
  · refine ⟨hs.safeRow (by decide) (by decide) (by decide),
      ⟨7, rfl, by omega⟩, by omega, ?_⟩
    refine ⟨by decide, ⟨6, rfl, by omega⟩, by omega, ?_⟩
    refine ⟨by decide, ⟨5, rfl, by omega⟩, by omega, ?_⟩
    refine ⟨by decide, ⟨4, rfl, by omega⟩, by omega, ?_⟩
    refine ⟨by decide, ⟨3, rfl, by omega⟩, by omega, ?_⟩
    refine ⟨by decide, ⟨2, rfl, by omega⟩, by omega, ?_⟩
    refine ⟨by decide, ⟨1, rfl, by omega⟩, by omega, ?_⟩
    exact ⟨by decide, ⟨0, rfl, by omega⟩, by omega, trivial⟩
  · refine ⟨?_, .inl rfl, .inr (.inl ⟨rfl, rfl⟩)⟩
    change 8 * turns - 8 = 8 * (turns - 1) - 0
    omega

theorem ccwOnce_reaches {s : StepMotor} {turns behind : Int}
    (hs : s.Settled turns behind) :
    ∃ t, Reaches s ccwOnce (ccwMoves behind) t ∧ t.Settled (turns + 1) 1 := by
  have hbehind := hs.zero_or_one
  have hposition := hs.position
  have hmoves : ccwMoves behind = differences s.position [8 * turns, 8 * turns + 1,
      8 * turns + 2, 8 * turns + 3, 8 * turns + 4, 8 * turns + 5, 8 * turns + 6,
      8 * turns + 7] := by
    simp only [ccwMoves, differences, List.replicate, List.cons.injEq, and_true]
    omega
  rw [hmoves]
  refine ⟨_, rows_reach [8 * turns, 8 * turns + 1, 8 * turns + 2, 8 * turns + 3,
    8 * turns + 4, 8 * turns + 5, 8 * turns + 6, 8 * turns + 7] hs.unopposed ?_, ?_⟩
  · refine ⟨hs.safeRow (by decide) (by decide) (by decide),
      ⟨0, rfl, by omega⟩, by omega, ?_⟩
    refine ⟨by decide, ⟨1, rfl, by omega⟩, by omega, ?_⟩
    refine ⟨by decide, ⟨2, rfl, by omega⟩, by omega, ?_⟩
    refine ⟨by decide, ⟨3, rfl, by omega⟩, by omega, ?_⟩
    refine ⟨by decide, ⟨4, rfl, by omega⟩, by omega, ?_⟩
    refine ⟨by decide, ⟨5, rfl, by omega⟩, by omega, ?_⟩
    refine ⟨by decide, ⟨6, rfl, by omega⟩, by omega, ?_⟩
    exact ⟨by decide, ⟨7, rfl, by omega⟩, by omega, trivial⟩
  · refine ⟨?_, .inr rfl, .inr (.inr ⟨rfl, rfl⟩)⟩
    change 8 * turns + 7 = 8 * (turns + 1) - 1
    omega

/-- Without current the rotor stays where it is. -/
theorem reset_reaches {s : StepMotor} {turns behind : Int}
    (hs : s.Settled turns behind) :
    ∃ t, Reaches s reset [0] t ∧ t.Settled turns behind := by
  have hrow : reset = writeRow fun _ => 0 := rfl
  have hoff : coilsOf (fun _ => 0) = Coils.off := rfl
  refine ⟨⟨Coils.off, s.position⟩, ?_, hs.position, hs.zero_or_one, .inl rfl⟩
  rw [hrow, ← hoff, ← sub_self s.position]
  refine writeRow_reaches ?_ (turn_off s.position)
  exact hs.safeRow (by decide) (by decide) (by decide)

/-- The same turn several times. -/
theorem replicate_reaches {once : List MotorEvent} {onceMoves : Int → List Int}
    (way : Int) {rest : Int}
    (honce : ∀ {s : StepMotor} {turns behind : Int}, s.Settled turns behind →
      ∃ t, Reaches s once (onceMoves behind) t ∧ t.Settled (turns + way) rest)
    {s : StepMotor} {turns behind : Int} (hs : s.Settled turns behind) (n : Nat) :
    ∃ t, Reaches s (List.replicate n once).flatten (movesOf onceMoves rest n behind) t ∧
      t.Settled (turns + n * way) (if n = 0 then behind else rest) := by
  induction n generalizing s turns behind with
  | zero => exact ⟨s, .nil hs.unopposed, by simpa using hs⟩
  | succ n ih =>
      obtain ⟨mid, hfirst, hmid⟩ := honce hs
      obtain ⟨t, hlater, ht⟩ := ih hmid
      refine ⟨t, ?_, ?_⟩
      · rw [List.replicate_succ, List.flatten_cons]
        exact hfirst.append hlater
      · have hturns : turns + way + n * way = turns + (n + 1 : Nat) * way := by
          push_cast
          ring
        rw [hturns] at ht
        simpa using ht

theorem call_reaches {s : StepMotor} {turns behind : Int}
    (hs : s.Settled turns behind) (call : Call) :
    ∃ t, Reaches s call.events (call.moves behind) t ∧
      t.Settled (turns + call.turns) (call.behind behind) := by
  cases call with
  | reset =>
      obtain ⟨t, hreach, ht⟩ := reset_reaches hs
      exact ⟨t, hreach, by simpa [Call.turns, Call.behind] using ht⟩
  | cwOnce => exact cwOnce_reaches hs
  | ccwOnce => exact ccwOnce_reaches hs
  | cw cnt =>
      obtain ⟨mid, hturning, hmid⟩ :=
        replicate_reaches (-1) cwOnce_reaches hs cnt.toNat
      obtain ⟨t, hreset, ht⟩ := reset_reaches hmid
      refine ⟨t, hturning.append hreset, ?_⟩
      by_cases hcnt : cnt.toNat = 0
      · simpa [Call.turns, Call.behind, hcnt] using ht
      · have hlt : -(cnt.toNat : Int) < 0 := by omega
        have hnot : ¬ 0 < -(cnt.toNat : Int) := by omega
        rw [if_neg hcnt, mul_neg_one] at ht
        simpa only [Call.turns, Call.behind, hlt, hnot, if_true, if_false] using ht
  | ccw cnt =>
      obtain ⟨mid, hturning, hmid⟩ :=
        replicate_reaches 1 ccwOnce_reaches hs cnt.toNat
      obtain ⟨t, hreset, ht⟩ := reset_reaches hmid
      refine ⟨t, hturning.append hreset, ?_⟩
      by_cases hcnt : cnt.toNat = 0
      · simpa [Call.turns, Call.behind, hcnt] using ht
      · have hlt : (0 : Int) < cnt.toNat := by omega
        rw [if_neg hcnt, mul_one] at ht
        simpa only [Call.turns, Call.behind, hlt, if_true] using ht

theorem calls_reach {s : StepMotor} {turns behind : Int}
    (hs : s.Settled turns behind) (calls : List Call) :
    ∃ t, Reaches s (calls.flatMap Call.events) (callsMoves behind calls) t ∧
      t.Settled (turns + (calls.map Call.turns).sum)
        (calls.foldl (fun before call => call.behind before) behind) := by
  induction calls generalizing s turns behind with
  | nil => exact ⟨s, .nil hs.unopposed, by simpa using hs⟩
  | cons call rest ih =>
      obtain ⟨mid, hfirst, hmid⟩ := call_reaches hs call
      obtain ⟨t, hlater, ht⟩ := ih hmid
      refine ⟨t, hfirst.append hlater, ?_⟩
      rw [List.map_cons, List.sum_cons, ← Int.add_assoc]
      exact ht

/-- From a full turn of the field, and whatever calls are made, the rotor always
knows where to turn, opposite coils are never on together, and every row moves it by
one half step the right way, except the first of a call that finds it there already.
In the end it is where the calls have moved it: eight half steps for each turn, less
the one by which `ccw` stops short. -/
theorem calls_position (turns : Int) (calls : List Call) :
    ∃ t, LabelledRun.run step ⟨Coils.off, 8 * turns⟩ (calls.flatMap Call.events) =
        some t ∧
      LabelledRun.EachState step (fun s => Unopposed s.coils)
        ⟨Coils.off, 8 * turns⟩ (calls.flatMap Call.events) ∧
      moves ⟨Coils.off, 8 * turns⟩ (calls.flatMap Call.events) = callsMoves 0 calls ∧
      t.position = 8 * (turns + (calls.map Call.turns).sum) -
        calls.foldl (fun before call => call.behind before) 0 := by
  obtain ⟨t, hreach, ht⟩ := calls_reach
    (⟨(sub_zero _).symm, .inl rfl, .inl rfl⟩ :
      Settled ⟨Coils.off, 8 * turns⟩ turns 0) calls
  exact ⟨t, hreach.run, hreach.safe, hreach.moved, ht.position⟩

end StepMotor

end MyDirectFB

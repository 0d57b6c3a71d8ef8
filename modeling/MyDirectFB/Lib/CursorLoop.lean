/-
Loops of the form `while (*p)`: passes over a state with a cursor, as long as the
byte at the cursor is not the NUL.  A loop whose cursor is outside the memory it
reads, or that makes such a pass, has no result.
-/
import Mathlib.Logic.Relation

namespace CursorLoop

universe u

variable {S : Type u} (current : S → Option UInt8) (round : S → Option S)

/-- The loop, with the number of passes it may make. -/
def loop : Nat → S → Option S
  | 0, _ => none
  | fuel + 1, s =>
      match current s with
      | none => none
      | some c => if c = 0 then some s else (round s).bind (loop fuel)

/-- The loop makes one pass. -/
def Round (s t : S) : Prop :=
  (∃ c, current s = some c ∧ c ≠ 0) ∧ round s = some t

/-- The loop makes passes. -/
def Rounds : S → S → Prop :=
  Relation.ReflTransGen (Round current round)

variable {current : S → Option UInt8} {round : S → Option S} {s t r : S}

/-- The loop makes the passes there are, if every pass lowers the number of bytes
that are left and the loop may make that many. -/
theorem loop_of_rounds (left : S → Nat)
    (hleft : ∀ s c, current s = some c → 0 < left s)
    (hlower : ∀ s t, Round current round s t → left t < left s)
    (hrounds : Rounds current round s t) (hstop : current t = some 0)
    {fuel : Nat} (hfuel : left s ≤ fuel) :
    loop current round fuel s = some t := by
  induction hrounds using Relation.ReflTransGen.head_induction_on
    generalizing fuel with
  | refl =>
      have hpos := hleft _ _ hstop
      obtain ⟨fuel, rfl⟩ : ∃ k, fuel = k + 1 := ⟨fuel - 1, by omega⟩
      simp [loop, hstop]
  | head hround _ ih =>
      have hlt := hlower _ _ hround
      obtain ⟨⟨c, hc, hzero⟩, hnext⟩ := hround
      have hpos := hleft _ _ hc
      obtain ⟨fuel, rfl⟩ : ∃ k, fuel = k + 1 := ⟨fuel - 1, by omega⟩
      rw [loop, hc]
      simp only [hzero, ↓reduceIte, hnext, Option.bind_some]
      exact ih (by omega)

/-- The loop goes through the passes there are. -/
theorem loop_after_rounds (hrounds : Rounds current round s t) {fuel : Nat}
    (hloop : loop current round fuel s = some r) :
    ∃ fuel', loop current round fuel' t = some r := by
  induction hrounds using Relation.ReflTransGen.head_induction_on
    generalizing fuel with
  | refl => exact ⟨fuel, hloop⟩
  | head hround _ ih =>
      obtain ⟨⟨c, hc, hzero⟩, hnext⟩ := hround
      cases fuel with
      | zero => cases hloop
      | succ fuel =>
          rw [loop, hc] at hloop
          simp only [hzero, ↓reduceIte, hnext, Option.bind_some] at hloop
          exact ih hloop

/-- From a state whose cursor is outside the memory the loop does not return. -/
theorem loop_outside (hrounds : Rounds current round s t)
    (houtside : current t = none) (fuel : Nat) :
    loop current round fuel s = none := by
  cases hloop : loop current round fuel s with
  | none => rfl
  | some r =>
      obtain ⟨fuel', hafter⟩ := loop_after_rounds hrounds hloop
      cases fuel' with
      | zero => cases hafter
      | succ fuel' =>
          rw [loop, houtside] at hafter
          cases hafter

end CursorLoop

/-
Arithmetic of `int`: a sum or a difference that is not an `int` has no value.
-/
import Mathlib.Order.Basic
import Mathlib.Algebra.Group.Int.Defs

namespace CheckedInt

variable {a b c : Int32} {v : Int}

/-- The integer is the value of an `int`. -/
def Fits (v : Int) : Prop := (Int32.ofInt v).toInt = v

instance (v : Int) : Decidable (Fits v) :=
  inferInstanceAs (Decidable ((Int32.ofInt v).toInt = v))

def ofInt? (v : Int) : Option Int32 :=
  if Fits v then some (Int32.ofInt v) else none

def add (a b : Int32) : Option Int32 := ofInt? (a.toInt + b.toInt)

def sub (a b : Int32) : Option Int32 := ofInt? (a.toInt - b.toInt)

@[simp] theorem fits_toInt (a : Int32) : Fits a.toInt := by
  rw [Fits, Int32.ofInt_toInt]

theorem fits_iff : Fits v ↔ -2 ^ 31 ≤ v ∧ v < 2 ^ 31 := by
  constructor
  · intro hfits
    rw [← hfits]
    exact ⟨Int32.le_toInt _, Int32.toInt_lt _⟩
  · rintro ⟨hlow, hhigh⟩
    exact Int32.toInt_ofInt_of_le hlow hhigh

theorem Fits.max {w : Int} (hv : Fits v) (hw : Fits w) : Fits (max v w) := by
  rw [fits_iff] at hv hw ⊢
  omega

theorem ofInt?_eq_some : ofInt? v = some c ↔ c.toInt = v := by
  unfold ofInt?
  constructor
  · intro hsome
    split at hsome
    · next hfits => rw [← Option.some.inj hsome, hfits]
    · cases hsome
  · rintro rfl
    rw [if_pos (fits_toInt c), Int32.ofInt_toInt]

theorem add_eq_some : add a b = some c ↔ c.toInt = a.toInt + b.toInt :=
  ofInt?_eq_some

theorem sub_eq_some : sub a b = some c ↔ c.toInt = a.toInt - b.toInt :=
  ofInt?_eq_some

theorem exists_ofInt? : (∃ c, ofInt? v = some c) ↔ Fits v := by
  constructor
  · rintro ⟨c, hc⟩
    rw [← ofInt?_eq_some.mp hc]
    exact fits_toInt c
  · exact fun hfits => ⟨_, if_pos hfits⟩

end CheckedInt

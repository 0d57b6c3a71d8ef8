/-
Pictures: colours at the positions of a plane.  Positions are the elements of a
commutative group, so that a picture can be moved and a part of one cut out.  What is
drawn is clipped to the positions at which the target has a colour.
-/
import Mathlib.Algebra.Group.Basic

universe u v

/-- The colours of a picture; it has none at a position outside of it. -/
def Picture (P : Type u) (A : Type v) := P → Option A

namespace Picture

variable {P : Type u} {A : Type v}

/-- A picture that has its colours in a region. -/
def ofRegion (region : P → Prop) [DecidablePred region] (color : P → A) :
    Picture P A :=
  fun p => if region p then some (color p) else none

/-- Draw over the part of the target in a region. -/
def paint (region : P → Prop) [DecidablePred region] (color : P → A)
    (target : Picture P A) : Picture P A :=
  fun p => (target p).map fun old => if region p then color p else old

/-- One colour everywhere. -/
def clear (color : A) (target : Picture P A) : Picture P A :=
  fun p => (target p).map fun _ => color

/-- The part of a picture in an extent that begins at a corner, with positions counted
from the corner. -/
def cut [AddCommGroup P] (corner : P) (extent : P → Prop) [DecidablePred extent]
    (source : Picture P A) : Picture P A :=
  fun q => if extent q then source (corner + q) else none

/-- Copy a picture to a position of the target. -/
def blit [AddCommGroup P] (source : Picture P A) (position : P)
    (target : Picture P A) : Picture P A :=
  fun p => (target p).map fun old => (source (p - position)).getD old

section

variable {region : P → Prop} [DecidablePred region] {color other : P → A}
  {target : Picture P A} {p : P}

theorem ofRegion_of_mem (hp : region p) : ofRegion region color p = some (color p) :=
  if_pos hp

theorem ofRegion_of_not_mem (hp : ¬ region p) : ofRegion region color p = none :=
  if_neg hp

theorem paint_of_mem (hp : region p) :
    paint region color target p = (target p).map fun _ => color p := by
  simp only [paint, if_pos hp]

theorem paint_of_not_mem (hp : ¬ region p) :
    paint region color target p = target p := by
  simp only [paint, if_neg hp, Option.map_id_fun', id_eq]

/-- Drawing leaves a picture its positions. -/
theorem isSome_paint : (paint region color target p).isSome = (target p).isSome :=
  Option.isSome_map

/-- What is drawn in a region does not matter once the region is drawn over. -/
theorem paint_paint : paint region other (paint region color target) =
    paint region other target := by
  funext p
  by_cases hp : region p
  · rw [paint_of_mem hp, paint_of_mem hp, paint_of_mem hp, Option.map_map]
    rfl
  · rw [paint_of_not_mem hp, paint_of_not_mem hp, paint_of_not_mem hp]

end

variable [AddCommGroup P] {extent : P → Prop} [DecidablePred extent] {corner p : P}
  {source target : Picture P A}

theorem isSome_blit : (blit source corner target p).isSome = (target p).isSome :=
  Option.isSome_map

/-- A part that is copied back to its corner is drawn in its place. -/
theorem blit_cut_of_mem (hp : extent (p - corner)) :
    blit (cut corner extent source) corner target p =
      (target p).map fun old => (source p).getD old := by
  simp only [blit, cut, if_pos hp, add_sub_cancel]

/-- And nothing is drawn elsewhere. -/
theorem blit_cut_of_not_mem (hp : ¬ extent (p - corner)) :
    blit (cut corner extent source) corner target p = target p := by
  simp only [blit, cut, if_neg hp, Option.getD_none, Option.map_id_fun', id_eq]

end Picture

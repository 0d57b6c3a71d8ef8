/-
A block of cells that is overwritten in place: `blit` puts a list of values over
the cells from a position on and leaves the rest.
-/
import Mathlib.Data.List.Basic
import Mathlib.Tactic.SplitIfs

namespace Cells

universe u

variable {A : Type u}

/-- Overwrite the cells from `start` on with `data`. -/
def blit (cells : List A) (start : Nat) (data : List A) : List A :=
  cells.take start ++ data ++ cells.drop (start + data.length)

theorem length_blit {cells : List A} {start : Nat} {data : List A}
    (hfits : start + data.length ≤ cells.length) :
    (blit cells start data).length = cells.length := by
  simp only [blit, List.length_append, List.length_take, List.length_drop]
  omega

/-- What lands past the last cell is cut off by `take`. -/
theorem length_take_blit (cells : List A) (start : Nat) (data : List A) :
    ((blit cells start data).take cells.length).length = cells.length := by
  simp only [blit, List.length_append, List.length_take, List.length_drop]
  omega

theorem getElem?_blit {cells : List A} {start : Nat} {data : List A} {i : Nat}
    (hfits : start + data.length ≤ cells.length) :
    (blit cells start data)[i]? =
      if i < start then cells[i]?
      else if i < start + data.length then data[i - start]?
      else cells[i]? := by
  simp only [blit, List.getElem?_append, List.length_append, List.length_take,
    List.getElem?_take, List.getElem?_drop]
  have hstart : min start cells.length = start := by omega
  rw [hstart]
  split_ifs <;> first | rfl | omega | (congr 1; omega)

end Cells

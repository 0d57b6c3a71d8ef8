/-
A ring of cells with a front position and a size.  The front may rest at the
end of the cells without having wrapped to 0.  Bytes are copied in and out in
at most two pieces; the lemmas say what the copies do to the stored sequence.
-/
import MyDirectFB.Lib.Cells

namespace RingBuffer

open Cells

universe u

variable {A : Type u}

/-- The `size` elements stored from `front` on, the cells read round once. -/
def contents (cells : List A) (front size : Nat) : List A :=
  (cells.drop front ++ cells).take size

/-- Copy `len` elements in one piece or, past the end of the cells, in two. -/
def fetch (cells : List A) (front len : Nat) : List A :=
  if cells.length - front < len then
    cells.drop front ++ cells.take (len - (cells.length - front))
  else (cells.drop front).take len

/-- Store `data` in one piece or, past the end of the cells, in two. -/
def store (cells : List A) (rear : Nat) (data : List A) : List A :=
  if cells.length - rear < data.length then
    blit (blit cells rear (data.take (cells.length - rear))) 0
      (data.drop (cells.length - rear))
  else blit cells rear data

/-- Advance a position by `len`, wrapping when the end is passed. -/
def advance (capacity position len : Nat) : Nat :=
  if capacity - position < len then len - (capacity - position)
  else position + len

/-- The rear position lies `size` cells after the front, up to whole turns. -/
def Meets (capacity front size rear : Nat) : Prop :=
  front + size = rear ∨ front + size = rear + capacity ∨
    front + size = rear + 2 * capacity

theorem length_contents {cells : List A} {front size : Nat}
    (hsize : size ≤ cells.length) :
    (contents cells front size).length = size := by
  simp only [contents, List.length_take, List.length_append, List.length_drop]
  omega

theorem getElem?_contents {cells : List A} {front size k : Nat}
    (hfront : front ≤ cells.length) :
    (contents cells front size)[k]? =
      if k < size then
        if front + k < cells.length then cells[front + k]?
        else cells[front + k - cells.length]?
      else none := by
  simp only [contents, List.getElem?_take, List.getElem?_append,
    List.length_drop, List.getElem?_drop]
  have hshift : k - (cells.length - front) = front + k - cells.length := by
    omega
  rw [hshift]
  split_ifs <;> first | rfl | omega

theorem length_store {cells : List A} {rear : Nat} {data : List A}
    (hrear : rear ≤ cells.length) (hfits : data.length ≤ cells.length) :
    (store cells rear data).length = cells.length := by
  unfold store
  split
  · have hfirst : (blit cells rear
        (data.take (cells.length - rear))).length = cells.length :=
      length_blit (by rw [List.length_take]; omega)
    rw [length_blit (by rw [hfirst, List.length_drop]; omega), hfirst]
  · exact length_blit (by omega)

/-- Storing puts the `i`-th element `i` cells after the rear. -/
theorem getElem?_store {cells : List A} {rear : Nat} {data : List A} {i : Nat}
    (hrear : rear ≤ cells.length) (hfits : data.length ≤ cells.length) :
    (store cells rear data)[i]? =
      if rear ≤ i ∧ i < rear + data.length ∧ i < cells.length then
        data[i - rear]?
      else if i + cells.length < rear + data.length then
        data[i + cells.length - rear]?
      else cells[i]? := by
  unfold store
  split
  · rename_i hwrap
    have hlength : (data.take (cells.length - rear)).length =
        cells.length - rear := by
      rw [List.length_take]
      omega
    have hfirst : (blit cells rear
        (data.take (cells.length - rear))).length = cells.length :=
      length_blit (by omega)
    rw [getElem?_blit (by rw [hfirst, List.length_drop]; omega),
      getElem?_blit (by omega), List.length_drop, hlength, List.getElem?_drop,
      List.getElem?_take]
    split_ifs <;> first | rfl | omega | (congr 1; omega)
  · rename_i hfit
    rw [getElem?_blit (by omega)]
    split_ifs <;> first | rfl | omega

theorem advance_le {capacity position len : Nat} (hposition : position ≤ capacity)
    (hlen : len ≤ capacity) : advance capacity position len ≤ capacity := by
  unfold advance
  split <;> omega

/-- The pieces copied out are the oldest elements. -/
theorem fetch_eq_take_contents {cells : List A} {front size len : Nat}
    (hlen : len ≤ size) :
    fetch cells front len = (contents cells front size).take len := by
  rw [contents, List.take_take, Nat.min_eq_left hlen, fetch]
  split
  · rename_i hwrap
    have hall : (cells.drop front).take len = cells.drop front :=
      List.take_of_length_le (by rw [List.length_drop]; omega)
    rw [List.take_append, List.length_drop, hall]
  · rename_i hfit
    rw [List.take_append_of_le_length]
    rw [List.length_drop]
    omega

/-- Moving the front drops the elements passed. -/
theorem contents_advance_front {cells : List A} {front size len : Nat}
    (hfront : front ≤ cells.length) (hsize : size ≤ cells.length)
    (hlen : len ≤ size) :
    contents cells (advance cells.length front len) (size - len) =
      (contents cells front size).drop len := by
  have hadvance := advance_le hfront (Nat.le_trans hlen hsize)
  apply List.ext_getElem?
  intro k
  rw [List.getElem?_drop, getElem?_contents hadvance, getElem?_contents hfront]
  unfold advance
  split_ifs <;> first | rfl | omega | (congr 1; omega)

/-- Storing at the rear appends. -/
theorem contents_store {cells : List A} {front size rear : Nat} {data : List A}
    (hfront : front ≤ cells.length) (hrear : rear ≤ cells.length)
    (hmeets : Meets cells.length front size rear)
    (hroom : size + data.length ≤ cells.length) :
    contents (store cells rear data) front (size + data.length) =
      contents cells front size ++ data := by
  have hlength : (store cells rear data).length = cells.length :=
    length_store hrear (by omega)
  unfold Meets at hmeets
  apply List.ext_getElem?
  intro k
  rw [getElem?_contents (by rw [hlength]; exact hfront), hlength,
    getElem?_store hrear (by omega), getElem?_store hrear (by omega),
    List.getElem?_append, length_contents (by omega), getElem?_contents hfront]
  -- the slot of the `k`-th element is an old one, a new one or none at all
  split_ifs <;> first
    | rfl
    | omega
    | (congr 1; omega)
    | exact (List.getElem?_eq_none (by omega)).symm

theorem meets_advance_rear {capacity front size rear len : Nat}
    (hfront : front ≤ capacity) (hrear : rear ≤ capacity)
    (hmeets : Meets capacity front size rear) (hroom : size + len ≤ capacity) :
    Meets capacity front (size + len) (advance capacity rear len) := by
  unfold Meets advance at *
  split <;> omega

theorem meets_advance_front {capacity front size rear len : Nat}
    (hfront : front ≤ capacity) (hrear : rear ≤ capacity)
    (hmeets : Meets capacity front size rear) (hlen : len ≤ size)
    (hsize : size ≤ capacity) :
    Meets capacity (advance capacity front len) (size - len) rear := by
  unfold Meets advance at *
  split <;> omega

end RingBuffer

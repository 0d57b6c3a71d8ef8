/-
Scanning bytes: the white space of `isspace` and what a scan that stops at a
certain byte runs over.
-/
import Mathlib.Data.List.DropRight
import Mathlib.Data.List.TakeWhile

namespace Scan

/-- `isspace` in the C locale. -/
def isspace (c : UInt8) : Bool :=
  c = 32 || (9 ≤ c && c ≤ 13)

theorem isspace_zero : isspace 0 = false := rfl

universe u

variable {A : Type u} {pred : A → Bool}

/-- What is checked for one element after the other holds of all. -/
theorem forall_of_all {cells : List A} {P : A → Prop} [DecidablePred P]
    (hall : cells.all (fun a => decide (P a)) = true) : ∀ a ∈ cells, P a := by
  simpa using hall

/-- A scan runs over the elements that meet its condition and stops at the first
that does not. -/
theorem takeWhile_stop {front : List A} (hfront : ∀ a ∈ front, pred a = true)
    {stop : A} (hstop : pred stop = false) (rest : List A) :
    (front ++ stop :: rest).takeWhile pred = front := by
  rw [List.takeWhile_append_of_pos hfront, List.takeWhile_cons_of_neg]
  · simp
  · simp [hstop]

theorem dropWhile_stop {front : List A} (hfront : ∀ a ∈ front, pred a = true)
    {stop : A} (hstop : pred stop = false) (rest : List A) :
    (front ++ stop :: rest).dropWhile pred = stop :: rest := by
  rw [List.dropWhile_append_of_pos hfront, List.dropWhile_cons_of_neg]
  simp [hstop]

/-- What a scan runs over, and what stops it if it does not come to the end. -/
theorem exists_stop (pred : A → Bool) (cells : List A) :
    ∃ front, (∀ a ∈ front, pred a = true) ∧
      (cells = front ∨
        ∃ stop rest, pred stop = false ∧ cells = front ++ stop :: rest) := by
  refine ⟨cells.takeWhile pred, fun a ha => List.mem_takeWhile_imp ha, ?_⟩
  have hsplit := List.takeWhile_append_dropWhile (p := pred) (l := cells)
  cases hrest : cells.dropWhile pred with
  | nil =>
      rw [hrest, List.append_nil] at hsplit
      exact .inl hsplit.symm
  | cons stop rest =>
      rw [hrest] at hsplit
      refine .inr ⟨stop, rest, ?_, hsplit.symm⟩
      have hne : cells.dropWhile pred ≠ [] := by simp [hrest]
      have hhead := List.head_dropWhile_not pred hne
      simpa [hrest] using hhead

/-- A scan stops before the end of `front` exactly if something in `front` stops
it. -/
theorem length_takeWhile_append_lt_iff (front back : List A) :
    ((front ++ back).takeWhile pred).length < front.length ↔
      ∃ a ∈ front, pred a = false := by
  induction front with
  | nil => simp
  | cons a front ih =>
      cases ha : pred a with
      | true => simp [ha, ih]
      | false => simp [ha]

/-- A scan from the right does not run past an element that stops it. -/
theorem rdropWhile_stop (front : List A) {stop : A} (hstop : pred stop = false)
    (back : List A) :
    (front ++ stop :: back).rdropWhile pred =
      front ++ stop :: back.rdropWhile pred := by
  induction back using List.reverseRecOn with
  | nil =>
      rw [List.rdropWhile_concat_neg _ _ _ (by simp [hstop]),
        List.rdropWhile_nil]
  | append_singleton back c ih =>
      have hassoc : front ++ stop :: (back ++ [c]) =
          (front ++ stop :: back) ++ [c] := by
        simp
      rw [hassoc, List.rdropWhile_concat, List.rdropWhile_concat]
      split
      · exact ih
      · exact hassoc.symm

theorem rdropWhile_append_of_pos (front : List A) {back : List A}
    (hback : ∀ a ∈ back, pred a = true) :
    (front ++ back).rdropWhile pred = front.rdropWhile pred := by
  rw [List.rdropWhile, List.reverse_append, List.dropWhile_append_of_pos]
  · rfl
  · simpa using hback

/-- The position a scan from `p` stops at. -/
def skipWhile (pred : A → Bool) (cells : List A) (p : Nat) : Nat :=
  p + ((cells.drop p).takeWhile pred).length

theorem le_skipWhile (pred : A → Bool) (cells : List A) (p : Nat) :
    p ≤ skipWhile pred cells p :=
  Nat.le_add_right _ _

theorem skipWhile_stop (before : List A) {front : List A}
    (hfront : ∀ a ∈ front, pred a = true) {stop : A}
    (hstop : pred stop = false) (rest : List A) :
    skipWhile pred (before ++ (front ++ stop :: rest)) before.length =
      (before ++ front).length := by
  rw [skipWhile, List.drop_left, takeWhile_stop hfront hstop,
    List.length_append]

end Scan

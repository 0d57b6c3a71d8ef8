/-
Pools of identifiers that hand out the least free one.  The pool and the
identifiers in use are sets over an arbitrary order; a call is described by its
result and by the identifiers in use after it.
-/
import Mathlib.Order.Bounds.Basic

namespace LeastFree

universe u

variable {α : Type u}

/-- A call for an identifier: the least free one, which is in use afterwards, or
none when the whole pool is in use. -/
def Takes [LE α] (pool used : Set α) : Option α → Set α → Prop
  | some id, after => IsLeast (pool \ used) id ∧ after = insert id used
  | none, after => pool ⊆ used ∧ after = used

/-- Giving an identifier back. -/
def Gives (used : Set α) (id : α) (after : Set α) : Prop :=
  after = used \ {id}

/-- Only a free identifier is handed out. -/
theorem Takes.not_mem [LE α] {pool used after : Set α} {id : α}
    (htakes : Takes pool used (some id) after) : id ∉ used :=
  htakes.1.1.2

theorem Takes.eq_none_iff [LE α] {pool used after : Set α} {result : Option α}
    (htakes : Takes pool used result after) : result = none ↔ pool ⊆ used := by
  cases result with
  | none => simpa using htakes.1
  | some id =>
      obtain ⟨⟨hpool, hused⟩, -⟩ := htakes.1
      simpa using fun hfull => hused (hfull hpool)

theorem Gives.of_not_mem {used : Set α} {id : α} (hid : id ∉ used) :
    Gives used id used :=
  (Set.sdiff_singleton_eq_self hid).symm

/-- What has been given back is available again: the next call succeeds, with
this identifier or a smaller one. -/
theorem Takes.le_of_given [LE α] {pool used given after : Set α}
    {id : α} {result : Option α} (hid : id ∈ pool)
    (hgives : Gives used id given) (htakes : Takes pool given result after) :
    ∃ next ≤ id, result = some next := by
  have hfree : id ∉ given := by
    rw [Gives] at hgives
    simp [hgives]
  cases result with
  | none => exact absurd (htakes.1 hid) hfree
  | some next => exact ⟨next, htakes.1.2 ⟨hid, hfree⟩, rfl⟩

end LeastFree

/-
Who owns the handles of a ledger: the open handles are those that some object owns
and those that were lost, which no object can release any more.
-/
import MyDirectFB.Lib.HandleLedger
import Mathlib.Algebra.Order.Group.Multiset

universe u

namespace HandleLedger

variable {H : Type u}

structure Accounts (ledger : HandleLedger H) (owned lost : Multiset H) : Prop where
  opened : (ledger.opened : Multiset H) = owned + lost
  nodup : ledger.opened.Nodup
  acquired : ∀ h ∈ ledger.opened, h ∈ ledger.acquired

namespace Accounts

variable {ledger : HandleLedger H} {owned lost : Multiset H} {h : H}

theorem empty : Accounts (⟨[], []⟩ : HandleLedger H) 0 0 where
  opened := rfl
  nodup := List.nodup_nil
  acquired := fun _ hmem => hmem

theorem mem_opened (accounts : ledger.Accounts owned lost) :
    h ∈ ledger.opened ↔ h ∈ owned ∨ h ∈ lost := by
  rw [← Multiset.mem_coe, accounts.opened, Multiset.mem_add]

/-- A handle that is acquired has an owner. -/
theorem acquire (accounts : ledger.Accounts owned lost) (hfresh : h ∉ ledger.opened) :
    (ledger.acquire h).Accounts ({h} + owned) lost where
  opened := by
    rw [HandleLedger.acquire, ← Multiset.cons_coe, accounts.opened, add_assoc,
      Multiset.singleton_add]
  nodup := List.nodup_cons.mpr ⟨hfresh, accounts.nodup⟩
  acquired := by
    intro k hk
    rcases mem_opened_acquire.mp hk with rfl | hk
    · exact List.mem_cons_self
    · exact List.mem_cons_of_mem _ (accounts.acquired k hk)

/-- An owner can release its handle. -/
theorem mem_of_owned (accounts : ledger.Accounts ({h} + owned) lost) :
    h ∈ ledger.opened :=
  accounts.mem_opened.mpr (.inl (by simp))

theorem release [DecidableEq H] (accounts : ledger.Accounts ({h} + owned) lost) :
    (ledger.release h).Accounts owned lost where
  opened := by
    have herase : ledger.opened.filter (· ≠ h) = ledger.opened.erase h := by
      rw [accounts.nodup.erase_eq_filter]
      exact List.filter_congr fun k _ => decide_not
    rw [HandleLedger.release, herase, ← Multiset.coe_erase, accounts.opened, add_assoc,
      Multiset.singleton_add, Multiset.erase_cons_head]
  nodup := accounts.nodup.filter _
  acquired := fun k hk => accounts.acquired k (mem_opened_release.mp hk).1

/-- Handles that lose their owner stay open. -/
theorem lose {handles : Multiset H}
    (accounts : ledger.Accounts (handles + owned) lost) :
    ledger.Accounts owned (handles + lost) where
  opened := by rw [accounts.opened, add_comm handles owned, add_assoc]
  nodup := accounts.nodup
  acquired := accounts.acquired

end Accounts

end HandleLedger

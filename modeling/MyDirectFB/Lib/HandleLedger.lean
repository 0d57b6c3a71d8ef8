/-
A ledger of handles: which are open, and which were acquired under its watch.  An
allocator may hand out a handle again that was released, but none that is open.
What is left open at the end are the live handles.
-/
import Mathlib.Data.List.Basic

universe u

/-- The handles that are open, and those that were acquired. -/
structure HandleLedger (H : Type u) where
  opened : List H
  acquired : List H
deriving Repr, DecidableEq

/-- Which handle is handed out next. -/
structure HandleAllocator (H : Type u) where
  next : HandleLedger H → H
  fresh : ∀ ledger, next ledger ∉ ledger.opened

/-- A handle that is open is not above all that are open. -/
theorem le_foldr_max {opened : List Nat} {h : Nat} (hmem : h ∈ opened) :
    h ≤ opened.foldr max 0 := by
  induction opened with
  | nil => cases hmem
  | cons k opened ih =>
      rcases List.mem_cons.mp hmem with rfl | hmem
      · exact Nat.le_max_left _ _
      · exact Nat.le_trans (ih hmem) (Nat.le_max_right _ _)

/-- Handles that are numbered: the next is larger than all that are open. -/
def HandleAllocator.numbered : HandleAllocator Nat where
  next ledger := ledger.opened.foldr max 0 + 1
  fresh _ hmem := Nat.not_succ_le_self _ (le_foldr_max hmem)

namespace HandleLedger

variable {H : Type u} {ledger : HandleLedger H} {h k : H}

def acquire (ledger : HandleLedger H) (h : H) : HandleLedger H :=
  ⟨h :: ledger.opened, h :: ledger.acquired⟩

def release [DecidableEq H] (ledger : HandleLedger H) (h : H) : HandleLedger H :=
  { ledger with opened := ledger.opened.filter (· ≠ h) }

/-- The handle was acquired and is open. -/
def Live (ledger : HandleLedger H) (h : H) : Prop :=
  h ∈ ledger.acquired ∧ h ∈ ledger.opened

@[simp] theorem mem_opened_acquire :
    h ∈ (ledger.acquire k).opened ↔ h = k ∨ h ∈ ledger.opened :=
  List.mem_cons

@[simp] theorem mem_opened_release [DecidableEq H] :
    h ∈ (ledger.release k).opened ↔ h ∈ ledger.opened ∧ h ≠ k := by
  simp [release]

/-- A handle that was not open becomes live, and nothing else changes. -/
theorem live_acquire (hk : k ∉ ledger.opened) :
    (ledger.acquire k).Live h ↔ h = k ∨ ledger.Live h := by
  unfold Live
  rw [mem_opened_acquire]
  constructor
  · rintro ⟨hacquired, rfl | hopened⟩
    · exact .inl rfl
    · rcases List.mem_cons.mp hacquired with rfl | hacquired
      · exact .inl rfl
      · exact .inr ⟨hacquired, hopened⟩
  · rintro (rfl | ⟨hacquired, hopened⟩)
    · exact ⟨List.mem_cons_self, .inl rfl⟩
    · exact ⟨List.mem_cons_of_mem _ hacquired, .inr hopened⟩

@[simp] theorem live_release [DecidableEq H] :
    (ledger.release k).Live h ↔ ledger.Live h ∧ h ≠ k := by
  unfold Live
  rw [mem_opened_release, and_assoc]
  rfl

/-- Whatever is acquired and released in turn is not live afterwards. -/
theorem live_acquire_release [DecidableEq H] (hk : k ∉ ledger.opened) :
    ((ledger.acquire k).release k).Live h ↔ ledger.Live h := by
  rw [live_release, live_acquire hk]
  constructor
  · rintro ⟨rfl | hlive, hne⟩
    · exact absurd rfl hne
    · exact hlive
  · intro hlive
    exact ⟨.inr hlive, fun heq => hk (heq ▸ hlive.2)⟩

theorem opened_release [DecidableEq H] :
    (ledger.release h).opened = ledger.opened.filter (· ≠ h) :=
  rfl

/-- Whatever is acquired and released in turn leaves what is open as it was. -/
theorem opened_acquire_release [DecidableEq H] (hh : h ∉ ledger.opened) :
    ((ledger.acquire h).release h).opened = ledger.opened := by
  have hkept : ∀ k ∈ ledger.opened, decide (k ≠ h) = true :=
    fun k hk => decide_eq_true fun heq => hh (heq ▸ hk)
  rw [opened_release, acquire, List.filter_cons_of_neg (by simp)]
  exact List.filter_eq_self.mpr hkept

end HandleLedger

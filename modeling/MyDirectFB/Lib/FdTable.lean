/-
Tables of file descriptors: what `close`, `dup2`, the flag `FD_CLOEXEC` and `exec` do
to them.  A `fork` copies the table.
-/
import Mathlib.Data.List.Basic

universe u

structure FdEntry (F : Type u) where
  fd : Nat
  file : F
  cloexec : Bool
deriving Repr, DecidableEq

abbrev FdTable (F : Type u) := List (FdEntry F)

namespace FdTable

variable {F : Type u} {table : FdTable F} {entry : FdEntry F} {fd old new : Nat}

def fds (table : FdTable F) : List Nat := table.map FdEntry.fd

def close (table : FdTable F) (fd : Nat) : FdTable F := table.filter (·.fd ≠ fd)

/-- `fcntl` with `F_SETFD`; nothing happens if the descriptor is not open. -/
def setCloexec (table : FdTable F) (fd : Nat) : FdTable F :=
  table.map fun entry => if entry.fd = fd then { entry with cloexec := true } else entry

/-- `dup2`; a descriptor that is duplicated to itself stays as it is, and so does the
table if `old` is not open. -/
def dup2 (table : FdTable F) (old new : Nat) : FdTable F :=
  if old = new then table
  else
    match table.find? (·.fd = old) with
    | none => table
    | some entry => ⟨new, entry.file, false⟩ :: table.close new

def exec (table : FdTable F) : FdTable F := table.filter (·.cloexec = false)

@[simp] theorem mem_close : entry ∈ table.close fd ↔ entry ∈ table ∧ entry.fd ≠ fd := by
  simp [close]

@[simp] theorem mem_exec : entry ∈ table.exec ↔ entry ∈ table ∧ entry.cloexec = false := by
  simp [exec]

theorem mem_fds_of_mem (hentry : entry ∈ table) : entry.fd ∈ table.fds :=
  List.mem_map_of_mem hentry

@[simp] theorem mem_fds_close {other : Nat} :
    other ∈ (table.close fd).fds ↔ other ∈ table.fds ∧ other ≠ fd := by
  simp only [fds, List.mem_map, mem_close]
  constructor
  · rintro ⟨entry, ⟨hentry, hne⟩, rfl⟩
    exact ⟨⟨entry, hentry, rfl⟩, hne⟩
  · rintro ⟨⟨entry, hentry, rfl⟩, hne⟩
    exact ⟨entry, ⟨hentry, hne⟩, rfl⟩

@[simp] theorem fds_setCloexec : (table.setCloexec fd).fds = table.fds := by
  rw [fds, setCloexec, List.map_map]
  refine List.map_congr_left fun entry _ => ?_
  change FdEntry.fd (if _ then _ else _) = _
  split <;> rfl

/-- An entry behind `setCloexec`, and what it was before. -/
theorem of_mem_setCloexec (hentry : entry ∈ table.setCloexec fd) :
    ∃ before ∈ table, entry.fd = before.fd ∧ entry.file = before.file ∧
      (entry.cloexec = true ↔ before.cloexec = true ∨ entry.fd = fd) := by
  obtain ⟨before, hbefore, rfl⟩ := List.mem_map.mp hentry
  refine ⟨before, hbefore, ?_⟩
  split
  · next hsame => exact ⟨rfl, rfl, iff_of_true rfl (.inr hsame)⟩
  · next hother => exact ⟨rfl, rfl, by simp [hother]⟩

/-- An entry behind `dup2` is one from before, or has the file of `old`. -/
theorem of_mem_dup2 (hentry : entry ∈ table.dup2 old new) :
    entry ∈ table ∨ ∃ before ∈ table, before.fd = old ∧ entry.file = before.file := by
  unfold dup2 at hentry
  split at hentry
  · exact .inl hentry
  · split at hentry
    · exact .inl hentry
    · next found hfound =>
        have hold := List.find?_some hfound
        rcases List.mem_cons.mp hentry with rfl | hrest
        · exact .inr ⟨found, List.mem_of_find?_eq_some hfound,
            of_decide_eq_true hold, rfl⟩
        · exact .inl (mem_close.mp hrest).1

end FdTable

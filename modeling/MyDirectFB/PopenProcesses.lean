/-
The processes and pipes of utils/popen2.cpp.  One thread calls `popen2` and `pclose2`,
other threads open and close files of their own meanwhile, and the children run on
their own between `fork` and `exec`.  `close_all_fds` goes through the descriptors one
at a time.  Nothing else in the program forks, and the command is not null.
-/
import MyDirectFB.Lib.FdTable
import MyDirectFB.Lib.LabelledRun

namespace MyDirectFB

/-- What `popen2` makes of its `type`: `"r"` or anything else. -/
inductive PopenType where
  | r
  | w
deriving Repr, DecidableEq

/-- The command of a call for reading writes, and that of one for writing reads. -/
def PopenType.commandWrites : PopenType → Bool
  | .r => true
  | .w => false

/-- A file, with the number of calls of `popen2` that had been begun when it was
opened.  `pipe` tells the ends of the pipe that such a call makes, and which of them
is the one that is written to. -/
structure OpenFile where
  call : Nat
  pipe : Option (PopenType × Bool)
deriving Repr, DecidableEq

/-- Where the thread is in `popen2`; `fds` are the two ends of the pipe. -/
inductive PopenPc where
  | idle
  /-- In `close_all_fds`, in front of the pass for `ii`. -/
  | closing (type : PopenType) (ii : Nat)
  | piping (type : PopenType)
  | forking (type : PopenType) (fds : Nat × Nat)
  /-- In the parent, behind the `fork`. -/
  | returning (type : PopenType) (fds : Nat × Nat)
deriving Repr, DecidableEq

/-- A child process, with the call it comes from. -/
structure Command where
  call : Nat
  type : PopenType
  fds : Nat × Nat
  table : FdTable OpenFile
  executed : Bool
deriving Repr, DecidableEq

/-- A `FILE` that `popen2` has returned. -/
structure PopenStream where
  fd : Nat
  call : Nat
  type : PopenType
deriving Repr, DecidableEq

/-- The program, and the children.  `lost` has the calls whose `fork` failed. -/
structure Popen where
  table : FdTable OpenFile
  commands : List Command
  streams : List PopenStream
  lost : List Nat
  calls : Nat
  pc : PopenPc
deriving Repr, DecidableEq

inductive PopenAction where
  /-- Another thread opens a file, or closes one of its own. -/
  | openFile (fd : Nat) (cloexec : Bool)
  | closeFile (fd : Nat)
  | popen2 (type : PopenType)
  | closeAllFds
  | pipe (fds : Option (Nat × Nat))
  | fork (succeeds : Bool)
  | returns
  /-- The `fclose` of `pclose2`. -/
  | pclose2 (fd : Nat)
  /-- A child goes from `fork` to `execvp`. -/
  | exec (call : Nat) (succeeds : Bool)
  /-- A command closes and duplicates its descriptors. -/
  | commandChanges (call : Nat) (table : FdTable OpenFile)
  | exits (call : Nat)
deriving Repr, DecidableEq

/-- What the child does to its descriptors in front of `execvp`. -/
def PopenType.childTable (type : PopenType) (fds : Nat × Nat)
    (table : FdTable OpenFile) : FdTable OpenFile :=
  match type with
  | .r => (FdTable.close table fds.1).dup2 fds.2 1
  | .w => (FdTable.close table fds.2).dup2 fds.1 0

/-- The child in front of its command. -/
def Command.exec (command : Command) : Command :=
  { command with
    table := (command.type.childTable command.fds command.table).exec
    executed := true }

/-- The end that the parent keeps, and the one it closes. -/
def PopenType.kept : PopenType → Nat × Nat → Nat
  | .r, fds => fds.1
  | .w, fds => fds.2

def PopenType.closed : PopenType → Nat × Nat → Nat
  | .r, fds => fds.2
  | .w, fds => fds.1

namespace Popen

/-- The children but for the command of a call, and that command behind a change. -/
def changeCommand (s : Popen) (call : Nat) (change : Command → Command) : Popen :=
  { s with commands := s.commands.map fun command =>
      if command.call = call then change command else command }

/-- A table that a command can make of its own. -/
def Reuses (table other : FdTable OpenFile) : Prop :=
  ∀ entry ∈ other, ∃ before ∈ table, entry.file = before.file

instance (table other : FdTable OpenFile) : Decidable (Reuses table other) :=
  inferInstanceAs (Decidable (∀ entry ∈ other, ∃ before ∈ table, _))

/-- The transition function; `size` is `getdtablesize()`. -/
def step (size : Nat) (s : Popen) : PopenAction → Option Popen
  | .openFile fd cloexec =>
      if fd < size ∧ fd ∉ s.table.fds then
        some { s with table := ⟨fd, ⟨s.calls, none⟩, cloexec⟩ :: s.table }
      else none
  | .closeFile fd =>
      if ∀ entry ∈ s.table, entry.fd = fd → entry.file.pipe = none then
        some { s with table := s.table.close fd }
      else none
  | .popen2 type =>
      match s.pc with
      | .idle => some { s with calls := s.calls + 1, pc := .closing type 0 }
      | _ => none
  | .closeAllFds =>
      match s.pc with
      | .closing type ii =>
          if ii ≤ size then
            some { s with table := s.table.setCloexec ii, pc := .closing type (ii + 1) }
          else some { s with pc := .piping type }
      | _ => none
  | .pipe none =>
      match s.pc with
      | .piping _ => some { s with pc := .idle }
      | _ => none
  | .pipe (some fds) =>
      match s.pc with
      | .piping type =>
          if fds.1 ≠ fds.2 ∧ (fds.1 < size ∧ fds.1 ∉ s.table.fds) ∧
              fds.2 < size ∧ fds.2 ∉ s.table.fds then
            some { s with
              table := ⟨fds.1, ⟨s.calls, some (type, false)⟩, false⟩ ::
                ⟨fds.2, ⟨s.calls, some (type, true)⟩, false⟩ :: s.table
              pc := .forking type fds }
          else none
      | _ => none
  | .fork succeeds =>
      match s.pc with
      | .forking type fds =>
          if succeeds then
            some { s with
              commands := ⟨s.calls, type, fds, s.table, false⟩ :: s.commands
              pc := .returning type fds }
          else some { s with lost := s.calls :: s.lost, pc := .idle }
      | _ => none
  | .returns =>
      match s.pc with
      | .returning type fds =>
          some { s with
            table := s.table.close (type.closed fds)
            streams := ⟨type.kept fds, s.calls, type⟩ :: s.streams
            pc := .idle }
      | _ => none
  | .pclose2 fd =>
      if s.pc = .idle ∧ ∃ stream ∈ s.streams, stream.fd = fd then
        some { s with
          table := s.table.close fd
          streams := s.streams.filter (·.fd ≠ fd) }
      else none
  | .exec call succeeds =>
      if ∀ command ∈ s.commands, command.call = call → command.executed = false then
        if succeeds then some (s.changeCommand call Command.exec)
        else some { s with commands := s.commands.filter (·.call ≠ call) }
      else none
  | .commandChanges call table =>
      if ∀ command ∈ s.commands, command.call = call →
          command.executed = true ∧ Reuses command.table table then
        some (s.changeCommand call fun command => { command with table := table })
      else none
  | .exits call => some { s with commands := s.commands.filter (·.call ≠ call) }

/-- No call has been made. -/
def init (table : FdTable OpenFile) : Popen := ⟨table, [], [], [], 0, .idle⟩

/-- What may be open before the first call: files that are none of the pipes. -/
def Initial (size : Nat) (table : FdTable OpenFile) : Prop :=
  ∀ entry ∈ table, entry.fd < size ∧ entry.file = ⟨0, none⟩

instance (size : Nat) (table : FdTable OpenFile) : Decidable (Initial size table) :=
  inferInstanceAs (Decidable (∀ entry ∈ table, _))

/-- A step, with what is known of the state before it. -/
inductive Move (size : Nat) (s : Popen) : PopenAction → Popen → Prop
  | openFile (fd : Nat) (cloexec : Bool) (hsize : fd < size) (hfree : fd ∉ s.table.fds) :
      Move size s (.openFile fd cloexec)
        { s with table := ⟨fd, ⟨s.calls, none⟩, cloexec⟩ :: s.table }
  | closeFile (fd : Nat)
      (hown : ∀ entry ∈ s.table, entry.fd = fd → entry.file.pipe = none) :
      Move size s (.closeFile fd) { s with table := s.table.close fd }
  | popen2 (type : PopenType) (hpc : s.pc = .idle) :
      Move size s (.popen2 type) { s with calls := s.calls + 1, pc := .closing type 0 }
  | closeFd (type : PopenType) (ii : Nat) (hpc : s.pc = .closing type ii) :
      Move size s .closeAllFds
        { s with table := s.table.setCloexec ii, pc := .closing type (ii + 1) }
  | allClosed (type : PopenType) (ii : Nat) (hpc : s.pc = .closing type ii)
      (hii : size < ii) : Move size s .closeAllFds { s with pc := .piping type }
  | pipeFails (type : PopenType) (hpc : s.pc = .piping type) :
      Move size s (.pipe none) { s with pc := .idle }
  | pipe (type : PopenType) (fds : Nat × Nat) (hpc : s.pc = .piping type)
      (hne : fds.1 ≠ fds.2) (hsizeRead : fds.1 < size) (hfreeRead : fds.1 ∉ s.table.fds)
      (hsizeWrite : fds.2 < size) (hfreeWrite : fds.2 ∉ s.table.fds) :
      Move size s (.pipe (some fds)) { s with
        table := ⟨fds.1, ⟨s.calls, some (type, false)⟩, false⟩ ::
          ⟨fds.2, ⟨s.calls, some (type, true)⟩, false⟩ :: s.table
        pc := .forking type fds }
  | forks (type : PopenType) (fds : Nat × Nat) (hpc : s.pc = .forking type fds) :
      Move size s (.fork true) { s with
        commands := ⟨s.calls, type, fds, s.table, false⟩ :: s.commands
        pc := .returning type fds }
  | forkFails (type : PopenType) (fds : Nat × Nat) (hpc : s.pc = .forking type fds) :
      Move size s (.fork false) { s with lost := s.calls :: s.lost, pc := .idle }
  | returns (type : PopenType) (fds : Nat × Nat) (hpc : s.pc = .returning type fds) :
      Move size s .returns { s with
        table := s.table.close (type.closed fds)
        streams := ⟨type.kept fds, s.calls, type⟩ :: s.streams
        pc := .idle }
  | pclose2 (fd : Nat) (hpc : s.pc = .idle) :
      Move size s (.pclose2 fd) { s with
        table := s.table.close fd
        streams := s.streams.filter (·.fd ≠ fd) }
  | exec (call : Nat)
      (hcommand : ∀ command ∈ s.commands,
        command.call = call → command.executed = false) :
      Move size s (.exec call true) (s.changeCommand call Command.exec)
  | commandChanges (call : Nat) (table : FdTable OpenFile)
      (hreuses : ∀ command ∈ s.commands, command.call = call →
        command.executed = true ∧ Reuses command.table table) :
      Move size s (.commandChanges call table)
        (s.changeCommand call fun command => { command with table := table })
  | ends (action : PopenAction) (call : Nat) :
      Move size s action { s with commands := s.commands.filter (·.call ≠ call) }

theorem step_move {size : Nat} {s t : Popen} {action : PopenAction}
    (hstep : s.step size action = some t) : s.Move size action t := by
  cases action with
  | openFile fd cloexec =>
      obtain ⟨⟨hsize, hfree⟩, hnext⟩ := Option.ite_none_right_eq_some.mp hstep
      exact Option.some.inj hnext ▸ .openFile fd cloexec hsize hfree
  | closeFile fd =>
      obtain ⟨hown, hnext⟩ := Option.ite_none_right_eq_some.mp hstep
      exact Option.some.inj hnext ▸ .closeFile fd hown
  | popen2 type =>
      cases hpc : s.pc <;> simp only [step, hpc, reduceCtorEq] at hstep
      exact Option.some.inj hstep ▸ .popen2 type hpc
  | closeAllFds =>
      cases hpc : s.pc <;> simp only [step, hpc, reduceCtorEq] at hstep
      split at hstep
      · exact Option.some.inj hstep ▸ .closeFd _ _ hpc
      · next hii => exact Option.some.inj hstep ▸ .allClosed _ _ hpc (Nat.lt_of_not_le hii)
  | pipe fds =>
      cases fds with
      | none =>
          cases hpc : s.pc <;> simp only [step, hpc, reduceCtorEq] at hstep
          exact Option.some.inj hstep ▸ .pipeFails _ hpc
      | some fds =>
          cases hpc : s.pc <;> simp only [step, hpc, reduceCtorEq] at hstep
          obtain ⟨⟨hne, ⟨hsizeRead, hfreeRead⟩, hsizeWrite, hfreeWrite⟩, hnext⟩ :=
            Option.ite_none_right_eq_some.mp hstep
          exact Option.some.inj hnext ▸
            .pipe _ fds hpc hne hsizeRead hfreeRead hsizeWrite hfreeWrite
  | fork succeeds =>
      cases hpc : s.pc <;> simp only [step, hpc, reduceCtorEq] at hstep
      cases succeeds with
      | true => exact Option.some.inj hstep ▸ .forks _ _ hpc
      | false => exact Option.some.inj hstep ▸ .forkFails _ _ hpc
  | returns =>
      cases hpc : s.pc <;> simp only [step, hpc, reduceCtorEq] at hstep
      exact Option.some.inj hstep ▸ .returns _ _ hpc
  | pclose2 fd =>
      obtain ⟨⟨hpc, -⟩, hnext⟩ := Option.ite_none_right_eq_some.mp hstep
      exact Option.some.inj hnext ▸ .pclose2 fd hpc
  | exec call succeeds =>
      obtain ⟨hcommand, hnext⟩ := Option.ite_none_right_eq_some.mp hstep
      cases succeeds with
      | true => exact Option.some.inj hnext ▸ .exec call hcommand
      | false => exact Option.some.inj hnext ▸ .ends _ call
  | commandChanges call table =>
      obtain ⟨hreuses, hnext⟩ := Option.ite_none_right_eq_some.mp hstep
      exact Option.some.inj hnext ▸ .commandChanges call table hreuses
  | exits call => exact Option.some.inj hstep ▸ .ends _ call

end Popen

end MyDirectFB

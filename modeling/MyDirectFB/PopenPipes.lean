/-
Who holds the ends of the pipes of `popen2`.  `close_all_fds` marks what was open
before a call, and the ends that the call makes are closed or handed over by itself.
So a command that has been executed knows no pipe but its own, and each end of a pipe
is open only in the process that it is for.
-/
import MyDirectFB.PopenProcesses

namespace MyDirectFB

/-- What was opened before the call is closed on `exec`. -/
def Marked (call : Nat) (table : FdTable OpenFile) : Prop :=
  ∀ entry ∈ table, entry.file.call < call → entry.cloexec = true

/-- The two ends of the pipe of a call are open, and nothing newer than the call. -/
structure OwnEnds (call : Nat) (type : PopenType) (fds : Nat × Nat)
    (table : FdTable OpenFile) : Prop where
  call_le : ∀ entry ∈ table, entry.file.call ≤ call
  marked : Marked call table
  own : ∀ entry ∈ table, entry.file.call = call →
    ∀ kind writes, entry.file.pipe = some (kind, writes) →
      kind = type ∧ entry.fd = bif writes then fds.2 else fds.1
  readEnd : ∀ entry ∈ table, entry.fd = fds.1 → entry.file = ⟨call, some (type, false)⟩
  writeEnd : ∀ entry ∈ table, entry.fd = fds.2 → entry.file = ⟨call, some (type, true)⟩
  read_mem : fds.1 ∈ table.fds
  write_mem : fds.2 ∈ table.fds
  ne : fds.1 ≠ fds.2

/-- The command has only files of its own call, and of the pipe its own end. -/
def Isolated (command : Command) : Prop :=
  ∀ entry ∈ command.table, entry.file.call = command.call ∧
    ∀ kind writes, entry.file.pipe = some (kind, writes) →
      kind = command.type ∧ writes = command.type.commandWrites

namespace OwnEnds

variable {call : Nat} {type : PopenType} {fds : Nat × Nat} {table : FdTable OpenFile}

/-- The end that the parent closes is the one for the command. -/
theorem file_closed (h : OwnEnds call type fds table) {entry : FdEntry OpenFile}
    (hentry : entry ∈ table) (hfd : entry.fd = type.closed fds) :
    entry.file = ⟨call, some (type, type.commandWrites)⟩ := by
  cases type with
  | r => exact h.writeEnd entry hentry hfd
  | w => exact h.readEnd entry hentry hfd

/-- What is left of the pipe where one end has been closed. -/
theorem writes_of_ne (h : OwnEnds call type fds table) {entry : FdEntry OpenFile}
    (hentry : entry ∈ table) (hcall : entry.file.call = call) {kind : PopenType}
    {writes : Bool} (hpipe : entry.file.pipe = some (kind, writes)) :
    kind = type ∧
      (entry.fd ≠ type.kept fds → writes = type.commandWrites) ∧
      (entry.fd ≠ type.closed fds →
        entry.fd = type.kept fds ∧ writes = !type.commandWrites) := by
  obtain ⟨rfl, hfd⟩ := h.own entry hentry hcall kind writes hpipe
  refine ⟨rfl, ?_⟩
  cases kind <;> cases writes <;>
    simp [PopenType.kept, PopenType.closed, PopenType.commandWrites, hfd]

/-- What `exec` leaves of a child. -/
theorem isolated {command : Command}
    (h : OwnEnds command.call command.type command.fds command.table) :
    Isolated command.exec := by
  intro entry hentry
  obtain ⟨hchild, hcloexec⟩ := FdTable.mem_exec.mp hentry
  have hsplit : (entry ∈ command.table ∧ entry.fd ≠ command.type.kept command.fds) ∨
      entry.file = ⟨command.call, some (command.type, command.type.commandWrites)⟩ := by
    have hdup : ∃ new, command.type.childTable command.fds command.table =
        (FdTable.close command.table (command.type.kept command.fds)).dup2
          (command.type.closed command.fds) new := by
      cases command.type with
      | r => exact ⟨1, rfl⟩
      | w => exact ⟨0, rfl⟩
    obtain ⟨new, hnew⟩ := hdup
    rw [hnew] at hchild
    rcases FdTable.of_mem_dup2 hchild with hkept | ⟨before, hbefore, hfd, hfile⟩
    · exact .inl (FdTable.mem_close.mp hkept)
    · rw [hfile]
      exact .inr (h.file_closed (FdTable.mem_close.mp hbefore).1 hfd)
  rcases hsplit with ⟨hbefore, hfd⟩ | hfile
  · have hcall : entry.file.call = command.call := by
      refine Nat.le_antisymm (h.call_le entry hbefore) (Nat.le_of_not_lt fun hlt => ?_)
      rw [h.marked entry hbefore hlt] at hcloexec
      exact Bool.noConfusion hcloexec
    refine ⟨hcall, fun kind writes hpipe => ?_⟩
    obtain ⟨hkind, hwrites, -⟩ := h.writes_of_ne hbefore hcall hpipe
    exact ⟨hkind, hwrites hfd⟩
  · rw [hfile]
    refine ⟨rfl, fun kind writes hpipe => ?_⟩
    cases hpipe
    exact ⟨rfl, rfl⟩

/-- Another thread opens a file. -/
theorem openFile (h : OwnEnds call type fds table) {fd : Nat} (hfree : fd ∉ table.fds)
    (cloexec : Bool) :
    OwnEnds call type fds (⟨fd, ⟨call, none⟩, cloexec⟩ :: table) where
  call_le := List.forall_mem_cons.mpr ⟨Nat.le_refl call, h.call_le⟩
  marked := List.forall_mem_cons.mpr
    ⟨fun hlt => absurd hlt (Nat.lt_irrefl call), h.marked⟩
  own := List.forall_mem_cons.mpr ⟨fun _ _ _ hpipe => (nomatch hpipe), h.own⟩
  readEnd := by
    refine List.forall_mem_cons.mpr ⟨fun hfd => absurd h.read_mem ?_, h.readEnd⟩
    exact show fds.1 ∉ table.fds from hfd ▸ hfree
  writeEnd := by
    refine List.forall_mem_cons.mpr ⟨fun hfd => absurd h.write_mem ?_, h.writeEnd⟩
    exact show fds.2 ∉ table.fds from hfd ▸ hfree
  read_mem := List.mem_cons_of_mem _ h.read_mem
  write_mem := List.mem_cons_of_mem _ h.write_mem
  ne := h.ne

/-- Another thread closes a file that is no pipe. -/
theorem closeFile (h : OwnEnds call type fds table) {fd : Nat}
    (hown : ∀ entry ∈ table, entry.fd = fd → entry.file.pipe = none) :
    OwnEnds call type fds (table.close fd) := by
  have hmem (entry : FdEntry OpenFile) (hentry : entry ∈ table.close fd) :
      entry ∈ table := (FdTable.mem_close.mp hentry).1
  refine ⟨fun e he => h.call_le e (hmem e he), fun e he => h.marked e (hmem e he),
    fun e he => h.own e (hmem e he), fun e he => h.readEnd e (hmem e he),
    fun e he => h.writeEnd e (hmem e he), ?_, ?_, h.ne⟩
  · refine FdTable.mem_fds_close.mpr ⟨h.read_mem, ?_⟩
    rintro rfl
    obtain ⟨entry, hentry, hfd⟩ := List.mem_map.mp h.read_mem
    have hnone := hown entry hentry hfd
    rw [h.readEnd entry hentry hfd] at hnone
    cases hnone
  · refine FdTable.mem_fds_close.mpr ⟨h.write_mem, ?_⟩
    rintro rfl
    obtain ⟨entry, hentry, hfd⟩ := List.mem_map.mp h.write_mem
    have hnone := hown entry hentry hfd
    rw [h.writeEnd entry hentry hfd] at hnone
    cases hnone

end OwnEnds

/-- A pipe has been made. -/
def PopenPc.hasPipe : PopenPc → Bool
  | .forking _ _ | .returning _ _ => true
  | .idle | .closing _ _ | .piping _ => false

namespace Popen

/-- No pipe of the present call is open. -/
def NoPipe (s : Popen) : Prop :=
  ∀ entry ∈ s.table, entry.file.call = s.calls → entry.file.pipe = none

/-- How far the present call has come. -/
def AtPlace (s : Popen) : Prop :=
  match s.pc with
  | .idle => True
  | .closing _ ii => s.NoPipe ∧ ∀ entry ∈ s.table,
      entry.file.call < s.calls → entry.fd < ii → entry.cloexec = true
  | .piping _ => s.NoPipe ∧ Marked s.calls s.table
  | .forking type fds | .returning type fds => OwnEnds s.calls type fds s.table

/-- An end of a pipe that the parent has open belongs to a stream, unless `fork` has
failed or the call is not over. -/
def Accounted (s : Popen) (entry : FdEntry OpenFile) (kind : PopenType)
    (writes : Bool) : Prop :=
  entry.file.call ∈ s.lost ∨ (s.pc.hasPipe = true ∧ entry.file.call = s.calls) ∨
    ((⟨entry.fd, entry.file.call, kind⟩ : PopenStream) ∈ s.streams ∧
      writes = !kind.commandWrites)

structure Inv (size : Nat) (s : Popen) : Prop where
  fd_lt : ∀ entry ∈ s.table, entry.fd < size
  call_le : ∀ entry ∈ s.table, entry.file.call ≤ s.calls
  place : s.AtPlace
  parent : ∀ entry ∈ s.table, ∀ kind writes,
    entry.file.pipe = some (kind, writes) → s.Accounted entry kind writes
  forked : ∀ command ∈ s.commands, command.executed = false →
    OwnEnds command.call command.type command.fds command.table
  isolated : ∀ command ∈ s.commands, command.executed = true → Isolated command

theorem init_inv {size : Nat} {table : FdTable OpenFile}
    (htable : Initial size table) : (init table).Inv size where
  fd_lt entry hentry := (htable entry hentry).1
  call_le entry hentry := by rw [(htable entry hentry).2]; exact Nat.le_refl 0
  place := trivial
  parent entry hentry kind writes hpipe := by
    rw [(htable entry hentry).2] at hpipe
    cases hpipe
  forked := List.forall_mem_nil _
  isolated := List.forall_mem_nil _

variable {size : Nat} {s : Popen}

/-- A change of the commands that keeps what is known of them. -/
theorem Inv.changeCommand (hs : s.Inv size) (call : Nat) {change : Command → Command}
    (hchange : ∀ command ∈ s.commands, command.call = call →
      (change command).executed = true ∧ Isolated (change command)) :
    (s.changeCommand call change).Inv size where
  fd_lt := hs.fd_lt
  call_le := hs.call_le
  place := hs.place
  parent := hs.parent
  forked command hcommand hexecuted := by
    obtain ⟨before, hbefore, rfl⟩ := List.mem_map.mp hcommand
    by_cases hcall : before.call = call
    · rw [if_pos hcall, (hchange before hbefore hcall).1] at hexecuted
      cases hexecuted
    · rw [if_neg hcall] at hexecuted ⊢
      exact hs.forked before hbefore hexecuted
  isolated command hcommand hexecuted := by
    obtain ⟨before, hbefore, rfl⟩ := List.mem_map.mp hcommand
    by_cases hcall : before.call = call
    · rw [if_pos hcall]
      exact (hchange before hbefore hcall).2
    · rw [if_neg hcall] at hexecuted ⊢
      exact hs.isolated before hbefore hexecuted

/-- The table shrinks, and nothing else changes but the streams and the place. -/
theorem Inv.close (hs : s.Inv size) (fd : Nat) {pc : PopenPc}
    {streams : List PopenStream}
    (hplace : AtPlace { s with table := s.table.close fd, pc := pc, streams := streams })
    (hparent : ∀ entry ∈ s.table, entry.fd ≠ fd → ∀ kind writes,
      entry.file.pipe = some (kind, writes) → s.Accounted entry kind writes →
        Accounted { s with table := s.table.close fd, pc := pc, streams := streams }
          entry kind writes) :
    Inv size { s with table := s.table.close fd, pc := pc, streams := streams } where
  fd_lt entry hentry := hs.fd_lt entry (FdTable.mem_close.mp hentry).1
  call_le entry hentry := hs.call_le entry (FdTable.mem_close.mp hentry).1
  place := hplace
  parent entry hentry kind writes hpipe := by
    obtain ⟨hbefore, hfd⟩ := FdTable.mem_close.mp hentry
    exact hparent entry hbefore hfd kind writes hpipe
      (hs.parent entry hbefore kind writes hpipe)
  forked := hs.forked
  isolated := hs.isolated

/-- Only the place changes, and the table is the same. -/
theorem Inv.moveTo (hs : s.Inv size) {pc : PopenPc} (hplace : AtPlace { s with pc := pc })
    (hpipe : s.pc.hasPipe = false) : Inv size { s with pc := pc } where
  fd_lt := hs.fd_lt
  call_le := hs.call_le
  place := hplace
  parent entry hentry kind writes hend := by
    rcases hs.parent entry hentry kind writes hend with hlost | ⟨hhas, -⟩ | hstream
    · exact .inl hlost
    · rw [hpipe] at hhas
      cases hhas
    · exact .inr (.inr hstream)
  forked := hs.forked
  isolated := hs.isolated

theorem Inv.openFile (hs : s.Inv size) {fd : Nat} (hsize : fd < size)
    (hfree : fd ∉ s.table.fds) (cloexec : Bool) :
    Inv size { s with table := ⟨fd, ⟨s.calls, none⟩, cloexec⟩ :: s.table } where
  fd_lt := List.forall_mem_cons.mpr ⟨hsize, hs.fd_lt⟩
  call_le := List.forall_mem_cons.mpr ⟨Nat.le_refl _, hs.call_le⟩
  place := by
    have hplace := hs.place
    unfold AtPlace at hplace ⊢
    cases hpc : s.pc with
    | idle => trivial
    | closing type ii =>
        rw [hpc] at hplace
        exact ⟨List.forall_mem_cons.mpr ⟨fun _ => rfl, hplace.1⟩,
          List.forall_mem_cons.mpr
            ⟨fun hlt => absurd hlt (Nat.lt_irrefl s.calls), hplace.2⟩⟩
    | piping type =>
        rw [hpc] at hplace
        exact ⟨List.forall_mem_cons.mpr ⟨fun _ => rfl, hplace.1⟩,
          List.forall_mem_cons.mpr
            ⟨fun hlt => absurd hlt (Nat.lt_irrefl s.calls), hplace.2⟩⟩
    | forking type fds | returning type fds =>
        rw [hpc] at hplace
        exact OwnEnds.openFile hplace hfree cloexec
  parent := List.forall_mem_cons.mpr ⟨fun _ _ hpipe => (nomatch hpipe), hs.parent⟩
  forked := hs.forked
  isolated := hs.isolated

theorem Inv.closeFile (hs : s.Inv size) {fd : Nat}
    (hown : ∀ entry ∈ s.table, entry.fd = fd → entry.file.pipe = none) :
    Inv size { s with table := s.table.close fd } := by
  refine hs.close fd ?_ fun _ _ _ _ _ _ haccounted => haccounted
  have hplace := hs.place
  have hmem (entry : FdEntry OpenFile) (hentry : entry ∈ s.table.close fd) :
      entry ∈ s.table := (FdTable.mem_close.mp hentry).1
  unfold AtPlace at hplace ⊢
  cases hpc : s.pc with
  | idle => trivial
  | closing type ii =>
      rw [hpc] at hplace
      exact ⟨fun e he => hplace.1 e (hmem e he), fun e he => hplace.2 e (hmem e he)⟩
  | piping type =>
      rw [hpc] at hplace
      exact ⟨fun e he => hplace.1 e (hmem e he), fun e he => hplace.2 e (hmem e he)⟩
  | forking type fds | returning type fds =>
      rw [hpc] at hplace
      exact OwnEnds.closeFile hplace hown

/-- A pass of `close_all_fds`. -/
theorem Inv.closeFd (hs : s.Inv size) {type : PopenType} {ii : Nat}
    (hpc : s.pc = .closing type ii) :
    Inv size { s with table := s.table.setCloexec ii, pc := .closing type (ii + 1) } := by
  have hplace := hs.place
  rw [AtPlace, hpc] at hplace
  refine ⟨fun entry hentry => ?_, fun entry hentry => ?_, ⟨fun entry hentry => ?_,
    fun entry hentry => ?_⟩, fun entry hentry => ?_, hs.forked, hs.isolated⟩ <;>
    obtain ⟨before, hbefore, hfd, hfile, hcloexec⟩ := FdTable.of_mem_setCloexec hentry
  · exact hfd ▸ hs.fd_lt before hbefore
  · exact hfile ▸ hs.call_le before hbefore
  · exact hfile ▸ hplace.1 before hbefore
  · intro hold hlt
    rw [hcloexec, hfd]
    rcases Nat.lt_succ_iff_lt_or_eq.mp hlt with hless | heq
    · exact .inl (hplace.2 before hbefore (hfile ▸ hold) (hfd ▸ hless))
    · exact .inr (hfd ▸ heq)
  · intro kind writes hpipe
    rw [hfile] at hpipe
    unfold Accounted
    rw [hfile, hfd]
    rcases hs.parent before hbefore kind writes hpipe with hlost | ⟨hhas, -⟩ | hstream
    · exact .inl hlost
    · rw [hpc] at hhas
      cases hhas
    · exact .inr (.inr hstream)

/-- The pipe of a call. -/
theorem Inv.pipe (hs : s.Inv size) {type : PopenType} {fds : Nat × Nat}
    (hpc : s.pc = .piping type) (hne : fds.1 ≠ fds.2) (hsizeRead : fds.1 < size)
    (hfreeRead : fds.1 ∉ s.table.fds) (hsizeWrite : fds.2 < size)
    (hfreeWrite : fds.2 ∉ s.table.fds) :
    Inv size { s with
      table := ⟨fds.1, ⟨s.calls, some (type, false)⟩, false⟩ ::
        ⟨fds.2, ⟨s.calls, some (type, true)⟩, false⟩ :: s.table
      pc := .forking type fds } := by
  have hplace := hs.place
  rw [AtPlace, hpc] at hplace
  obtain ⟨hnoPipe, hmarked⟩ := hplace
  refine ⟨?_, ?_, ⟨?_, ?_, ?_, ?_, ?_, ?_, ?_, hne⟩, ?_, hs.forked, hs.isolated⟩
  · exact List.forall_mem_cons.mpr
      ⟨hsizeRead, List.forall_mem_cons.mpr ⟨hsizeWrite, hs.fd_lt⟩⟩
  · exact List.forall_mem_cons.mpr
      ⟨Nat.le_refl _, List.forall_mem_cons.mpr ⟨Nat.le_refl _, hs.call_le⟩⟩
  · exact List.forall_mem_cons.mpr
      ⟨Nat.le_refl _, List.forall_mem_cons.mpr ⟨Nat.le_refl _, hs.call_le⟩⟩
  · exact List.forall_mem_cons.mpr ⟨fun hlt => absurd hlt (Nat.lt_irrefl _),
      List.forall_mem_cons.mpr ⟨fun hlt => absurd hlt (Nat.lt_irrefl _), hmarked⟩⟩
  · refine List.forall_mem_cons.mpr ⟨fun _ kind writes hpipe => ?_,
      List.forall_mem_cons.mpr ⟨fun _ kind writes hpipe => ?_,
        fun entry hentry hcall kind writes hpipe => ?_⟩⟩
    · cases hpipe
      exact ⟨rfl, rfl⟩
    · cases hpipe
      exact ⟨rfl, rfl⟩
    · rw [hnoPipe entry hentry hcall] at hpipe
      cases hpipe
  · refine List.forall_mem_cons.mpr ⟨fun _ => rfl, List.forall_mem_cons.mpr
      ⟨fun hfd => absurd hfd.symm hne, fun entry hentry hfd => absurd ?_ hfreeRead⟩⟩
    exact hfd ▸ FdTable.mem_fds_of_mem hentry
  · refine List.forall_mem_cons.mpr ⟨fun hfd => absurd hfd hne, List.forall_mem_cons.mpr
      ⟨fun _ => rfl, fun entry hentry hfd => absurd ?_ hfreeWrite⟩⟩
    exact hfd ▸ FdTable.mem_fds_of_mem hentry
  · exact List.mem_cons_self
  · exact List.mem_cons_of_mem _ List.mem_cons_self
  · refine List.forall_mem_cons.mpr ⟨fun _ _ _ => .inr (.inl ⟨rfl, rfl⟩),
      List.forall_mem_cons.mpr ⟨fun _ _ _ => .inr (.inl ⟨rfl, rfl⟩),
        fun entry hentry kind writes hpipe => ?_⟩⟩
    rcases hs.parent entry hentry kind writes hpipe with hlost | ⟨hhas, -⟩ | hstream
    · exact .inl hlost
    · rw [hpc] at hhas
      cases hhas
    · exact .inr (.inr hstream)

theorem step_inv {t : Popen} {action : PopenAction} (hs : s.Inv size)
    (hstep : s.step size action = some t) : t.Inv size := by
  cases step_move hstep with
  | openFile fd cloexec hsize hfree => exact hs.openFile hsize hfree cloexec
  | closeFile fd hown => exact hs.closeFile hown
  | popen2 type hpc =>
      have hlt (entry : FdEntry OpenFile) (hentry : entry ∈ s.table) :
          entry.file.call < s.calls + 1 := Nat.lt_succ_of_le (hs.call_le entry hentry)
      refine ⟨hs.fd_lt, fun entry hentry => Nat.le_of_lt (hlt entry hentry), ⟨?_, ?_⟩,
        fun entry hentry kind writes hpipe => ?_, hs.forked, hs.isolated⟩
      · exact fun entry hentry hcall => absurd hcall (Nat.ne_of_lt (hlt entry hentry))
      · exact fun entry _ _ hfd => absurd hfd (Nat.not_lt_zero _)
      · rcases hs.parent entry hentry kind writes hpipe with hlost | ⟨hhas, -⟩ | hstream
        · exact .inl hlost
        · rw [hpc] at hhas
          cases hhas
        · exact .inr (.inr hstream)
  | closeFd type ii hpc => exact hs.closeFd hpc
  | allClosed type ii hpc hii =>
      have hplace := hs.place
      rw [AtPlace, hpc] at hplace
      refine hs.moveTo ⟨hplace.1, fun entry hentry hcall => ?_⟩ (by rw [hpc]; rfl)
      exact hplace.2 entry hentry hcall (Nat.lt_trans (hs.fd_lt entry hentry) hii)
  | pipeFails type hpc => exact hs.moveTo trivial (by rw [hpc]; rfl)
  | pipe type fds hpc hne hsizeRead hfreeRead hsizeWrite hfreeWrite =>
      exact hs.pipe hpc hne hsizeRead hfreeRead hsizeWrite hfreeWrite
  | forks type fds hpc =>
      have hplace := hs.place
      rw [AtPlace, hpc] at hplace
      refine ⟨hs.fd_lt, hs.call_le, hplace, fun entry hentry kind writes hpipe => ?_,
        List.forall_mem_cons.mpr ⟨fun _ => hplace, hs.forked⟩,
        List.forall_mem_cons.mpr ⟨fun hexecuted => (nomatch hexecuted), hs.isolated⟩⟩
      rcases hs.parent entry hentry kind writes hpipe with hlost | ⟨-, hcall⟩ | hstream
      · exact .inl hlost
      · exact .inr (.inl ⟨rfl, hcall⟩)
      · exact .inr (.inr hstream)
  | forkFails type fds hpc =>
      refine ⟨hs.fd_lt, hs.call_le, trivial, fun entry hentry kind writes hpipe => ?_,
        hs.forked, hs.isolated⟩
      rcases hs.parent entry hentry kind writes hpipe with hlost | ⟨-, hcall⟩ | hstream
      · exact .inl (List.mem_cons_of_mem _ hlost)
      · exact .inl (List.mem_cons.mpr (.inl hcall))
      · exact .inr (.inr hstream)
  | returns type fds hpc =>
      have hplace := hs.place
      rw [AtPlace, hpc] at hplace
      refine hs.close _ trivial fun entry hentry hfd kind writes hpipe haccounted => ?_
      rcases haccounted with hlost | ⟨-, hcall⟩ | ⟨hstream, hwrites⟩
      · exact .inl hlost
      · obtain ⟨rfl, -, hkept⟩ := hplace.writes_of_ne hentry hcall hpipe
        obtain ⟨hfd', hwrites⟩ := hkept hfd
        refine .inr (.inr ⟨?_, hwrites⟩)
        rw [hfd', hcall]
        exact List.mem_cons_self
      · exact .inr (.inr ⟨List.mem_cons_of_mem _ hstream, hwrites⟩)
  | pclose2 fd hpc =>
      refine hs.close fd (by rw [hpc]; trivial) ?_
      intro entry hentry hfd kind writes hpipe haccounted
      rcases haccounted with hlost | hhas | ⟨hstream, hwrites⟩
      · exact .inl hlost
      · exact .inr (.inl hhas)
      · refine .inr (.inr ⟨List.mem_filter.mpr ⟨hstream, ?_⟩, hwrites⟩)
        exact decide_eq_true hfd
  | exec call hcommand =>
      exact hs.changeCommand call fun command hmem hcall =>
        ⟨rfl, (hs.forked command hmem (hcommand command hmem hcall)).isolated⟩
  | commandChanges call table hreuses =>
      refine hs.changeCommand call fun command hmem hcall => ?_
      obtain ⟨hexecuted, hfiles⟩ := hreuses command hmem hcall
      refine ⟨hexecuted, fun entry hentry => ?_⟩
      obtain ⟨before, hbefore, hfile⟩ := hfiles entry hentry
      rw [hfile]
      exact hs.isolated command hmem hexecuted before hbefore
  | ends action call =>
      exact ⟨hs.fd_lt, hs.call_le, hs.place, hs.parent,
        fun command hcommand => hs.forked command (List.mem_filter.mp hcommand).1,
        fun command hcommand => hs.isolated command (List.mem_filter.mp hcommand).1⟩

theorem run_inv {table : FdTable OpenFile} (htable : Initial size table)
    {actions : List PopenAction}
    (hrun : LabelledRun.run (step size) (init table) actions = some s) : s.Inv size :=
  LabelledRun.run_invariant (P := Inv size) (fun _ _ _ hs hstep => step_inv hs hstep)
    (init_inv htable) hrun

/-- Whatever other calls are made, and whatever other threads open and close: a command
that is running has only files that were opened during the call it comes from, and the
one end of a pipe that it is meant to have. -/
theorem command_isolated {table : FdTable OpenFile} (htable : Initial size table)
    {actions : List PopenAction}
    (hrun : LabelledRun.run (step size) (init table) actions = some s)
    {command : Command} (hcommand : command ∈ s.commands)
    (hexecuted : command.executed = true) : Isolated command :=
  (run_inv htable hrun).isolated command hcommand hexecuted

/-- Between two calls, and when every child has come to its command, the program has
open only the ends that are its own to use, of pipes whose stream has not been closed,
but for the pipes of calls whose `fork` failed; and a command only those ends of the
pipe of its own call that are the command's to use.  So a pipe is at its end as soon as
the side that writes is done with it. -/
theorem end_owned {table : FdTable OpenFile} (htable : Initial size table)
    {actions : List PopenAction}
    (hrun : LabelledRun.run (step size) (init table) actions = some s)
    (hidle : s.pc = .idle)
    (hexecuted : ∀ command ∈ s.commands, command.executed = true) :
    (∀ entry ∈ s.table, ∀ kind writes, entry.file.pipe = some (kind, writes) →
      entry.file.call ∉ s.lost →
        writes = !kind.commandWrites ∧
          ∃ stream ∈ s.streams, stream.call = entry.file.call ∧ stream.type = kind) ∧
      ∀ command ∈ s.commands, ∀ entry ∈ command.table, ∀ kind writes,
        entry.file.pipe = some (kind, writes) →
          writes = kind.commandWrites ∧
            command.call = entry.file.call ∧ command.type = kind := by
  have hs := run_inv htable hrun
  constructor
  · intro entry hentry kind writes hpipe hforked
    rcases hs.parent entry hentry kind writes hpipe with hlost | ⟨hhas, -⟩ | hstream
    · exact absurd hlost hforked
    · rw [hidle] at hhas
      cases hhas
    · exact ⟨hstream.2, _, hstream.1, rfl, rfl⟩
  · intro command hcommand entry hentry kind writes hpipe
    obtain ⟨hcall, hend⟩ :=
      hs.isolated command hcommand (hexecuted command hcommand) entry hentry
    obtain ⟨rfl, rfl⟩ := hend kind writes hpipe
    exact ⟨rfl, hcall.symm, rfl⟩

/-- Descriptors 0 to 2, a command that reads and one that writes, and a file that another
thread opens in between. -/
def twoCommands : List PopenAction :=
  [.popen2 .w] ++ List.replicate 10 .closeAllFds ++
    [.pipe (some (3, 4)), .fork true, .openFile 5 false, .returns, .exec 1 true,
      .popen2 .r] ++ List.replicate 10 .closeAllFds ++
    [.pipe (some (3, 6)), .fork true, .exec 2 true, .returns, .pclose2 4]

def stdio : FdTable OpenFile :=
  [⟨0, ⟨0, none⟩, false⟩, ⟨1, ⟨0, none⟩, false⟩, ⟨2, ⟨0, none⟩, false⟩]

def firstCommand : Command :=
  ⟨1, .w, (3, 4), [⟨0, ⟨1, some (.w, false)⟩, false⟩, ⟨3, ⟨1, some (.w, false)⟩, false⟩],
    true⟩

def secondCommand : Command :=
  ⟨2, .r, (3, 6), [⟨1, ⟨2, some (.r, true)⟩, false⟩, ⟨6, ⟨2, some (.r, true)⟩, false⟩],
    true⟩

/-- The file of the other thread and the three descriptors are marked now. -/
def bothRunning : Popen where
  table := ⟨3, ⟨2, some (.r, false)⟩, false⟩ :: ⟨5, ⟨1, none⟩, true⟩ ::
    stdio.map fun entry => { entry with cloexec := true }
  commands := [secondCommand, firstCommand]
  streams := [⟨3, 2, .r⟩]
  lost := []
  calls := 2
  pc := .idle

theorem twoCommands_isolated :
    LabelledRun.run (step 8) (init stdio) twoCommands = some bothRunning ∧
      Isolated secondCommand :=
  ⟨rfl, @command_isolated 8 bothRunning stdio (by decide) twoCommands rfl secondCommand
    (by decide) rfl⟩

/-- The end that the program reads from, and the one the second command writes to. -/
theorem twoCommands_owned :
    (∃ stream ∈ bothRunning.streams, stream.call = 2 ∧ stream.type = .r) ∧
      secondCommand.call = 2 ∧ secondCommand.type = .r :=
  have howned := @end_owned 8 bothRunning stdio (by decide) twoCommands rfl rfl (by decide)
  ⟨(howned.1 ⟨3, ⟨2, some (.r, false)⟩, false⟩ (by decide) .r false rfl (by decide)).2,
    (howned.2 secondCommand (by decide) ⟨1, ⟨2, some (.r, true)⟩, false⟩ (by decide) .r
      true rfl).2⟩

end Popen

end MyDirectFB

/-
The input devices of input/input_manager.cpp and their descriptors.  A device that
is added has one of its own, and a device that is removed keeps it, since the
pointer is erased and the device not deleted.
-/
import MyDirectFB.Lib.HandleLedger
import MyDirectFB.Lib.LabelledRun
import Mathlib.Data.BitVec
import Mathlib.Data.Fintype.EquivFin

namespace MyDirectFB

universe u v

/-- A device that was opened. -/
structure InputDevice (P : Type u) (H : Type v) where
  mPath : P
  mFD : H
deriving Repr, DecidableEq

/-- The devices of the manager, and the descriptors of devices that are open. -/
structure InputDevices (P : Type u) (H : Type v) where
  mInputDevices : List (InputDevice P H)
  ledger : HandleLedger H
deriving Repr, DecidableEq

def IN_CREATE : BitVec 32 := 0x100
def IN_DELETE : BitVec 32 := 0x200

/-- A file that the scan comes upon, or an event of inotify; `opens` is whether
`open` gives a descriptor, where it is called. -/
inductive DeviceEvent (P : Type u) where
  | scan (devpath : P) (opens : Bool)
  | inotify (len : Nat) (mask : BitVec 32) (devpath : P) (opens : Bool)
deriving Repr, DecidableEq

namespace InputDevices

variable {P : Type u} {H : Type v} [DecidableEq P]

/-- `addInputDevice`. -/
def addInputDevice (allocator : HandleAllocator H) (m : InputDevices P H)
    (devpath : P) (opens : Bool) : InputDevices P H :=
  if m.mInputDevices.any (·.mPath = devpath) then m
  else if opens then
    let fd := allocator.next m.ledger
    ⟨m.mInputDevices ++ [⟨devpath, fd⟩], m.ledger.acquire fd⟩
  else m

/-- `removeInputDevice`. -/
def removeInputDevice (m : InputDevices P H) (devpath : P) : InputDevices P H :=
  { m with mInputDevices := m.mInputDevices.eraseP (·.mPath = devpath) }

/-- An event of the scan or of the loop in `run`. -/
def onEvent (allocator : HandleAllocator H) (m : InputDevices P H) :
    DeviceEvent P → InputDevices P H
  | .scan devpath opens => addInputDevice allocator m devpath opens
  | .inotify len mask devpath opens =>
      if len ≠ 0 then
        if mask &&& IN_CREATE ≠ 0 then addInputDevice allocator m devpath opens
        else if mask &&& IN_DELETE ≠ 0 then removeInputDevice m devpath
        else m
      else m

/-- The paths of the devices. -/
def paths (m : InputDevices P H) : List P := m.mInputDevices.map InputDevice.mPath

/-- The descriptors of the devices. -/
def fds (m : InputDevices P H) : List H := m.mInputDevices.map InputDevice.mFD

/-- No path is there twice, and the descriptors that are open are those of the
devices, one each. -/
structure InStep (m : InputDevices P H) : Prop where
  paths : m.paths.Nodup
  fds : m.fds.Nodup
  open_iff : ∀ h, m.ledger.Live h ↔ h ∈ m.fds

/-- Before the scan: no device, whatever else is open. -/
def start (opened : List H) : InputDevices P H := ⟨[], ⟨opened, []⟩⟩

/-- The event takes a device out of the list. -/
def Removes (m : InputDevices P H) : DeviceEvent P → Prop
  | .scan _ _ => False
  | .inotify len mask devpath _ =>
      len ≠ 0 ∧ mask &&& IN_CREATE = 0 ∧ mask &&& IN_DELETE ≠ 0 ∧ devpath ∈ m.paths

end InputDevices

/-- The manager after each event. -/
def DeviceEvent.step {P : Type u} {H : Type v} [DecidableEq P]
    (allocator : HandleAllocator H) (m : InputDevices P H) (event : DeviceEvent P) :
    Option (InputDevices P H) :=
  some (m.onEvent allocator event)

namespace InputDevices

variable {P : Type u} {H : Type v} [DecidableEq P] {allocator : HandleAllocator H}
  {m : InputDevices P H} {devpath : P} {opens : Bool}

/-! ### Adding -/

/-- What adding a device can do. -/
theorem addInputDevice_cases (allocator : HandleAllocator H) (m : InputDevices P H)
    (devpath : P) (opens : Bool) :
    addInputDevice allocator m devpath opens = m ∨
      (devpath ∉ m.paths ∧ ∃ fd, fd ∉ m.ledger.opened ∧
        addInputDevice allocator m devpath opens =
          ⟨m.mInputDevices ++ [⟨devpath, fd⟩], m.ledger.acquire fd⟩) := by
  unfold addInputDevice
  split
  · exact .inl rfl
  · next hany =>
      split
      · refine .inr ⟨fun hmem => hany ?_, _, allocator.fresh m.ledger, rfl⟩
        obtain ⟨device, hdevice, hpath⟩ := List.mem_map.mp hmem
        exact List.any_eq_true.mpr ⟨device, hdevice, decide_eq_true hpath⟩
      · exact .inl rfl

omit [DecidableEq P] in
theorem fd_not_mem (hm : m.InStep) {fd : H} (hfd : fd ∉ m.ledger.opened) :
    fd ∉ m.fds :=
  fun hmem => hfd ((hm.open_iff fd).mpr hmem).2

omit [DecidableEq P] in
theorem paths_append (devices : List (InputDevice P H)) (devpath : P) (fd : H)
    (ledger : HandleLedger H) :
    InputDevices.paths ⟨devices ++ [⟨devpath, fd⟩], ledger⟩ =
      (devices.map InputDevice.mPath).concat devpath := by
  rw [paths, List.map_append, List.map_singleton, List.concat_eq_append]

omit [DecidableEq P] in
theorem fds_append (devices : List (InputDevice P H)) (devpath : P) (fd : H)
    (ledger : HandleLedger H) :
    InputDevices.fds ⟨devices ++ [⟨devpath, fd⟩], ledger⟩ =
      (devices.map InputDevice.mFD).concat fd := by
  rw [fds, List.map_append, List.map_singleton, List.concat_eq_append]

theorem paths_nodup_addInputDevice (hm : m.paths.Nodup) (allocator : HandleAllocator H)
    (devpath : P) (opens : Bool) :
    (m.addInputDevice allocator devpath opens).paths.Nodup := by
  rcases addInputDevice_cases allocator m devpath opens with
    hsame | ⟨hpath, fd, hfd, hadded⟩
  · rwa [hsame]
  · rw [hadded, paths_append]
    exact hm.concat hpath

/-- Adding a device keeps the list and the descriptors in step. -/
theorem InStep.addInputDevice (hm : m.InStep) (allocator : HandleAllocator H)
    (devpath : P) (opens : Bool) :
    (m.addInputDevice allocator devpath opens).InStep := by
  have hpaths := paths_nodup_addInputDevice hm.paths allocator devpath opens
  rcases addInputDevice_cases allocator m devpath opens with
    hsame | ⟨hpath, fd, hfd, hadded⟩
  · rwa [hsame]
  · rw [hadded] at hpaths ⊢
    refine ⟨hpaths, ?_, fun h => ?_⟩
    · rw [fds_append]
      exact hm.fds.concat (fd_not_mem hm hfd)
    · rw [fds_append, List.concat_eq_append, List.mem_append, List.mem_singleton,
        HandleLedger.live_acquire hfd, hm.open_iff, or_comm, InputDevices.fds]

/-! ### Removing -/

theorem removeInputDevice_of_not_mem (hpath : devpath ∉ m.paths) :
    m.removeInputDevice devpath = m := by
  have herase : m.mInputDevices.eraseP (·.mPath = devpath) = m.mInputDevices := by
    refine List.eraseP_of_forall_not fun device hdevice hsame => hpath ?_
    exact List.mem_map.mpr ⟨device, hdevice, of_decide_eq_true hsame⟩
  rw [removeInputDevice, herase]

/-- A device that is removed leaves its descriptor open. -/
theorem not_inStep_removeInputDevice (hm : m.InStep) (hpath : devpath ∈ m.paths) :
    ¬ (m.removeInputDevice devpath).InStep := by
  intro hafter
  obtain ⟨found, hfound, hsame⟩ := List.mem_map.mp hpath
  obtain ⟨device, front, back, -, -, hsplit, herase⟩ :=
    List.exists_of_eraseP (p := (·.mPath = devpath)) hfound (decide_eq_true hsame)
  have hfds : m.fds = front.map InputDevice.mFD ++
      device.mFD :: back.map InputDevice.mFD := by simp [fds, hsplit]
  have hleft : (m.removeInputDevice devpath).fds =
      front.map InputDevice.mFD ++ back.map InputDevice.mFD := by
    simp [fds, removeInputDevice, herase]
  have hlive : m.ledger.Live device.mFD := by simp [hm.open_iff, hfds]
  have hstill := (hafter.open_iff device.mFD).mp hlive
  have hnodup := hm.fds
  rw [hleft] at hstill
  rw [hfds, List.nodup_middle, List.nodup_cons] at hnodup
  exact hnodup.1 hstill

/-! ### Events -/

/-- What an event can do. -/
theorem onEvent_cases (allocator : HandleAllocator H) (m : InputDevices P H)
    (event : DeviceEvent P) :
    (¬ m.Removes event ∧ (m.onEvent allocator event = m ∨
      ∃ devpath opens, m.onEvent allocator event =
        m.addInputDevice allocator devpath opens)) ∨
    (m.Removes event ∧ ∃ devpath ∈ m.paths,
      m.onEvent allocator event = m.removeInputDevice devpath) := by
  cases event with
  | scan devpath opens => exact .inl ⟨id, .inr ⟨devpath, opens, rfl⟩⟩
  | inotify len mask devpath opens =>
      rw [onEvent, Removes]
      by_cases hlen : len ≠ 0
      case neg => exact .inl ⟨fun hremoves => hlen hremoves.1, .inl (if_neg hlen)⟩
      rw [if_pos hlen]
      by_cases hcreate : mask &&& IN_CREATE ≠ 0
      · exact .inl ⟨fun hremoves => hcreate hremoves.2.1,
          .inr ⟨devpath, opens, if_pos hcreate⟩⟩
      rw [if_neg hcreate]
      by_cases hdelete : mask &&& IN_DELETE ≠ 0
      case neg =>
        exact .inl ⟨fun hremoves => hdelete hremoves.2.2.1, .inl (if_neg hdelete)⟩
      rw [if_pos hdelete]
      by_cases hpath : devpath ∈ m.paths
      · exact .inr ⟨⟨hlen, not_not.mp hcreate, hdelete, hpath⟩, devpath, hpath, rfl⟩
      · exact .inl ⟨fun hremoves => hpath hremoves.2.2.2,
          .inl (removeInputDevice_of_not_mem hpath)⟩

/-- An event keeps the list and the descriptors in step exactly if it does not take
a device out of the list. -/
theorem inStep_onEvent_iff (hm : m.InStep) (allocator : HandleAllocator H)
    (event : DeviceEvent P) :
    (m.onEvent allocator event).InStep ↔ ¬ m.Removes event := by
  rcases onEvent_cases allocator m event with
    ⟨hkeeps, hsame | ⟨devpath, opens, hadds⟩⟩ | ⟨hremoves, devpath, hpath, hremoved⟩
  · rw [hsame]
    exact iff_of_true hm hkeeps
  · rw [hadds]
    exact iff_of_true (hm.addInputDevice allocator devpath opens) hkeeps
  · rw [hremoved]
    exact iff_of_false (not_inStep_removeInputDevice hm hpath) (not_not_intro hremoves)

/-- No path is there twice after any events. -/
theorem paths_nodup_onEvent (hm : m.paths.Nodup) (allocator : HandleAllocator H)
    (event : DeviceEvent P) : (m.onEvent allocator event).paths.Nodup := by
  rcases onEvent_cases allocator m event with
    ⟨-, hsame | ⟨devpath, opens, hadds⟩⟩ | ⟨-, devpath, -, hremoved⟩
  · rwa [hsame]
  · rw [hadds]
    exact paths_nodup_addInputDevice hm allocator devpath opens
  · rw [hremoved]
    exact hm.sublist (List.eraseP_sublist.map InputDevice.mPath)

omit [DecidableEq P] in
theorem inStep_start (opened : List H) : (start opened : InputDevices P H).InStep :=
  ⟨List.nodup_nil, List.nodup_nil, fun _ =>
    iff_of_false (fun hlive => List.not_mem_nil hlive.1) List.not_mem_nil⟩

end InputDevices

/-- The devices and their descriptors stay in step over a sequence of events exactly
if no event takes a device out of the list. -/
theorem inputDevices_inStep_iff {P : Type u} {H : Type v} [DecidableEq P]
    (allocator : HandleAllocator H) (opened : List H) (events : List (DeviceEvent P)) :
    LabelledRun.EachState (DeviceEvent.step allocator) InputDevices.InStep
        (.start opened) events ↔
      LabelledRun.EachStep (DeviceEvent.step allocator)
        (fun m event => ¬ m.Removes event) (.start opened) events := by
  refine LabelledRun.eachState_iff_eachStep (fun m event after hm hstep => ?_)
    (InputDevices.inStep_start opened) events
  obtain rfl := Option.some.inj hstep
  exact InputDevices.inStep_onEvent_iff hm allocator event

/-- No path is ever there twice. -/
theorem inputDevices_paths_nodup {P : Type u} {H : Type v} [DecidableEq P]
    {allocator : HandleAllocator H} {opened : List H} {events : List (DeviceEvent P)}
    {m : InputDevices P H}
    (hrun : LabelledRun.run (DeviceEvent.step allocator) (.start opened) events =
      some m) : m.paths.Nodup := by
  refine LabelledRun.run_invariant (P := fun m => m.paths.Nodup)
    (fun m event after hm hstep => ?_) List.nodup_nil hrun
  obtain rfl := Option.some.inj hstep
  exact InputDevices.paths_nodup_onEvent hm allocator event

theorem exists_free (opened : List Nat) : ∃ fd, fd ∉ opened := by
  obtain ⟨fd, hfd⟩ := Infinite.exists_notMem_finset opened.toFinset
  exact ⟨fd, fun hmem => hfd (List.mem_toFinset.mpr hmem)⟩

theorem lowestFree_fresh (ledger : HandleLedger Nat) :
    Nat.find (exists_free ledger.opened) ∉ ledger.opened :=
  Nat.find_spec (exists_free ledger.opened)

/-- `open` gives the lowest descriptor that is not in use. -/
def lowestFree : HandleAllocator Nat where
  next ledger := Nat.find (exists_free ledger.opened)
  fresh := lowestFree_fresh

/-- A device that is plugged in and out leaves its descriptor open. -/
theorem unplugged_stays_open :
    LabelledRun.run (DeviceEvent.step lowestFree) (.start [])
        [.scan "event0" true, .inotify 16 IN_DELETE "event0" false] =
        some (⟨[], ⟨[0], [0]⟩⟩ : InputDevices String Nat) ∧
      ¬ (⟨[], ⟨[0], [0]⟩⟩ : InputDevices String Nat).InStep := by
  constructor
  · have hfirst : lowestFree.next ⟨[], []⟩ = 0 :=
      (Nat.find_eq_zero _).mpr List.not_mem_nil
    change some (InputDevices.removeInputDevice
      ⟨[⟨"event0", lowestFree.next ⟨[], []⟩⟩],
        HandleLedger.acquire ⟨[], []⟩ (lowestFree.next ⟨[], []⟩)⟩ "event0") = _
    rw [hfirst]
    rfl
  · intro hinStep
    exact List.not_mem_nil
      ((hinStep.open_iff 0).mp ⟨List.mem_cons_self, List.mem_cons_self⟩)

end MyDirectFB

/-
What the devices of the manager have to do with the directory they are in.  Whatever
buffers the kernel hands the changes over in, and whatever keys come in between, a
file is among the devices exactly if it has been opened at some time and not been
deleted since.
-/
import MyDirectFB.InputKeys
import Mathlib.Data.List.Induction
import Mathlib.Tactic.Tauto

namespace MyDirectFB

universe v

variable {H : Type v}

namespace WatchEvent

/-- The file that the event is about. -/
def path (event : WatchEvent) : Option (List UInt8) :=
  event.name.map fun name => devpath name.1.bytes

/-- The event says that the file is new, and it can be opened. -/
def Creates (path : List UInt8) (event : WatchEvent) : Prop :=
  event.path = some path ∧ event.mask &&& IN_CREATE ≠ 0 ∧ event.opens = true

def Deletes (path : List UInt8) (event : WatchEvent) : Prop :=
  event.path = some path ∧ event.mask &&& IN_CREATE = 0 ∧ event.mask &&& IN_DELETE ≠ 0

end WatchEvent

/-- The file has been created by one of the events, or has been there before them, and
none of the later ones deletes it. -/
def StaysPlugged (path : List UInt8) (before : Prop) (events : List WatchEvent) :
    Prop :=
  ∃ front back, events = front ++ back ∧ (∀ event ∈ back, ¬ event.Deletes path) ∧
    ((front = [] ∧ before) ∨
      ∃ earlier event, front = earlier ++ [event] ∧ event.Creates path)

theorem staysPlugged_nil {path : List UInt8} {before : Prop} :
    StaysPlugged path before [] ↔ before := by
  constructor
  · rintro ⟨front, back, hsplit, -, ⟨-, hbefore⟩ | ⟨earlier, event, rfl, -⟩⟩
    · exact hbefore
    · simp at hsplit
  · exact fun hbefore => ⟨[], [], rfl, by simp, .inl ⟨rfl, hbefore⟩⟩

theorem staysPlugged_concat {path : List UInt8} {before : Prop}
    {events : List WatchEvent} {event : WatchEvent} :
    StaysPlugged path before (events ++ [event]) ↔
      event.Creates path ∨ (StaysPlugged path before events ∧ ¬ event.Deletes path) := by
  constructor
  · rintro ⟨front, back, hsplit, hback, hfront⟩
    rcases List.eq_nil_or_concat' back with rfl | ⟨middle, last, rfl⟩
    · rw [List.append_nil] at hsplit
      rcases hfront with ⟨rfl, -⟩ | ⟨earlier, first, rfl, hcreates⟩
      · simp at hsplit
      · obtain ⟨-, hlast⟩ := List.append_inj' hsplit rfl
        obtain rfl := List.singleton_injective hlast
        exact .inl hcreates
    · rw [← List.append_assoc] at hsplit
      obtain ⟨hevents, hlast⟩ := List.append_inj' hsplit rfl
      obtain rfl := List.singleton_injective hlast
      exact .inr ⟨⟨front, middle, hevents,
        fun other hother => hback other (List.mem_append_left _ hother), hfront⟩,
        hback event (by simp)⟩
  · rintro (hcreates | ⟨⟨front, back, rfl, hback, hfront⟩, hkeeps⟩)
    · exact ⟨events ++ [event], [], (List.append_nil _).symm, by simp,
        .inr ⟨events, event, rfl, hcreates⟩⟩
    · refine ⟨front, back ++ [event], List.append_assoc _ _ _, ?_, hfront⟩
      intro other hother
      rcases List.mem_append.mp hother with hback' | hlast
      · exact hback other hback'
      · obtain rfl := List.mem_singleton.mp hlast
        exact hkeeps

namespace InputDevices

variable {P : Type} [DecidableEq P] {allocator : HandleAllocator H}

theorem mem_paths_addInputDevice {m : InputDevices P H} {path devpath : P}
    {opens : Bool} :
    path ∈ (m.addInputDevice allocator devpath opens).paths ↔
      (path = devpath ∧ opens = true) ∨ path ∈ m.paths := by
  unfold addInputDevice
  split
  · next hany =>
      obtain ⟨device, hdevice, hsame⟩ := List.any_eq_true.mp hany
      refine ⟨.inr, fun hmem => hmem.elim ?_ id⟩
      rintro ⟨rfl, -⟩
      exact List.mem_map.mpr ⟨device, hdevice, of_decide_eq_true hsame⟩
  · cases opens with
    | false => simp
    | true => simp [paths, or_comm]

theorem mem_paths_removeInputDevice {m : InputDevices P H} (hm : m.paths.Nodup)
    {path devpath : P} :
    path ∈ (m.removeInputDevice devpath).paths ↔ path ∈ m.paths ∧ path ≠ devpath := by
  have herase : (m.removeInputDevice devpath).paths = m.paths.erase devpath := by
    rw [paths, paths, List.erase_eq_eraseP', List.eraseP_map]
    rfl
  rw [herase, hm.mem_erase_iff, and_comm]

/-- What one event does to the files among the devices. -/
theorem mem_paths_onEvent {m : InputDevices (List UInt8) H} (hm : m.paths.Nodup)
    (event : WatchEvent) {path : List UInt8} :
    path ∈ (m.onEvent allocator event.deviceEvent).paths ↔
      event.Creates path ∨ (path ∈ m.paths ∧ ¬ event.Deletes path) := by
  unfold WatchEvent.Creates WatchEvent.Deletes WatchEvent.path
  cases hname : event.name with
  | none =>
      simp [WatchEvent.deviceEvent, WatchEvent.nameBytes, hname, onEvent]
  | some name =>
      have hlen : event.nameBytes.length ≠ 0 := by
        simp [WatchEvent.nameBytes, hname]
      have hpath : some (devpath name.1.bytes) = some path ↔
          path = devpath name.1.bytes := by
        rw [Option.some.injEq, eq_comm]
      rw [WatchEvent.deviceEvent, onEvent, if_pos hlen, hname, Option.map_some, hpath]
      by_cases hcreate : event.mask &&& IN_CREATE ≠ 0
      · rw [if_pos hcreate, Option.elim_some, mem_paths_addInputDevice]
        tauto
      · rw [if_neg hcreate, Option.elim_some]
        rw [not_not] at hcreate
        by_cases hdelete : event.mask &&& IN_DELETE ≠ 0
        · rw [if_pos hdelete, mem_paths_removeInputDevice hm]
          tauto
        · rw [if_neg hdelete]
          tauto

theorem paths_nodup_onWatchEvents {m : InputDevices (List UInt8) H}
    (hm : m.paths.Nodup) (events : List WatchEvent) :
    (m.onWatchEvents allocator events).paths.Nodup := by
  induction events generalizing m with
  | nil => exact hm
  | cons event rest ih => exact ih (paths_nodup_onEvent hm allocator event.deviceEvent)

/-- The scan of the directory finds no file twice. -/
theorem paths_nodup_scanInputDevice {m : InputDevices (List UInt8) H}
    (hm : m.paths.Nodup) (entries : List DirEntry) :
    (m.scanInputDevice allocator entries).paths.Nodup := by
  unfold scanInputDevice
  induction entries generalizing m with
  | nil => exact hm
  | cons entry rest ih =>
      rw [List.foldl_cons]
      split
      · exact ih hm
      · exact ih (paths_nodup_addInputDevice hm allocator _ entry.opens)

/-- The files among the devices after any events. -/
theorem mem_paths_onWatchEvents {m : InputDevices (List UInt8) H} (hm : m.paths.Nodup)
    (events : List WatchEvent) {path : List UInt8} :
    path ∈ (m.onWatchEvents allocator events).paths ↔
      StaysPlugged path (path ∈ m.paths) events := by
  induction events using List.reverseRecOn with
  | nil => exact staysPlugged_nil.symm
  | append_singleton events event ih =>
      rw [onWatchEvents_append, staysPlugged_concat, ← ih]
      exact mem_paths_onEvent (paths_nodup_onWatchEvents hm events) event

end InputDevices

namespace InputThread

variable [DecidableEq H] {allocator : HandleAllocator H} {attrib : H → DeviceAttrib}

theorem step_devices {start : InputDevices (List UInt8) H} {s t : InputThread H}
    {action : InputAction H}
    (hs : s.devices = start.onWatchEvents allocator s.watch.taken)
    (hstep : s.step allocator attrib action = some t) :
    t.devices = start.onWatchEvents allocator t.watch.taken := by
  cases step_move hstep with
  | readWatch count hpc =>
      change s.devices.onWatchEvents allocator (s.watch.queue.take count) =
        start.onWatchEvents allocator (s.watch.taken ++ s.watch.queue.take count)
      rw [hs, InputDevices.onWatchEvents_append]
  | deviceEvent | watchEvent | leaves | enters | select | receive | pass | endPass
  | write | repeatKey | onFdReadable | exit => exact hs

/-- In every run behind a scan of the directory, the devices of the manager are the
files that have been opened and not been deleted since, as far as it has read the events
of the directory. -/
theorem devices_followDirectory (opened : List H) (entries : List DirEntry)
    {actions : List (InputAction H)} {s : InputThread H}
    (hrun : LabelledRun.run (step allocator attrib)
      (init (.scanInputDevice allocator (.start opened) entries)) actions = some s)
    (path : List UInt8) :
    path ∈ s.devices.paths ↔ StaysPlugged path
      (path ∈ (InputDevices.scanInputDevice allocator (.start opened) entries).paths)
      s.watch.taken := by
  have hs := LabelledRun.run_invariant
    (P := fun r => r.devices = InputDevices.onWatchEvents allocator
      (.scanInputDevice allocator (.start opened) entries) r.watch.taken)
    (fun _ _ _ hr hstep => step_devices hr hstep) rfl hrun
  rw [hs]
  have hnone : (InputDevices.start opened : InputDevices (List UInt8) H).paths.Nodup :=
    List.nodup_nil
  exact InputDevices.mem_paths_onWatchEvents
    (InputDevices.paths_nodup_scanInputDevice hnone entries) s.watch.taken

theorem pluggedWhilePressing_devices :
    ∃ s, LabelledRun.run (step .numbered fun _ => ⟨none, none⟩) (init keypad)
        pluggedWhilePressing = some s ∧
      s.watch.taken = [event1Created] ∧ ∀ path, path ∈ s.devices.paths ↔
        StaysPlugged path (path ∈ keypad.paths) s.watch.taken :=
  ⟨_, rfl, rfl, @devices_followDirectory Nat _ .numbered (fun _ => ⟨none, none⟩)
    [] keypadDirectory pluggedWhilePressing _ rfl⟩

end InputThread

end MyDirectFB

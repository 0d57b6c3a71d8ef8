/-
The thread of `InputManager::run` (input/input_manager.cpp) with what is around it:
the kernel, which queues the events of each device and of the directory, the thread
of the repeat timer, which writes to the same pipe, and the event loop, which reads
it.  The kernel's queues and the pipe never fill up, and every descriptor fits into
an `fd_set`.  What the repeat timer writes is left open; KeyRepeat has it.
-/
import MyDirectFB.InotifyEvents
import MyDirectFB.KeyRepeat
import MyDirectFB.Keymap
import MyDirectFB.Lib.Channel

namespace MyDirectFB

universe v

/-- `struct input_event`, without its time. -/
structure KernelEvent where
  type : UInt16
  code : UInt16
  value : Int32
deriving Repr, DecidableEq

def EV_KEY : UInt16 := 1

/-- What the two ioctls of `loadAttrib` give: the name, and the version, the vendor
and the product. -/
structure DeviceAttrib where
  name : Option CString
  id : Option (Int × Int × Int)
deriving Repr, DecidableEq

/-- `InputDevice::loadAttrib`, the type. -/
def loadAttrib (attrib : DeviceAttrib) : InputDeviceType :=
  match attrib.name, attrib.id with
  | some name, some (version, vendor, product) =>
      getInputDeviceType version vendor product name
  | _, _ => .INPUT_DEVICE_UNKNOWN

def KeyState.ofValue (value : Int32) : Option KeyState :=
  if value = 0 then some .KEY_RELEASED
  else if value = 1 then some .KEY_PRESSED
  else if value = 2 then some .KEY_REPEATED
  else none

/-- `keyValue`, for the events that have one. -/
def KernelEvent.keyValue (deviceType : InputDeviceType) (event : KernelEvent) :
    Option KeyEvent :=
  if event.type = EV_KEY then
    (KeyState.ofValue event.value).map fun state =>
      ⟨(convertKeyCodeFromMap deviceType event.code.toNat).value, state⟩
  else none

/-- An entry of the directory. -/
structure DirEntry where
  d_name : List UInt8
  isDirectory : Bool
  opens : Bool
deriving Repr, DecidableEq

/-- `scanInputDevice`, for a directory that can be opened. -/
def InputDevices.scanInputDevice {H : Type v} (allocator : HandleAllocator H)
    (m : InputDevices (List UInt8) H) (entries : List DirEntry) :
    InputDevices (List UInt8) H :=
  entries.foldl (fun m entry =>
    if entry.d_name = ascii "." ∨ entry.d_name = ascii ".." ∨
        entry.isDirectory = true then m
    else m.addInputDevice allocator (devpath entry.d_name) entry.opens) m

/-- Where the thread is in `run`.  `rest` has the devices that the loop over them
has not come to. -/
inductive InputPc (H : Type v) where
  /-- In front of `while(!mExitProc)`. -/
  | testing
  | selecting
  /-- `mFD` is ready. -/
  | reading
  | visiting (ready : List H) (rest : List (InputDevice (List UInt8) H))
  /-- A key of `fd` is in `keyValue`. -/
  | writing (fd : H) (key : KeyEvent) (ready : List H)
      (rest : List (InputDevice (List UInt8) H))
  | ended
deriving Repr, DecidableEq

/-- What `select` finds: a signal, an error, or the descriptors that are ready, of
which a timeout finds none. -/
inductive InputSelect (H : Type v) where
  | interrupted
  | failed
  | ready (watch : Bool) (fds : List H)
deriving Repr, DecidableEq

/-- The manager and its surroundings.  The messages of the pipe have the device that
they come from, and `none` for the repeat timer; `passes` counts the passes of `run`
that have been begun. -/
structure InputThread (H : Type v) where
  devices : InputDevices (List UInt8) H
  watch : Channel WatchEvent
  unread : H → Channel KernelEvent
  mPipe : Channel (Option H × KeyEvent)
  mExitProc : Bool
  pc : InputPc H
  passes : Nat

inductive InputAction (H : Type v) where
  /-- The kernel queues an event. -/
  | deviceEvent (fd : H) (event : KernelEvent)
  | watchEvent (event : WatchEvent)
  | test
  | select (outcome : InputSelect H)
  /-- `read` gives so many events of the directory. -/
  | readWatch (count : Nat)
  /-- The loop comes to the next device, and reads an event if it is ready. -/
  | visit (succeeds : Bool)
  | endPass
  | write
  /-- The repeat timer writes a key. -/
  | repeatKey (code : Int32)
  /-- `onFdReadable` reads a key. -/
  | onFdReadable
  /-- The destructor sets `mExitProc`. -/
  | exit
deriving Repr, DecidableEq

namespace InputThread

variable {H : Type v}

/-- The start of the thread, behind the scan. -/
def init (devices : InputDevices (List UInt8) H) : InputThread H where
  devices := devices
  watch := Channel.empty
  unread _ := Channel.empty
  mPipe := Channel.empty
  mExitProc := false
  pc := .testing
  passes := 0

/-- What `select` may find: the directory is ready exactly when it has an event, and
every device that has one is. -/
def Admits (s : InputThread H) : InputSelect H → Prop
  | .interrupted | .failed => True
  | .ready watch fds => (watch = true ↔ s.watch.queue ≠ []) ∧
      ∀ fd ∈ s.devices.fds, (s.unread fd).queue ≠ [] → fd ∈ fds

instance [DecidableEq H] (s : InputThread H) (outcome : InputSelect H) :
    Decidable (s.Admits outcome) :=
  match outcome with
  | .interrupted | .failed => isTrue trivial
  | .ready _ _ => inferInstanceAs (Decidable ((_ ↔ _) ∧ ∀ fd ∈ _, _ → _))

/-- Where `run` goes from its `select`. -/
def selected (s : InputThread H) : InputSelect H → InputPc H
  | .interrupted => .testing
  | .failed => .ended
  | .ready true _ => .reading
  | .ready false fds => .visiting fds s.devices.mInputDevices

/-- Where `run` goes when it has read an event. -/
def received (deviceType : InputDeviceType) (fd : H) (event : KernelEvent)
    (ready : List H) (rest : List (InputDevice (List UInt8) H)) : InputPc H :=
  match event.keyValue deviceType with
  | some key => .writing fd key ready rest
  | none => .visiting ready rest

variable [DecidableEq H]

/-- The transition function. -/
def step (allocator : HandleAllocator H) (attrib : H → DeviceAttrib)
    (s : InputThread H) : InputAction H → Option (InputThread H)
  | .deviceEvent fd event =>
      some { s with
        unread := Function.update s.unread fd ((s.unread fd).send [event]) }
  | .watchEvent event => some { s with watch := s.watch.send [event] }
  | .test =>
      match s.pc with
      | .testing =>
          if s.mExitProc then some { s with pc := .ended }
          else some { s with pc := .selecting, passes := s.passes + 1 }
      | _ => none
  | .select outcome =>
      match s.pc with
      | .selecting =>
          if s.Admits outcome then some { s with pc := s.selected outcome } else none
      | _ => none
  | .readWatch count =>
      match s.pc with
      | .reading =>
          let events := s.watch.queue.take count
          if (events.flatMap WatchEvent.encode).length ≤ BUF_LEN then
            (s.devices.handleBuffer allocator (events.map WatchEvent.opens)
              (events.flatMap WatchEvent.encode)).map fun devices =>
                { s with
                  devices := devices
                  watch := s.watch.takeMany count
                  pc := .testing }
          else none
      | _ => none
  | .visit succeeds =>
      match s.pc with
      | .visiting ready (device :: rest) =>
          if device.mFD ∈ ready ∧ succeeds = true then
            (s.unread device.mFD).take?.map fun (event, unread) =>
              { s with
                unread := Function.update s.unread device.mFD unread
                pc := received (loadAttrib (attrib device.mFD)) device.mFD event
                  ready rest }
          else some { s with pc := .visiting ready rest }
      | _ => none
  | .endPass =>
      match s.pc with
      | .visiting _ [] => some { s with pc := .testing }
      | _ => none
  | .write =>
      match s.pc with
      | .writing fd key ready rest =>
          some { s with
            mPipe := s.mPipe.send [(some fd, key)]
            pc := .visiting ready rest }
      | _ => none
  | .repeatKey code =>
      some { s with mPipe := s.mPipe.send [(none, ⟨code, .KEY_REPEATED⟩)] }
  | .onFdReadable => s.mPipe.take?.map fun (_, mPipe) => { s with mPipe := mPipe }
  | .exit => some { s with mExitProc := true }

/-- A step, with what is known of the state before it. -/
inductive Move (allocator : HandleAllocator H) (attrib : H → DeviceAttrib)
    (s : InputThread H) : InputAction H → InputThread H → Prop
  | deviceEvent (fd : H) (event : KernelEvent) :
      Move allocator attrib s (.deviceEvent fd event) { s with
        unread := Function.update s.unread fd ((s.unread fd).send [event]) }
  | watchEvent (event : WatchEvent) :
      Move allocator attrib s (.watchEvent event)
        { s with watch := s.watch.send [event] }
  | leaves (hpc : s.pc = .testing) (hexit : s.mExitProc = true) :
      Move allocator attrib s .test { s with pc := .ended }
  | enters (hpc : s.pc = .testing) (hexit : s.mExitProc = false) :
      Move allocator attrib s .test
        { s with pc := .selecting, passes := s.passes + 1 }
  | select (outcome : InputSelect H) (hpc : s.pc = .selecting)
      (hadmits : s.Admits outcome) :
      Move allocator attrib s (.select outcome) { s with pc := s.selected outcome }
  | readWatch (count : Nat) (hpc : s.pc = .reading) :
      Move allocator attrib s (.readWatch count) { s with
        devices := s.devices.onWatchEvents allocator (s.watch.queue.take count)
        watch := s.watch.takeMany count
        pc := .testing }
  | receive (device : InputDevice (List UInt8) H) (event : KernelEvent)
      (unread : Channel KernelEvent) (ready : List H)
      (rest : List (InputDevice (List UInt8) H))
      (hpc : s.pc = .visiting ready (device :: rest)) (hready : device.mFD ∈ ready)
      (htake : (s.unread device.mFD).take? = some (event, unread)) :
      Move allocator attrib s (.visit true) { s with
        unread := Function.update s.unread device.mFD unread
        pc := received (loadAttrib (attrib device.mFD)) device.mFD event ready rest }
  | pass (device : InputDevice (List UInt8) H) (succeeds : Bool) (ready : List H)
      (rest : List (InputDevice (List UInt8) H))
      (hpc : s.pc = .visiting ready (device :: rest))
      (hnot : device.mFD ∉ ready ∨ succeeds = false) :
      Move allocator attrib s (.visit succeeds) { s with pc := .visiting ready rest }
  | endPass (ready : List H) (hpc : s.pc = .visiting ready []) :
      Move allocator attrib s .endPass { s with pc := .testing }
  | write (fd : H) (key : KeyEvent) (ready : List H)
      (rest : List (InputDevice (List UInt8) H))
      (hpc : s.pc = .writing fd key ready rest) :
      Move allocator attrib s .write { s with
        mPipe := s.mPipe.send [(some fd, key)]
        pc := .visiting ready rest }
  | repeatKey (code : Int32) :
      Move allocator attrib s (.repeatKey code)
        { s with mPipe := s.mPipe.send [(none, ⟨code, .KEY_REPEATED⟩)] }
  | onFdReadable (message : Option H × KeyEvent) (mPipe : Channel (Option H × KeyEvent))
      (htake : s.mPipe.take? = some (message, mPipe)) :
      Move allocator attrib s .onFdReadable { s with mPipe := mPipe }
  | exit : Move allocator attrib s .exit { s with mExitProc := true }

theorem step_move {allocator : HandleAllocator H} {attrib : H → DeviceAttrib}
    {s t : InputThread H} {action : InputAction H}
    (hstep : s.step allocator attrib action = some t) :
    s.Move allocator attrib action t := by
  cases action with
  | deviceEvent fd event => exact Option.some.inj hstep ▸ .deviceEvent fd event
  | watchEvent event => exact Option.some.inj hstep ▸ .watchEvent event
  | test =>
      cases hpc : s.pc <;> simp only [step, hpc, reduceCtorEq] at hstep
      split at hstep
      · next hexit => exact Option.some.inj hstep ▸ .leaves hpc hexit
      · next hexit =>
          exact Option.some.inj hstep ▸ .enters hpc (Bool.eq_false_of_not_eq_true hexit)
  | select outcome =>
      cases hpc : s.pc <;> simp only [step, hpc, reduceCtorEq] at hstep
      obtain ⟨hadmits, hnext⟩ := Option.ite_none_right_eq_some.mp hstep
      exact Option.some.inj hnext ▸ .select outcome hpc hadmits
  | readWatch count =>
      cases hpc : s.pc <;> simp only [step, hpc, reduceCtorEq] at hstep
      obtain ⟨hlength, hnext⟩ := Option.ite_none_right_eq_some.mp hstep
      rw [InputDevices.handleBuffer_encode allocator hlength, Option.map_some] at hnext
      exact Option.some.inj hnext ▸ .readWatch count hpc
  | visit succeeds =>
      cases hpc : s.pc <;> simp only [step, hpc, reduceCtorEq] at hstep
      rename_i ready rest
      cases rest with
      | nil => cases hstep
      | cons device rest =>
          simp only at hstep
          split at hstep
          · next hready =>
              obtain ⟨hready, rfl⟩ := hready
              obtain ⟨⟨event, unread⟩, htake, rfl⟩ := Option.map_eq_some_iff.mp hstep
              exact .receive device event unread ready rest hpc hready htake
          · next hnot =>
              refine Option.some.inj hstep ▸ .pass device succeeds ready rest hpc ?_
              rwa [not_and_or, Bool.not_eq_true] at hnot
  | endPass =>
      cases hpc : s.pc <;> simp only [step, hpc, reduceCtorEq] at hstep
      rename_i ready rest
      cases rest with
      | nil => exact Option.some.inj hstep ▸ .endPass ready hpc
      | cons device rest => cases hstep
  | write =>
      cases hpc : s.pc <;> simp only [step, hpc, reduceCtorEq] at hstep
      exact Option.some.inj hstep ▸ .write _ _ _ _ hpc
  | repeatKey code => exact Option.some.inj hstep ▸ .repeatKey code
  | onFdReadable =>
      obtain ⟨⟨message, mPipe⟩, htake, rfl⟩ := Option.map_eq_some_iff.mp hstep
      exact .onFdReadable message mPipe htake
  | exit => exact Option.some.inj hstep ▸ .exit

end InputThread

end MyDirectFB

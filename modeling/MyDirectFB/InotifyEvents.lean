/-
The events of inotify as `InputManager::run` finds them in its buffer
(input/input_manager.cpp): each has a header of 16 bytes that says how long the
name behind it is.  A buffer of whole events leads to the same devices as the
events one after another, however the kernel spreads them over buffers.
-/
import MyDirectFB.InputDevices
import MyDirectFB.Lib.CString
import MyDirectFB.Lib.LittleEndian
import MyDirectFB.StringFunctions

namespace MyDirectFB

universe v

def DEVICE_PATH : List UInt8 := ascii "/dev/input"

/-- `sizeof(struct inotify_event)`. -/
def EVENT_SIZE : Nat := 16

def BUF_LEN : Nat := 1024 * (EVENT_SIZE + 16)

/-- What `sprintf` writes to `devpath`. -/
def devpath (name : List UInt8) : List UInt8 := DEVICE_PATH ++ ascii "/" ++ name

/-- A 32-bit field of the event at the beginning of `rest`. -/
def eventField (rest : List UInt8) (offset : Nat) : Nat :=
  LittleEndian.decode ((rest.drop offset).take 4)

namespace InputDevices

variable {H : Type v} (allocator : HandleAllocator H)

/-- The loop over a buffer, of which `rest` is still ahead; `opens` is what `open`
does for one event after another.  There is no result if an event is cut off. -/
def handleEvents : Nat → List Bool → InputDevices (List UInt8) H → List UInt8 →
    Option (InputDevices (List UInt8) H)
  | 0, _, _, _ => none
  | fuel + 1, opens, m, rest =>
      if rest = [] then some m
      else if rest.length < EVENT_SIZE then none
      else
        let len := eventField rest 12
        let event := DeviceEvent.inotify len (BitVec.ofNat 32 (eventField rest 4))
          (devpath (CString.ofMemory (rest.drop EVENT_SIZE)).bytes)
          (opens.headD false)
        handleEvents fuel opens.tail (m.onEvent allocator event)
          (rest.drop (EVENT_SIZE + len))

/-- What `run` does with a buffer. -/
def handleBuffer (opens : List Bool) (m : InputDevices (List UInt8) H)
    (buffer : List UInt8) : Option (InputDevices (List UInt8) H) :=
  handleEvents allocator (buffer.length + 1) opens m buffer

end InputDevices

/-! ### What the kernel puts into a buffer -/

/-- An event, with the name of the file and how many NULs follow the one behind it,
and whether the file can be opened when the manager comes to it. -/
structure WatchEvent where
  wd : Nat
  mask : BitVec 32
  cookie : Nat
  name : Option (CString × Nat)
  opens : Bool
deriving Repr, DecidableEq

namespace WatchEvent

def nameBytes (event : WatchEvent) : List UInt8 :=
  match event.name with
  | none => []
  | some (name, padding) => name.bytes ++ List.replicate (padding + 1) 0

def encode (event : WatchEvent) : List UInt8 :=
  LittleEndian.encode 4 event.wd ++ LittleEndian.encode 4 event.mask.toNat ++
    LittleEndian.encode 4 event.cookie ++
    LittleEndian.encode 4 event.nameBytes.length ++ event.nameBytes

/-- What the event says. -/
def deviceEvent (event : WatchEvent) : DeviceEvent (List UInt8) :=
  .inotify event.nameBytes.length event.mask
    (event.name.elim [] fun name => devpath name.1.bytes) event.opens

theorem length_encode (event : WatchEvent) :
    event.encode.length = EVENT_SIZE + event.nameBytes.length := by
  simp only [encode, EVENT_SIZE, List.length_append, LittleEndian.length_encode]

/-- The bytes behind the first fields of an event. -/
theorem drop_encode (event : WatchEvent) (behind : List UInt8) :
    (event.encode ++ behind).drop 4 =
        LittleEndian.encode 4 event.mask.toNat ++
          (LittleEndian.encode 4 event.cookie ++
            (LittleEndian.encode 4 event.nameBytes.length ++
              (event.nameBytes ++ behind))) ∧
      (event.encode ++ behind).drop 12 =
        LittleEndian.encode 4 event.nameBytes.length ++ (event.nameBytes ++ behind) ∧
      (event.encode ++ behind).drop EVENT_SIZE = event.nameBytes ++ behind := by
  have hassoc : event.encode ++ behind = LittleEndian.encode 4 event.wd ++
      (LittleEndian.encode 4 event.mask.toNat ++
        (LittleEndian.encode 4 event.cookie ++
          (LittleEndian.encode 4 event.nameBytes.length ++
            (event.nameBytes ++ behind)))) := by
    simp [encode]
  have hdrop (value : Nat) (rest : List UInt8) :
      (LittleEndian.encode 4 value ++ rest).drop 4 = rest :=
    List.drop_left' (LittleEndian.length_encode 4 value)
  rw [hassoc, show EVENT_SIZE = 4 + (4 + (4 + 4)) from rfl, show 12 = 4 + (4 + 4) from rfl]
  simp only [← List.drop_drop, hdrop, and_self]

theorem take_field {value : Nat} (hvalue : value < 256 ^ 4) (behind : List UInt8) :
    LittleEndian.decode ((LittleEndian.encode 4 value ++ behind).take 4) = value := by
  rw [List.take_left' (LittleEndian.length_encode 4 value),
    LittleEndian.decode_encode_of_lt hvalue]

theorem mask_eq (event : WatchEvent) (behind : List UInt8) :
    BitVec.ofNat 32 (eventField (event.encode ++ behind) 4) = event.mask := by
  rw [eventField, (event.drop_encode behind).1, take_field, BitVec.ofNat_toNat,
    BitVec.setWidth_eq]
  exact event.mask.isLt

theorem len_eq (event : WatchEvent) (hlen : event.nameBytes.length < 256 ^ 4)
    (behind : List UInt8) :
    eventField (event.encode ++ behind) 12 = event.nameBytes.length := by
  rw [eventField, (event.drop_encode behind).2.1, take_field hlen]

/-- The devices after an event do not depend on a name that it does not have. -/
theorem onEvent_eq {H : Type v} (allocator : HandleAllocator H)
    (m : InputDevices (List UInt8) H) (event : WatchEvent) (behind : List UInt8) :
    m.onEvent allocator (.inotify event.nameBytes.length event.mask
        (devpath (CString.ofMemory (event.nameBytes ++ behind)).bytes) event.opens) =
      m.onEvent allocator event.deviceEvent := by
  cases hname : event.name with
  | none => simp [deviceEvent, nameBytes, hname, InputDevices.onEvent]
  | some name =>
      have hbytes : event.nameBytes ++ behind = name.1.bytes ++
          0 :: (List.replicate name.2 0 ++ behind) := by
        simp [nameBytes, hname, List.replicate_succ]
      rw [deviceEvent, hbytes, CString.ofMemory_append, hname]
      rfl

end WatchEvent

namespace InputDevices

variable {H : Type v} (allocator : HandleAllocator H)

/-- The devices after events one by one. -/
def onWatchEvents (m : InputDevices (List UInt8) H) (events : List WatchEvent) :
    InputDevices (List UInt8) H :=
  events.foldl (fun m event => m.onEvent allocator event.deviceEvent) m

theorem onWatchEvents_append (m : InputDevices (List UInt8) H)
    (front back : List WatchEvent) :
    m.onWatchEvents allocator (front ++ back) =
      (m.onWatchEvents allocator front).onWatchEvents allocator back :=
  List.foldl_append

theorem handleEvents_encode {fuel : Nat} {events : List WatchEvent}
    (hfuel : events.length < fuel)
    (hlength : (events.flatMap WatchEvent.encode).length < 256 ^ 4)
    (m : InputDevices (List UInt8) H) :
    handleEvents allocator fuel (events.map WatchEvent.opens) m
        (events.flatMap WatchEvent.encode) =
      some (m.onWatchEvents allocator events) := by
  induction events generalizing fuel m with
  | nil =>
      cases fuel with
      | zero => exact absurd hfuel (Nat.not_lt_zero _)
      | succ fuel => rfl
  | cons event rest ih =>
      cases fuel with
      | zero => exact absurd hfuel (Nat.not_lt_zero _)
      | succ fuel =>
          rw [List.flatMap_cons, List.length_append, event.length_encode] at hlength
          have hsize : EVENT_SIZE ≤
              (event.encode ++ rest.flatMap WatchEvent.encode).length := by
            rw [List.length_append, event.length_encode]
            omega
          have hne : event.encode ++ rest.flatMap WatchEvent.encode ≠ [] :=
            List.ne_nil_of_length_pos (Nat.lt_of_lt_of_le (by decide) hsize)
          have hlen := event.len_eq (by omega) (rest.flatMap WatchEvent.encode)
          have hbehind : (event.encode ++ rest.flatMap WatchEvent.encode).drop
              (EVENT_SIZE + event.nameBytes.length) = rest.flatMap WatchEvent.encode :=
            List.drop_left' event.length_encode
          rw [List.flatMap_cons, handleEvents, if_neg hne, if_neg (Nat.not_lt.mpr hsize)]
          simp only [hlen, hbehind, event.mask_eq, (event.drop_encode _).2.2,
            List.map_cons, List.headD_cons, List.tail_cons, event.onEvent_eq]
          exact ih (Nat.lt_of_succ_lt_succ hfuel) (by omega) _

/-- A buffer of whole events has the effect of the events in it. -/
theorem handleBuffer_encode {events : List WatchEvent}
    (hlength : (events.flatMap WatchEvent.encode).length ≤ BUF_LEN)
    (m : InputDevices (List UInt8) H) :
    handleBuffer allocator (events.map WatchEvent.opens) m
        (events.flatMap WatchEvent.encode) =
      some (m.onWatchEvents allocator events) := by
  refine handleEvents_encode allocator ?_ (Nat.lt_of_le_of_lt hlength (by decide)) m
  have hevents : events.length ≤ (events.flatMap WatchEvent.encode).length := by
    clear hlength
    induction events with
    | nil => exact Nat.zero_le _
    | cons event rest ih =>
        rw [List.flatMap_cons, List.length_append, event.length_encode,
          List.length_cons]
        unfold EVENT_SIZE
        omega
  omega

end InputDevices

end MyDirectFB

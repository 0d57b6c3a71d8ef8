/-
The event pipe of ui/directfb/container.cpp: threads that post events for
containers, each with several writes, and the event loop that reads them back.
A write of a field is atomic and complete, and a read waits until the field is
there, so that none of the error branches is taken.
-/
import MyDirectFB.Lib.LittleEndian
import Mathlib.Logic.Function.Basic

namespace MyDirectFB

universe u

def CONTAINER_REUEST_SHOW : Int32 := 0
def CONTAINER_REUEST_HIDE : Int32 := 1
def CONTAINER_REUEST_FOCUS : Int32 := 2
def CONTAINER_REUEST_MESSAGE : Int32 := 3

/-- What `onFdReadable` hands to a container: the event, and for a message its
id and parameter. -/
structure Event where
  eventID : Int32
  container : UInt64
  message : Option (Int32 × UInt64)
deriving Repr, DecidableEq

/-- The `sizeof(int)` bytes of an `int`. -/
def intBytes (val : Int32) : List UInt8 :=
  LittleEndian.encode 4 val.toUInt32.toNat

def intOfBytes (bytes : List UInt8) : Int32 :=
  (UInt32.ofNat (LittleEndian.decode bytes)).toInt32

/-- The bytes of a pointer. -/
def pointerBytes (val : UInt64) : List UInt8 :=
  LittleEndian.encode 8 val.toNat

def pointerOfBytes (bytes : List UInt8) : UInt64 :=
  UInt64.ofNat (LittleEndian.decode bytes)

@[simp] theorem length_intBytes (val : Int32) : (intBytes val).length = 4 :=
  LittleEndian.length_encode _ _

@[simp] theorem length_pointerBytes (val : UInt64) :
    (pointerBytes val).length = 8 :=
  LittleEndian.length_encode _ _

@[simp] theorem intOfBytes_intBytes (val : Int32) :
    intOfBytes (intBytes val) = val := by
  rw [intOfBytes, intBytes,
    LittleEndian.decode_encode_of_lt val.toUInt32.toNat_lt]
  simp

@[simp] theorem pointerOfBytes_pointerBytes (val : UInt64) :
    pointerOfBytes (pointerBytes val) = val := by
  rw [pointerOfBytes, pointerBytes,
    LittleEndian.decode_encode_of_lt val.toNat_lt]
  simp

/-! ### Posting -/

/-- The writes of `ContainerEvent::post`. -/
def post (eventID : Int32) (container : UInt64) : List (List UInt8) :=
  [intBytes eventID, pointerBytes container]

/-- The writes of `ContainerEvent::postMessage`. -/
def postMessage (container : UInt64) (messageId : Int32) (param : UInt64) :
    List (List UInt8) :=
  [intBytes CONTAINER_REUEST_MESSAGE, pointerBytes container,
    intBytes messageId, pointerBytes param]

/-- A container, by its address. -/
structure Container where
  this : UInt64
  ne_null : this ≠ 0
deriving Repr, DecidableEq

/-- The calls of the functions of a container that post.  There are no other
callers of `post` and `postMessage`. -/
inductive ContainerCall where
  | show (container : Container)
  | hide (container : Container)
  | requestFocus (container : Container)
  | sendMessage (container : Container) (id : Int32) (param : UInt64)
deriving Repr, DecidableEq

def ContainerCall.writes : ContainerCall → List (List UInt8)
  | .show container => post CONTAINER_REUEST_SHOW container.this
  | .hide container => post CONTAINER_REUEST_HIDE container.this
  | .requestFocus container => post CONTAINER_REUEST_FOCUS container.this
  | .sendMessage container id param => postMessage container.this id param

/-- The event a call is meant to post. -/
def ContainerCall.event : ContainerCall → Event
  | .show container => ⟨CONTAINER_REUEST_SHOW, container.this, none⟩
  | .hide container => ⟨CONTAINER_REUEST_HIDE, container.this, none⟩
  | .requestFocus container => ⟨CONTAINER_REUEST_FOCUS, container.this, none⟩
  | .sendMessage container id param =>
      ⟨CONTAINER_REUEST_MESSAGE, container.this, some (id, param)⟩

/-! ### Reading -/

/-- Where `onFdReadable` is: before the read of a field, with the fields it has
read. -/
inductive ReaderPc where
  | atEventID
  | atContainer (eventID : Int32)
  | atMessageId (container : UInt64)
  | atParam (container : UInt64) (messageId : Int32)
deriving Repr, DecidableEq

/-- The number of bytes the next read asks for. -/
def ReaderPc.asked : ReaderPc → Nat
  | .atEventID => 4
  | .atContainer _ => 8
  | .atMessageId _ => 4
  | .atParam _ _ => 8

/-- `if (container != NULL)` before a container is called. -/
def dispatch (event : Event) : List Event :=
  if event.container ≠ 0 then [event] else []

/-- What `onFdReadable` does with the bytes of a field, up to its next read: the
fields it has now, and the events it dispatches. -/
def ReaderPc.onRead (bytes : List UInt8) : ReaderPc → ReaderPc × List Event
  | .atEventID => (.atContainer (intOfBytes bytes), [])
  | .atContainer eventID =>
      let container := pointerOfBytes bytes
      if eventID = CONTAINER_REUEST_SHOW ∨ eventID = CONTAINER_REUEST_HIDE ∨
          eventID = CONTAINER_REUEST_FOCUS then
        (.atEventID, dispatch ⟨eventID, container, none⟩)
      else if eventID = CONTAINER_REUEST_MESSAGE then
        (.atMessageId container, [])
      else (.atEventID, [])
  | .atMessageId container => (.atParam container (intOfBytes bytes), [])
  | .atParam container messageId =>
      (.atEventID, dispatch ⟨CONTAINER_REUEST_MESSAGE, container,
        some (messageId, pointerOfBytes bytes)⟩)

/-! ### Threads -/

/-- The pipe shared by the threads `T` and the event loop.  `posting` holds the
writes a thread has still to do, `posted` the calls of a thread and
`dispatched` the events the event loop has dispatched. -/
structure EventPipe (T : Type u) where
  pipe : List UInt8
  posting : T → List (List UInt8)
  reader : ReaderPc
  posted : T → List ContainerCall
  dispatched : List Event

variable {T : Type u}

def EventPipe.init : EventPipe T where
  pipe := []
  posting _ := []
  reader := .atEventID
  posted _ := []
  dispatched := []

/-- A call up to its first write, a further write of a thread, or a read of the
event loop. -/
inductive PipeStep (T : Type u) where
  | call (thread : T) (call : ContainerCall)
  | write (thread : T)
  | read
deriving Repr, DecidableEq

variable [DecidableEq T]

/-- One write of `thread`, which has `writes` to do. -/
def EventPipe.write (s : EventPipe T) (thread : T) :
    List (List UInt8) → Option (EventPipe T)
  | [] => none
  | bytes :: rest =>
      some { s with
        pipe := s.pipe ++ bytes
        posting := Function.update s.posting thread rest }

/-- The transition function. -/
def EventPipe.step (s : EventPipe T) : PipeStep T → Option (EventPipe T)
  | .call thread call =>
      if s.posting thread = [] then
        let calls := s.posted thread ++ [call]
        { s with
          posted := Function.update s.posted thread calls }.write thread
            call.writes
      else none
  | .write thread => s.write thread (s.posting thread)
  | .read =>
      if s.reader.asked ≤ s.pipe.length then
        let result := s.reader.onRead (s.pipe.take s.reader.asked)
        some { s with
          pipe := s.pipe.drop s.reader.asked
          reader := result.1
          dispatched := s.dispatched ++ result.2 }
      else none

end MyDirectFB

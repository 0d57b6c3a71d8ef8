/-
The byte buffer of utils/byte_buffer.cpp and the calls of any number of threads
on it.  Each span under `mLock` is one step: a call runs from its entry to its
return or to its condition wait, and from the end of the wait to its return.
`pthread_cond_signal` has no step of its own, since a wait may end at any time
anyway.  `ByteBuffer_Delete` and the two size queries are left out.
-/
import MyDirectFB.Lib.RingBuffer
import Mathlib.Logic.Function.Basic

namespace MyDirectFB

universe u

/-- The data members of `ByteBuffer_t` that are not synchronisation objects. -/
structure ByteBuffer where
  mEOS : Bool
  mCapacity : Int
  mSize : Int
  mFront : Int
  mRear : Int
  mBuffer : List UInt8
deriving Repr, DecidableEq

def BUFFER_ERROR : Int := -1
def BUFFER_ERROR_TIMEOUT : Int := -2
def BUFFER_ERROR_EOS : Int := -3

/-- A successful `ByteBuffer_Create(capacity)`.  `memory` is what the `capacity`
bytes after the header happen to hold. -/
def ByteBuffer.create (memory : List UInt8) : ByteBuffer :=
  ⟨false, memory.length, 0, 0, 0, memory⟩

def ByteBuffer.availableSpace (b : ByteBuffer) : Int :=
  b.mCapacity - b.mSize

/-- The bytes of `mBuffer` that one `memcpy` reads or writes. -/
structure CopyRange where
  start : Int
  len : Int
deriving Repr, DecidableEq

def CopyRange.Inside (range : CopyRange) (capacity : Int) : Prop :=
  0 ≤ range.start ∧ 0 ≤ range.len ∧ range.start + range.len ≤ capacity

/-- What `gettimeofday` stores. -/
structure Timeval where
  tv_sec : Int
  tv_usec : Int
deriving Repr, DecidableEq

/-- The absolute time a timed wait is given. -/
structure WaitTarget where
  tv_sec : Int
  tv_nsec : Int
deriving Repr, DecidableEq

/-- The `target` of a timed wait of `timeout` milliseconds from `now`. -/
def waitTarget (now : Timeval) (timeout : Int) : WaitTarget :=
  let tv_nsec := now.tv_usec * 1000 + timeout.tmod 1000 * 1000000
  let tv_sec := now.tv_sec + timeout.tdiv 1000
  if tv_nsec > 1000000000 then ⟨tv_sec + 1, tv_nsec - 1000000000⟩
  else ⟨tv_sec, tv_nsec⟩

/-- A call that has returned: the buffer, the result, the bytes copied to the
caller, and the ranges of `mBuffer` that were copied. -/
structure Returned where
  buffer : ByteBuffer
  ret : Int
  bytes : List UInt8
  copies : List CopyRange
deriving Repr, DecidableEq

def ByteBuffer.error (b : ByteBuffer) (code : Int) : Returned :=
  ⟨b, code, [], []⟩

/-- `memcpy(&mBuffer[start], bytes, ...)`. -/
def ByteBuffer.memcpyIn (b : ByteBuffer) (start : Int) (bytes : List UInt8) :
    ByteBuffer :=
  { b with mBuffer := Cells.blit b.mBuffer start.toNat bytes }

/-- `memcpy(..., &mBuffer[start], len)`. -/
def ByteBuffer.memcpyOut (b : ByteBuffer) (start len : Int) : List UInt8 :=
  (b.mBuffer.drop start.toNat).take len.toNat

/-- `ByteBuffer_Write` from the test of `mEOS` after the wait to its end. -/
def ByteBuffer.finishWrite (b : ByteBuffer) (data : List UInt8) : Returned :=
  if b.mEOS then b.error BUFFER_ERROR_EOS
  else
    let len : Int :=
      if data.length > b.availableSpace then b.availableSpace else data.length
    let writeSize := b.mCapacity - b.mRear
    if writeSize < len then
      let first := b.memcpyIn b.mRear (data.take writeSize.toNat)
      let second := first.memcpyIn 0
        ((data.drop writeSize.toNat).take (len - writeSize).toNat)
      { buffer := { second with
          mRear := len - writeSize
          mSize := b.mSize + len }
        ret := len
        bytes := []
        copies := [⟨b.mRear, writeSize⟩, ⟨0, len - writeSize⟩] }
    else
      { buffer := { b.memcpyIn b.mRear (data.take len.toNat) with
          mRear := b.mRear + len
          mSize := b.mSize + len }
        ret := len
        bytes := []
        copies := [⟨b.mRear, len⟩] }

/-- `ByteBuffer_Read` from the test of `mEOS` after the wait to its end. -/
def ByteBuffer.finishRead (b : ByteBuffer) (len : Int) : Returned :=
  if b.mEOS then b.error BUFFER_ERROR_EOS
  else
    let len := if b.mSize < len then b.mSize else len
    let readSize := b.mCapacity - b.mFront
    if readSize < len then
      { buffer := { b with
          mFront := len - readSize
          mSize := b.mSize - len }
        ret := len
        bytes :=
          b.memcpyOut b.mFront readSize ++ b.memcpyOut 0 (len - readSize)
        copies := [⟨b.mFront, readSize⟩, ⟨0, len - readSize⟩] }
    else
      { buffer := { b with
          mFront := b.mFront + len
          mSize := b.mSize - len }
        ret := len
        bytes := b.memcpyOut b.mFront len
        copies := [⟨b.mFront, len⟩] }

/-- How the first span of a call ends: with the return of the call, or in
`pthread_cond_wait` (no target) or `pthread_cond_timedwait`. -/
inductive Entered where
  | returned (result : Returned)
  | waiting (target : Option WaitTarget)
deriving Repr, DecidableEq

/-- The branch both calls take when they find that they have to wait. -/
def ByteBuffer.enterWait (b : ByteBuffer) (timeout : Int) (now : Timeval) :
    Entered :=
  if timeout = 0 then .returned (b.error 0)
  else if timeout = -1 then .waiting none
  else .waiting (some (waitTarget now timeout))

/-- `ByteBuffer_Write` up to its return or its wait.  The empty list stands for
the arguments it refuses: a null pointer or a length below 1. -/
def ByteBuffer.write (b : ByteBuffer) (data : List UInt8) (timeout : Int)
    (now : Timeval) : Entered :=
  if data.length < 1 then .returned (b.error BUFFER_ERROR)
  else if b.availableSpace = 0 ∧ ¬ b.mEOS then b.enterWait timeout now
  else .returned (b.finishWrite data)

/-- `ByteBuffer_Read` up to its return or its wait. -/
def ByteBuffer.read (b : ByteBuffer) (len timeout : Int) (now : Timeval) :
    Entered :=
  if len < 1 then .returned (b.error BUFFER_ERROR)
  else if b.mSize = 0 ∨ ¬ b.mEOS then b.enterWait timeout now
  else .returned (b.finishRead len)

/-- `ByteBuffer_SetEOS`. -/
def ByteBuffer.setEOS (b : ByteBuffer) (isEOS : Bool) : ByteBuffer :=
  { b with mEOS := isEOS }

/-- `ByteBuffer_Flush`. -/
def ByteBuffer.flush (b : ByteBuffer) : ByteBuffer :=
  { b with mSize := 0, mFront := 0, mRear := 0 }

/-! ### Threads -/

/-- The arguments of a call on the buffer. -/
inductive BufferCall where
  | write (data : List UInt8)
  | read (len : Int)
deriving Repr, DecidableEq

/-- A call on the buffer that is over. -/
inductive Completed where
  | write (data : List UInt8) (ret : Int)
  | read (bytes : List UInt8) (ret : Int)
  | flush
deriving Repr, DecidableEq

def BufferCall.completed (call : BufferCall) (result : Returned) : Completed :=
  match call with
  | .write data => .write data result.ret
  | .read _ => .read result.bytes result.ret

/-- A buffer shared by the threads `T`.  `waiting` holds the calls that are in
their wait, `history` the completed calls in order and `copies` the ranges of
`mBuffer` copied so far. -/
structure SharedBuffer (T : Type u) where
  buffer : ByteBuffer
  waiting : T → Option (BufferCall × Option WaitTarget)
  history : List Completed
  copies : List CopyRange

variable {T : Type u}

def SharedBuffer.init (memory : List UInt8) : SharedBuffer T :=
  ⟨ByteBuffer.create memory, fun _ => none, [], []⟩

/-- One span under `mLock`. -/
inductive BufferStep (T : Type u) where
  | write (thread : T) (data : List UInt8) (timeout : Int) (now : Timeval)
  | read (thread : T) (len timeout : Int) (now : Timeval)
  | resume (thread : T) (timedOut : Bool)
  | setEOS (thread : T) (isEOS : Bool)
  | flush (thread : T)
deriving Repr, DecidableEq

variable [DecidableEq T]

/-- Record the return of `call` by `thread`. -/
def SharedBuffer.complete (s : SharedBuffer T) (thread : T) (call : BufferCall)
    (result : Returned) : SharedBuffer T where
  buffer := result.buffer
  waiting := Function.update s.waiting thread none
  history := s.history ++ [call.completed result]
  copies := s.copies ++ result.copies

def SharedBuffer.enter (s : SharedBuffer T) (thread : T) (call : BufferCall) :
    Entered → SharedBuffer T
  | .returned result => s.complete thread call result
  | .waiting target =>
      { s with waiting :=
          Function.update s.waiting thread (some (call, target)) }

/-- What a call does when its wait has ended. -/
def ByteBuffer.finish (b : ByteBuffer) : BufferCall → Returned
  | .write data => b.finishWrite data
  | .read len => b.finishRead len

/-- The transition function.  A thread starts a call only when it is not in one,
and only a timed wait can end with `ETIMEDOUT`. -/
def SharedBuffer.step (s : SharedBuffer T) :
    BufferStep T → Option (SharedBuffer T)
  | .write thread data timeout now =>
      match s.waiting thread with
      | none => some (s.enter thread (.write data)
          (s.buffer.write data timeout now))
      | some _ => none
  | .read thread len timeout now =>
      match s.waiting thread with
      | none => some (s.enter thread (.read len) (s.buffer.read len timeout now))
      | some _ => none
  | .resume thread timedOut =>
      match s.waiting thread with
      | none => none
      | some (call, target) =>
          if timedOut then
            if target.isSome then
              some (s.complete thread call
                (s.buffer.error BUFFER_ERROR_TIMEOUT))
            else none
          else some (s.complete thread call (s.buffer.finish call))
  | .setEOS thread isEOS =>
      match s.waiting thread with
      | none => some { s with buffer := s.buffer.setEOS isEOS }
      | some _ => none
  | .flush thread =>
      match s.waiting thread with
      | none => some { s with
          buffer := s.buffer.flush
          history := s.history ++ [.flush] }
      | some _ => none

/-- What one span under the lock does, and where its thread is before. -/
inductive SharedBuffer.Move (s : SharedBuffer T) :
    BufferStep T → SharedBuffer T → Prop
  | write (thread : T) (data : List UInt8) (timeout : Int) (now : Timeval)
      (hidle : s.waiting thread = none) :
      s.Move (.write thread data timeout now)
        (s.enter thread (.write data) (s.buffer.write data timeout now))
  | read (thread : T) (len timeout : Int) (now : Timeval)
      (hidle : s.waiting thread = none) :
      s.Move (.read thread len timeout now)
        (s.enter thread (.read len) (s.buffer.read len timeout now))
  | timesOut (thread : T) (call : BufferCall) (target : Option WaitTarget)
      (hwaiting : s.waiting thread = some (call, target))
      (htimed : target.isSome = true) : s.Move (.resume thread true)
        (s.complete thread call (s.buffer.error BUFFER_ERROR_TIMEOUT))
  | resume (thread : T) (call : BufferCall) (target : Option WaitTarget)
      (hwaiting : s.waiting thread = some (call, target)) :
      s.Move (.resume thread false) (s.complete thread call (s.buffer.finish call))
  | setEOS (thread : T) (isEOS : Bool) (hidle : s.waiting thread = none) :
      s.Move (.setEOS thread isEOS) { s with buffer := s.buffer.setEOS isEOS }
  | flush (thread : T) (hidle : s.waiting thread = none) :
      s.Move (.flush thread) { s with
        buffer := s.buffer.flush
        history := s.history ++ [.flush] }

theorem SharedBuffer.step_move {s t : SharedBuffer T} {action : BufferStep T}
    (hstep : s.step action = some t) : s.Move action t := by
  cases action with
  | write thread data timeout now =>
      simp only [SharedBuffer.step] at hstep
      split at hstep
      · next hidle => exact Option.some.inj hstep ▸ .write _ _ _ _ hidle
      · cases hstep
  | read thread len timeout now =>
      simp only [SharedBuffer.step] at hstep
      split at hstep
      · next hidle => exact Option.some.inj hstep ▸ .read _ _ _ _ hidle
      · cases hstep
  | resume thread timedOut =>
      simp only [SharedBuffer.step] at hstep
      split at hstep
      · cases hstep
      · next call target hwaiting =>
          cases timedOut with
          | true =>
              simp only [↓reduceIte, Option.ite_none_right_eq_some] at hstep
              exact Option.some.inj hstep.2 ▸ .timesOut _ _ _ hwaiting hstep.1
          | false => exact Option.some.inj hstep ▸ .resume _ _ _ hwaiting
  | setEOS thread isEOS =>
      simp only [SharedBuffer.step] at hstep
      split at hstep
      · next hidle => exact Option.some.inj hstep ▸ .setEOS _ _ hidle
      · cases hstep
  | flush thread =>
      simp only [SharedBuffer.step] at hstep
      split at hstep
      · next hidle => exact Option.some.inj hstep ▸ .flush _ hidle
      · cases hstep

end MyDirectFB

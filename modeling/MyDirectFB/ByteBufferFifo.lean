/-
The byte buffer is a FIFO: in every interleaving of the calls of any number of
threads the positions and the size stay inside the capacity, every copy stays
inside `mBuffer`, and the bytes delivered since the last flush followed by the
bytes in the ring are the bytes accepted since the last flush.
-/
import MyDirectFB.ByteBuffer
import MyDirectFB.Lib.LabelledRun

namespace MyDirectFB

universe u

/-- The representation invariant of the ring. -/
structure ByteBuffer.Valid (b : ByteBuffer) : Prop where
  length : (b.mBuffer.length : Int) = b.mCapacity
  size_nonneg : 0 ≤ b.mSize
  size_le : b.mSize ≤ b.mCapacity
  front_nonneg : 0 ≤ b.mFront
  front_le : b.mFront ≤ b.mCapacity
  rear_nonneg : 0 ≤ b.mRear
  rear_le : b.mRear ≤ b.mCapacity
  meets : RingBuffer.Meets b.mBuffer.length b.mFront.toNat b.mSize.toNat
    b.mRear.toNat

theorem ByteBuffer.Valid.front_toNat_le {b : ByteBuffer} (hb : b.Valid) :
    b.mFront.toNat ≤ b.mBuffer.length := by
  have hlength := hb.length
  have hle := hb.front_le
  omega

theorem ByteBuffer.Valid.rear_toNat_le {b : ByteBuffer} (hb : b.Valid) :
    b.mRear.toNat ≤ b.mBuffer.length := by
  have hlength := hb.length
  have hle := hb.rear_le
  omega

/-- The bytes stored in the ring, oldest first. -/
def ByteBuffer.contents (b : ByteBuffer) : List UInt8 :=
  RingBuffer.contents b.mBuffer b.mFront.toNat b.mSize.toNat

theorem ByteBuffer.create_valid (memory : List UInt8) :
    (ByteBuffer.create memory).Valid := by
  constructor <;> simp [ByteBuffer.create, RingBuffer.Meets]

theorem ByteBuffer.contents_create (memory : List UInt8) :
    (ByteBuffer.create memory).contents = [] := by
  simp [ByteBuffer.contents, ByteBuffer.create, RingBuffer.contents]

theorem ByteBuffer.Valid.setEOS {b : ByteBuffer} (hb : b.Valid) (isEOS : Bool) :
    (b.setEOS isEOS).Valid :=
  ⟨hb.length, hb.size_nonneg, hb.size_le, hb.front_nonneg, hb.front_le,
    hb.rear_nonneg, hb.rear_le, hb.meets⟩

theorem ByteBuffer.Valid.flush {b : ByteBuffer} (hb : b.Valid) :
    b.flush.Valid := by
  have hcapacity : 0 ≤ b.mCapacity := by
    have hlength := hb.length
    omega
  constructor <;> simp [ByteBuffer.flush, RingBuffer.Meets, hb.length, hcapacity]

theorem ByteBuffer.contents_flush (b : ByteBuffer) : b.flush.contents = [] := by
  simp [ByteBuffer.contents, ByteBuffer.flush, RingBuffer.contents]

/-- The bytes a completed call has accepted: the prefix of the data whose length
a write returns, and none otherwise. -/
def BufferCall.accepted (call : BufferCall) (ret : Int) : List UInt8 :=
  match call with
  | .write data => data.take ret.toNat
  | .read _ => []

/-- What a completed call owes to the FIFO: it keeps the representation, copies
inside the buffer, and turns the stored bytes and the accepted ones into the
delivered bytes and the bytes stored afterwards.  A write delivers nothing. -/
structure Returned.Sound (b : ByteBuffer) (call : BufferCall)
    (result : Returned) : Prop where
  valid : result.buffer.Valid
  capacity : result.buffer.mCapacity = b.mCapacity
  copies : ∀ range ∈ result.copies, range.Inside b.mCapacity
  fifo : b.contents ++ call.accepted result.ret =
    result.bytes ++ result.buffer.contents
  write_bytes : ∀ data, call = .write data → result.bytes = []

theorem ByteBuffer.error_sound {b : ByteBuffer} (hb : b.Valid)
    (call : BufferCall) {code : Int} (hcode : code ≤ 0) :
    Returned.Sound b call (b.error code) where
  valid := hb
  capacity := rfl
  copies := by simp [ByteBuffer.error]
  fifo := by
    cases call <;>
      simp [ByteBuffer.error, BufferCall.accepted, Int.toNat_of_nonpos hcode]
  write_bytes _ _ := rfl

/-- The two copies of a call that runs round the end are inside the buffer. -/
theorem CopyRange.inside_of_wrap {start len capacity : Int} (hstart : 0 ≤ start)
    (hend : start ≤ capacity) (hlen : len ≤ capacity)
    (hwrap : capacity - start < len) :
    ∀ range ∈ [⟨start, capacity - start⟩, ⟨0, len - (capacity - start)⟩],
      CopyRange.Inside range capacity := by
  simp only [List.mem_cons, List.not_mem_nil, or_false, forall_eq_or_imp, forall_eq,
    CopyRange.Inside]
  omega

/-! ### Writing -/

/-- The number of bytes a write that does not wait accepts. -/
def ByteBuffer.room (b : ByteBuffer) (data : List UInt8) : Nat :=
  min b.availableSpace.toNat data.length

theorem ByteBuffer.length_take_room (b : ByteBuffer) (data : List UInt8) :
    (data.take (b.room data)).length = b.room data := by
  rw [List.length_take, ByteBuffer.room]
  omega

theorem ByteBuffer.Valid.size_add_room_le {b : ByteBuffer} (hb : b.Valid)
    (data : List UInt8) : b.mSize.toNat + b.room data ≤ b.mBuffer.length := by
  have hlength := hb.length
  have hsize := hb.size_nonneg
  have hle := hb.size_le
  unfold ByteBuffer.room ByteBuffer.availableSpace
  omega

/-- The state of the buffer after `data` has been written into the room there
is. -/
def ByteBuffer.stored (b : ByteBuffer) (data : List UInt8) : ByteBuffer :=
  { b with
    mBuffer := RingBuffer.store b.mBuffer b.mRear.toNat (data.take (b.room data))
    mRear := RingBuffer.advance b.mBuffer.length b.mRear.toNat (b.room data)
    mSize := b.mSize + b.room data }

theorem ByteBuffer.Valid.stored {b : ByteBuffer} (hb : b.Valid)
    (data : List UInt8) : (b.stored data).Valid := by
  have hlength := hb.length
  have hsize := hb.size_nonneg
  have hroom := hb.size_add_room_le data
  have hnewSize : (b.mSize + (b.room data : Int)).toNat =
      b.mSize.toNat + b.room data := by omega
  have hstored : (RingBuffer.store b.mBuffer b.mRear.toNat
      (data.take (b.room data))).length = b.mBuffer.length :=
    RingBuffer.length_store hb.rear_toNat_le (by rw [b.length_take_room]; omega)
  have hadvance : RingBuffer.advance b.mBuffer.length b.mRear.toNat
      (b.room data) ≤ b.mBuffer.length :=
    RingBuffer.advance_le hb.rear_toNat_le (by omega)
  refine ⟨?_, ?_, ?_, hb.front_nonneg, hb.front_le, ?_, ?_, ?_⟩
  · simpa [ByteBuffer.stored, hstored] using hlength
  · show 0 ≤ b.mSize + (b.room data : Int)
    omega
  · show b.mSize + (b.room data : Int) ≤ b.mCapacity
    omega
  · exact Int.natCast_nonneg _
  · show (RingBuffer.advance _ _ _ : Int) ≤ b.mCapacity
    omega
  · simp only [ByteBuffer.stored, hstored, hnewSize, Int.toNat_natCast]
    exact RingBuffer.meets_advance_rear hb.front_toNat_le hb.rear_toNat_le
      hb.meets hroom

theorem ByteBuffer.contents_stored {b : ByteBuffer} (hb : b.Valid)
    (data : List UInt8) :
    (b.stored data).contents = b.contents ++ data.take (b.room data) := by
  have hroom := hb.size_add_room_le data
  have hdata : b.mSize.toNat + (data.take (b.room data)).length ≤
      b.mBuffer.length := by
    rw [b.length_take_room]
    exact hroom
  have hnewSize : (b.mSize + (b.room data : Int)).toNat =
      b.mSize.toNat + b.room data := by
    have hsize := hb.size_nonneg
    omega
  have hcontents := RingBuffer.contents_store hb.front_toNat_le hb.rear_toNat_le
    hb.meets hdata
  rw [b.length_take_room] at hcontents
  simp only [ByteBuffer.contents, ByteBuffer.stored, hnewSize]
  exact hcontents

/-- A write does one or two copies inside the buffer, and together they are one
`RingBuffer.store` of the accepted bytes. -/
theorem ByteBuffer.finishWrite_eq {b : ByteBuffer} (hb : b.Valid)
    (heos : b.mEOS = false) (data : List UInt8) :
    ∃ copies : List CopyRange,
      (∀ range ∈ copies, range.Inside b.mCapacity) ∧
      b.finishWrite data =
        { buffer := b.stored data
          ret := b.room data
          bytes := []
          copies } := by
  have hsize := hb.size_le
  have hlength := hb.length
  have hnonneg := hb.rear_nonneg
  have hrear := hb.rear_le
  have hlen : (if (data.length : Int) > b.availableSpace
      then b.availableSpace else data.length) = (b.room data : Int) := by
    unfold ByteBuffer.room ByteBuffer.availableSpace
    split <;> omega
  have hspace : (b.mCapacity - b.mRear).toNat =
      b.mBuffer.length - b.mRear.toNat := by
    omega
  simp only [ByteBuffer.finishWrite, heos, Bool.false_eq_true, ↓reduceIte, hlen]
  split
  · rename_i hwrap
    refine ⟨_, ?_, congrArg₂ (fun buffer => Returned.mk buffer _ _) ?_ rfl⟩
    · have hroom : (b.room data : Int) ≤ b.mCapacity := by
        have hsize_nonneg := hb.size_nonneg
        unfold ByteBuffer.room ByteBuffer.availableSpace
        omega
      exact CopyRange.inside_of_wrap hnonneg hrear hroom hwrap
    · have hwrap' : b.mBuffer.length - b.mRear.toNat < b.room data := by omega
      have hsecond : ((b.room data : Int) - (b.mCapacity - b.mRear)).toNat =
          b.room data - (b.mBuffer.length - b.mRear.toNat) := by omega
      simp only [ByteBuffer.memcpyIn, ByteBuffer.stored, RingBuffer.store,
        RingBuffer.advance, b.length_take_room, hwrap', ↓reduceIte,
        List.take_take, List.drop_take, Nat.min_eq_left (Nat.le_of_lt hwrap'),
        hspace, hsecond, Int.toNat_zero]
      congr 1
      omega
  · rename_i hfit
    refine ⟨_, ?_, congrArg₂ (fun buffer => Returned.mk buffer _ _) ?_ rfl⟩
    · simp only [List.forall_mem_singleton, CopyRange.Inside]
      omega
    · have hfit' : ¬ b.mBuffer.length - b.mRear.toNat < b.room data := by omega
      simp only [ByteBuffer.memcpyIn, ByteBuffer.stored, RingBuffer.store,
        RingBuffer.advance, b.length_take_room, hfit', ↓reduceIte,
        Int.toNat_natCast]
      congr 1
      omega

theorem ByteBuffer.finishWrite_sound {b : ByteBuffer} (hb : b.Valid)
    (data : List UInt8) :
    Returned.Sound b (.write data) (b.finishWrite data) := by
  cases heos : b.mEOS with
  | true =>
      have hcode : b.finishWrite data = b.error BUFFER_ERROR_EOS := by
        simp [ByteBuffer.finishWrite, heos]
      rw [hcode]
      exact ByteBuffer.error_sound hb _ (by decide)
  | false =>
      obtain ⟨copies, hcopies, hresult⟩ := ByteBuffer.finishWrite_eq hb heos data
      rw [hresult]
      refine ⟨hb.stored data, rfl, hcopies, ?_, fun _ _ => rfl⟩
      rw [ByteBuffer.contents_stored hb, BufferCall.accepted, Int.toNat_natCast,
        List.nil_append]

/-! ### Reading -/

/-- The number of bytes a read that does not wait delivers. -/
def ByteBuffer.available (b : ByteBuffer) (len : Int) : Nat :=
  min b.mSize.toNat len.toNat

/-- The state of the buffer after up to `len` bytes have been read. -/
def ByteBuffer.fetched (b : ByteBuffer) (len : Int) : ByteBuffer :=
  { b with
    mFront :=
      RingBuffer.advance b.mBuffer.length b.mFront.toNat (b.available len)
    mSize := b.mSize - b.available len }

theorem ByteBuffer.available_le (b : ByteBuffer) (len : Int) :
    b.available len ≤ b.mSize.toNat :=
  Nat.min_le_left _ _

theorem ByteBuffer.Valid.fetched {b : ByteBuffer} (hb : b.Valid) (len : Int) :
    (b.fetched len).Valid := by
  have hlength := hb.length
  have hsize := hb.size_nonneg
  have hcapacity := hb.size_le
  have havailable := b.available_le len
  have hnewSize : (b.mSize - (b.available len : Int)).toNat =
      b.mSize.toNat - b.available len := by omega
  have hadvance : RingBuffer.advance b.mBuffer.length b.mFront.toNat
      (b.available len) ≤ b.mBuffer.length :=
    RingBuffer.advance_le hb.front_toNat_le (by omega)
  refine ⟨hlength, ?_, ?_, ?_, ?_, hb.rear_nonneg, hb.rear_le, ?_⟩
  · show 0 ≤ b.mSize - (b.available len : Int)
    omega
  · show b.mSize - (b.available len : Int) ≤ b.mCapacity
    omega
  · exact Int.natCast_nonneg _
  · show (RingBuffer.advance _ _ _ : Int) ≤ b.mCapacity
    omega
  · simp only [ByteBuffer.fetched, hnewSize, Int.toNat_natCast]
    exact RingBuffer.meets_advance_front hb.front_toNat_le hb.rear_toNat_le
      hb.meets havailable (by omega)

theorem ByteBuffer.contents_fetched {b : ByteBuffer} (hb : b.Valid) (len : Int) :
    RingBuffer.fetch b.mBuffer b.mFront.toNat (b.available len) ++
      (b.fetched len).contents = b.contents := by
  have hlength := hb.length
  have hsize := hb.size_nonneg
  have hcapacity := hb.size_le
  have havailable := b.available_le len
  have hnewSize : (b.mSize - (b.available len : Int)).toNat =
      b.mSize.toNat - b.available len := by omega
  simp only [ByteBuffer.contents, ByteBuffer.fetched, hnewSize,
    Int.toNat_natCast]
  rw [RingBuffer.fetch_eq_take_contents havailable,
    RingBuffer.contents_advance_front hb.front_toNat_le (by omega) havailable,
    List.take_append_drop]

/-- A read does one or two copies inside the buffer, and together they are one
`RingBuffer.fetch`. -/
theorem ByteBuffer.finishRead_eq {b : ByteBuffer} (hb : b.Valid)
    (heos : b.mEOS = false) {len : Int} (hlen : 1 ≤ len) :
    ∃ copies : List CopyRange,
      (∀ range ∈ copies, range.Inside b.mCapacity) ∧
      b.finishRead len =
        { buffer := b.fetched len
          ret := b.available len
          bytes :=
            RingBuffer.fetch b.mBuffer b.mFront.toNat (b.available len)
          copies } := by
  have hsize := hb.size_nonneg
  have hcapacity := hb.size_le
  have hlength := hb.length
  have hnonneg := hb.front_nonneg
  have hfront := hb.front_le
  have havailable : (if b.mSize < len then b.mSize else len) =
      (b.available len : Int) := by
    unfold ByteBuffer.available
    split <;> omega
  have hle : (b.available len : Int) ≤ b.mSize := by
    unfold ByteBuffer.available
    omega
  have hspace : (b.mCapacity - b.mFront).toNat =
      b.mBuffer.length - b.mFront.toNat := by
    omega
  simp only [ByteBuffer.finishRead, heos, Bool.false_eq_true, ↓reduceIte,
    havailable]
  split
  · rename_i hwrap
    have hwrap' : b.mBuffer.length - b.mFront.toNat < b.available len := by
      omega
    have hsecond : ((b.available len : Int) - (b.mCapacity - b.mFront)).toNat =
        b.available len - (b.mBuffer.length - b.mFront.toNat) := by omega
    refine ⟨[⟨b.mFront, b.mCapacity - b.mFront⟩,
      ⟨0, b.available len - (b.mCapacity - b.mFront)⟩], ?_, ?_⟩
    · exact CopyRange.inside_of_wrap hnonneg hfront (Int.le_trans hle hcapacity) hwrap
    · have hall : (b.mBuffer.drop b.mFront.toNat).take
          (b.mBuffer.length - b.mFront.toNat) = b.mBuffer.drop b.mFront.toNat :=
        List.take_of_length_le (Nat.le_of_eq List.length_drop)
      simp only [ByteBuffer.memcpyOut, ByteBuffer.fetched, RingBuffer.fetch,
        RingBuffer.advance, heos, hwrap', ↓reduceIte, hspace, hsecond, hall,
        Int.toNat_zero, List.drop_zero]
      congr 2
      omega
  · rename_i hfit
    have hfit' : ¬ b.mBuffer.length - b.mFront.toNat < b.available len := by
      omega
    refine ⟨[⟨b.mFront, b.available len⟩], ?_, ?_⟩
    · simp only [List.forall_mem_singleton, CopyRange.Inside]
      omega
    · simp only [ByteBuffer.memcpyOut, ByteBuffer.fetched, RingBuffer.fetch,
        RingBuffer.advance, heos, hfit', ↓reduceIte, Int.toNat_natCast]
      congr 2
      omega

theorem ByteBuffer.finishRead_sound {b : ByteBuffer} (hb : b.Valid) {len : Int}
    (hlen : 1 ≤ len) : Returned.Sound b (.read len) (b.finishRead len) := by
  cases heos : b.mEOS with
  | true =>
      have hcode : b.finishRead len = b.error BUFFER_ERROR_EOS := by
        simp [ByteBuffer.finishRead, heos]
      rw [hcode]
      exact ByteBuffer.error_sound hb _ (by decide)
  | false =>
      obtain ⟨copies, hcopies, hresult⟩ := ByteBuffer.finishRead_eq hb heos hlen
      rw [hresult]
      refine ⟨hb.fetched len, rfl, hcopies, ?_, fun _ hcall => by simp at hcall⟩
      rw [BufferCall.accepted, List.append_nil]
      exact (ByteBuffer.contents_fetched hb len).symm

/-! ### Calls -/

/-- The calls that can be in their wait: a read with a length below 1 returns
at once. -/
def BufferCall.Admissible : BufferCall → Prop
  | .write _ => True
  | .read len => 1 ≤ len

theorem ByteBuffer.finish_sound {b : ByteBuffer} (hb : b.Valid)
    {call : BufferCall} (hcall : call.Admissible) :
    Returned.Sound b call (b.finish call) := by
  cases call with
  | write data => exact ByteBuffer.finishWrite_sound hb data
  | read len => exact ByteBuffer.finishRead_sound hb hcall

/-- Every call that returns from its first span is sound, and one that waits is
admissible. -/
def Entered.Sound (b : ByteBuffer) (call : BufferCall) : Entered → Prop
  | .returned result => Returned.Sound b call result
  | .waiting _ => call.Admissible

theorem ByteBuffer.enterWait_sound {b : ByteBuffer} (hb : b.Valid)
    {call : BufferCall} (hcall : call.Admissible) (timeout : Int)
    (now : Timeval) : (b.enterWait timeout now).Sound b call := by
  unfold ByteBuffer.enterWait
  split
  · exact ByteBuffer.error_sound hb call (by decide)
  · split
    · exact hcall
    · exact hcall

theorem ByteBuffer.write_sound {b : ByteBuffer} (hb : b.Valid)
    (data : List UInt8) (timeout : Int) (now : Timeval) :
    (b.write data timeout now).Sound b (.write data) := by
  unfold ByteBuffer.write
  split
  · exact ByteBuffer.error_sound hb (.write data) (by decide)
  · have hcall : (BufferCall.write data).Admissible := trivial
    split
    · exact ByteBuffer.enterWait_sound hb hcall timeout now
    · exact ByteBuffer.finishWrite_sound hb data

theorem ByteBuffer.read_sound {b : ByteBuffer} (hb : b.Valid)
    (len timeout : Int) (now : Timeval) :
    (b.read len timeout now).Sound b (.read len) := by
  unfold ByteBuffer.read
  split
  · exact ByteBuffer.error_sound hb (.read len) (by decide)
  · rename_i hlen
    have hcall : (BufferCall.read len).Admissible := by
      simpa [BufferCall.Admissible] using hlen
    split
    · exact ByteBuffer.enterWait_sound hb hcall timeout now
    · exact ByteBuffer.finishRead_sound hb hcall

/-! ### Runs -/

/-- The bytes accepted by the writes since the last flush. -/
def accepted (history : List Completed) : List UInt8 :=
  history.foldl (fun bytes call => match call with
    | .write data ret => bytes ++ data.take ret.toNat
    | .read _ _ => bytes
    | .flush => []) []

/-- The bytes delivered by the reads since the last flush, in the order in which
the reads completed. -/
def delivered (history : List Completed) : List UInt8 :=
  history.foldl (fun bytes call => match call with
    | .write _ _ => bytes
    | .read out _ => bytes ++ out
    | .flush => []) []

theorem accepted_append_completed (history : List Completed)
    (call : BufferCall) (result : Returned) :
    accepted (history ++ [call.completed result]) =
      accepted history ++ call.accepted result.ret := by
  cases call <;> simp [accepted, BufferCall.completed, BufferCall.accepted]

theorem delivered_append_completed (history : List Completed) (call : BufferCall)
    {result : Returned} (hwrite : ∀ data, call = .write data → result.bytes = []) :
    delivered (history ++ [call.completed result]) =
      delivered history ++ result.bytes := by
  cases call with
  | write data => simp [delivered, BufferCall.completed, hwrite data rfl]
  | read len => simp [delivered, BufferCall.completed]

variable {T : Type u}

/-- The invariant of the shared buffer. -/
structure SharedBuffer.Invariant (s : SharedBuffer T) (capacity : Int) : Prop
    where
  valid : s.buffer.Valid
  capacity_eq : s.buffer.mCapacity = capacity
  copies : ∀ range ∈ s.copies, range.Inside capacity
  fifo : delivered s.history ++ s.buffer.contents = accepted s.history
  admissible : ∀ thread call target,
    s.waiting thread = some (call, target) → call.Admissible

theorem SharedBuffer.init_invariant (memory : List UInt8) :
    (SharedBuffer.init (T := T) memory).Invariant memory.length where
  valid := ByteBuffer.create_valid memory
  capacity_eq := rfl
  copies := by simp [SharedBuffer.init]
  fifo := by
    simp [SharedBuffer.init, delivered, accepted, ByteBuffer.contents_create]
  admissible := by simp [SharedBuffer.init]

variable [DecidableEq T]

theorem SharedBuffer.Invariant.complete {s : SharedBuffer T} {capacity : Int}
    (hs : s.Invariant capacity) (thread : T) {call : BufferCall}
    {result : Returned} (hresult : Returned.Sound s.buffer call result) :
    (s.complete thread call result).Invariant capacity where
  valid := hresult.valid
  capacity_eq := hresult.capacity.trans hs.capacity_eq
  copies range hrange := by
    rcases List.mem_append.mp hrange with hold | hnew
    · exact hs.copies range hold
    · exact hs.capacity_eq ▸ hresult.copies range hnew
  fifo := by
    change delivered (s.history ++ [call.completed result]) ++
      result.buffer.contents = accepted (s.history ++ [call.completed result])
    rw [accepted_append_completed,
      delivered_append_completed s.history call hresult.write_bytes,
      List.append_assoc, ← hresult.fifo, ← List.append_assoc, hs.fifo]
  admissible other call' target hwaiting := by
    by_cases hother : other = thread
    · simp [SharedBuffer.complete, hother] at hwaiting
    · exact hs.admissible other call' target (by
        simpa [SharedBuffer.complete, hother] using hwaiting)

theorem SharedBuffer.Invariant.enter {s : SharedBuffer T} {capacity : Int}
    (hs : s.Invariant capacity) (thread : T) {call : BufferCall}
    {entered : Entered} (hentered : entered.Sound s.buffer call) :
    (s.enter thread call entered).Invariant capacity := by
  cases entered with
  | returned result => exact hs.complete thread hentered
  | waiting target =>
      refine ⟨hs.valid, hs.capacity_eq, hs.copies, hs.fifo, ?_⟩
      intro other call' target' hwaiting
      by_cases hother : other = thread
      · simp only [SharedBuffer.enter, hother, Function.update_self,
          Option.some.injEq, Prod.mk.injEq] at hwaiting
        exact hwaiting.1 ▸ hentered
      · exact hs.admissible other call' target' (by
          simpa [SharedBuffer.enter, hother] using hwaiting)

/-- What one span under the lock preserves. -/
theorem SharedBuffer.step_invariant {capacity : Int} (s : SharedBuffer T)
    (action : BufferStep T) (t : SharedBuffer T) (hs : s.Invariant capacity)
    (hstep : s.step action = some t) : t.Invariant capacity := by
  cases SharedBuffer.step_move hstep with
  | write thread data timeout now hidle =>
      exact hs.enter thread (ByteBuffer.write_sound hs.valid data timeout now)
  | read thread len timeout now hidle =>
      exact hs.enter thread (ByteBuffer.read_sound hs.valid len timeout now)
  | timesOut thread call target hwaiting htimed =>
      exact hs.complete thread (ByteBuffer.error_sound hs.valid call (by decide))
  | resume thread call target hwaiting =>
      exact hs.complete thread (ByteBuffer.finish_sound hs.valid
        (hs.admissible thread call target hwaiting))
  | setEOS thread isEOS hidle =>
      exact ⟨hs.valid.setEOS isEOS, hs.capacity_eq, hs.copies, hs.fifo,
        hs.admissible⟩
  | flush thread hidle =>
      refine ⟨hs.valid.flush, hs.capacity_eq, hs.copies, ?_, hs.admissible⟩
      simp [delivered, accepted, ByteBuffer.contents_flush]

/-- In every run of any number of threads on a buffer of any capacity, the size
and the positions stay inside the capacity, every copied range lies inside
`mBuffer`, and the buffer is a FIFO. -/
theorem byteBuffer_fifo (memory : List UInt8) (steps : List (BufferStep T))
    (s : SharedBuffer T)
    (hrun : LabelledRun.run SharedBuffer.step (SharedBuffer.init memory) steps =
      some s) :
    s.buffer.mCapacity = memory.length ∧
      s.buffer.mBuffer.length = memory.length ∧
      (0 ≤ s.buffer.mSize ∧ s.buffer.mSize ≤ s.buffer.mCapacity) ∧
      (0 ≤ s.buffer.mFront ∧ s.buffer.mFront ≤ s.buffer.mCapacity) ∧
      (0 ≤ s.buffer.mRear ∧ s.buffer.mRear ≤ s.buffer.mCapacity) ∧
      (∀ range ∈ s.copies, range.Inside memory.length) ∧
      delivered s.history ++ s.buffer.contents = accepted s.history := by
  have hs : s.Invariant memory.length := LabelledRun.run_invariant
    SharedBuffer.step_invariant (SharedBuffer.init_invariant memory) hrun
  have hlength := hs.valid.length
  have hcapacity := hs.capacity_eq
  exact ⟨hcapacity, by omega, ⟨hs.valid.size_nonneg, hs.valid.size_le⟩,
    ⟨hs.valid.front_nonneg, hs.valid.front_le⟩,
    ⟨hs.valid.rear_nonneg, hs.valid.rear_le⟩, hs.copies, hs.fifo⟩

/-- Three bytes of capacity: a write, a read that wakes up from its wait and a
write that runs round the end. -/
def roundTheEnd : List (BufferStep Nat) :=
  [.write 0 [1, 2, 3] 0 ⟨0, 0⟩, .read 1 2 (-1) ⟨0, 0⟩, .resume 1 false,
    .write 0 [4, 5] (-1) ⟨0, 0⟩]

theorem byteBuffer_fifo_roundTheEnd :
    ∃ s, LabelledRun.run SharedBuffer.step (SharedBuffer.init [0, 0, 0])
        roundTheEnd = some s ∧
      s.buffer.contents = [3, 4, 5] ∧
      delivered s.history ++ s.buffer.contents = accepted s.history :=
  ⟨_, rfl, by decide,
    (byteBuffer_fifo [0, 0, 0] roundTheEnd _ rfl).2.2.2.2.2.2⟩

end MyDirectFB

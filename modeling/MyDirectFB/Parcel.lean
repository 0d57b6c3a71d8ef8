/-
The parcels of utils/parcel.cpp.  `mData` is the allocated block, so that a
parcel knows how many bytes there are in it; the code keeps `mDataCapacity`
instead.  What `malloc` and `realloc` return and what a new block happens to
hold are arguments (`alloc`), and so are the bytes in memory after the block
(`beyond`, followed by zeros), which a read past the block would see.
-/
import MyDirectFB.Lib.Cells
import MyDirectFB.Lib.CString
import MyDirectFB.Lib.LittleEndian

namespace MyDirectFB

universe u

structure Parcel where
  mData : Option (List UInt8)
  mDataPos : UInt32
  mDataSize : UInt32
  mDataCapacity : UInt32
deriving Repr, DecidableEq

/-- What a call of `malloc` or `realloc` returns: `NULL`, or a block whose new
bytes are given by their positions. -/
abbrev Alloc := Option (Nat → UInt8)

/-- A range of bytes of `mData` that is copied from or to, and the number of
bytes allocated there at that time. -/
structure Access where
  start : Nat
  len : Nat
  allocated : Nat
deriving Repr, DecidableEq

def Access.Inside (access : Access) : Prop :=
  access.start + access.len ≤ access.allocated

namespace Parcel

def DEFAULT_PARCEL_DATA_SIZE : UInt32 := 256

/-- The parcel a constructor makes. -/
def fresh : Parcel := ⟨none, 0, 0, 0⟩

/-- The allocated bytes at `mData`, none for `NULL`. -/
def block (p : Parcel) : List UInt8 :=
  p.mData.getD []

/-- The bytes in memory from `mData[start]` on, up to the zeros. -/
def memoryFrom (p : Parcel) (beyond : List UInt8) (start : Nat) : List UInt8 :=
  (p.block ++ beyond).drop start

/-- The `len` bytes in memory from `mData[start]` on. -/
def bytesAt (p : Parcel) (beyond : List UInt8) (start len : Nat) : List UInt8 :=
  (p.memoryFrom beyond start ++ List.replicate len 0).take len

def rewind (p : Parcel) : Parcel :=
  { p with mDataPos := 0 }

def reset (_ : Parcel) : Parcel := ⟨none, 0, 0, 0⟩

/-- The number of bytes `growData` asks for. -/
def growSize (capacity size : UInt32) : UInt32 :=
  let newSize := ((capacity + size) * 3) / 2
  if newSize < DEFAULT_PARCEL_DATA_SIZE then DEFAULT_PARCEL_DATA_SIZE
  else newSize

/-- Without an overflow the new block has room for `size` more bytes. -/
theorem le_growSize {capacity size : UInt32}
    (hsmall : capacity.toNat + size.toNat < 2 ^ 30) :
    capacity.toNat + size.toNat ≤ (growSize capacity size).toNat := by
  have hnew : (((capacity + size) * 3) / 2).toNat =
      (capacity.toNat + size.toNat) * 3 / 2 := by
    rw [UInt32.toNat_div, UInt32.toNat_mul, UInt32.toNat_add]
    change (capacity.toNat + size.toNat) % 2 ^ 32 * 3 % 2 ^ 32 / 2 = _
    omega
  unfold growSize
  simp only [UInt32.lt_iff_toNat_lt, hnew]
  split
  · change _ < 256 at *
    change _ ≤ 256
    omega
  · rw [hnew]
    omega

/-- A block of `size` bytes that begins with the bytes of `old`. -/
def resize (old : List UInt8) (size : Nat) (fill : Nat → UInt8) : List UInt8 :=
  old.take size ++ (List.range (size - old.length)).map fill

@[simp] theorem length_resize (old : List UInt8) (size : Nat)
    (fill : Nat → UInt8) : (resize old size fill).length = size := by
  simp only [resize, List.length_append, List.length_take, List.length_map,
    List.length_range]
  omega

theorem prefix_resize {old : List UInt8} {size : Nat} (hle : old.length ≤ size)
    (fill : Nat → UInt8) : old <+: resize old size fill := by
  rw [resize, List.take_of_length_le hle]
  exact List.prefix_append _ _

/-- `growData`, which does not look at what `malloc` or `realloc` returned. -/
def growData (p : Parcel) (size : UInt32) (alloc : Alloc) : Parcel :=
  let newSize := growSize p.mDataCapacity size
  { p with
    mData := alloc.map (resize p.block newSize.toNat)
    mDataCapacity := newSize }

theorem block_growData (p : Parcel) (size : UInt32) (fill : Nat → UInt8) :
    (p.growData size (some fill)).block =
      resize p.block (growSize p.mDataCapacity size).toNat fill :=
  rfl

/-! ### Writing -/

/-- The copy at the end of every write.  What would land past the block is
dropped here; the access tells whether there is such a part. -/
def store (p : Parcel) (bytes : List UInt8) : Parcel × Access :=
  ({ p with
      mData := p.mData.map fun data =>
        (Cells.blit data p.mDataPos.toNat bytes).take data.length
      mDataPos := p.mDataPos + UInt32.ofNat bytes.length
      mDataSize := p.mDataSize + UInt32.ofNat bytes.length },
    ⟨p.mDataPos.toNat, bytes.length, p.block.length⟩)

theorem block_store (p : Parcel) (bytes : List UInt8) :
    (p.store bytes).1.block =
      (Cells.blit p.block p.mDataPos.toNat bytes).take p.block.length := by
  obtain ⟨data, pos, size, capacity⟩ := p
  cases data with
  | none => simp [store, block]
  | some data => rfl

@[simp] theorem length_block_store (p : Parcel) (bytes : List UInt8) :
    (p.store bytes).1.block.length = p.block.length := by
  rw [block_store, Cells.length_take_blit]

/-- The test of `write8` to `write64`, where `sizeof` makes the sum a
`size_t`. -/
def growsForScalar (p : Parcel) (len : Nat) : Bool :=
  p.mDataPos.toNat + len > p.mDataCapacity.toNat

/-- The test of `writeString` and `writeBytes`, where the sum is 32 bits
wide. -/
def growsForBlock (p : Parcel) (len : Nat) : Bool :=
  p.mDataPos + UInt32.ofNat len > p.mDataCapacity

/-- A write: grow the block if the test says so, then store. -/
def write (p : Parcel) (grows : Bool) (bytes : List UInt8) (alloc : Alloc) :
    Parcel × Access :=
  (if grows then p.growData (UInt32.ofNat bytes.length) alloc else p).store bytes

/-- A write of the `width` bytes of an integer. -/
def writeScalar (p : Parcel) (width value : Nat) (alloc : Alloc) :
    Parcel × Access :=
  p.write (p.growsForScalar width) (LittleEndian.encode width value) alloc

def write8 (p : Parcel) (val : UInt8) (alloc : Alloc) : Parcel × Access :=
  p.writeScalar 1 val.toNat alloc

def write16 (p : Parcel) (val : UInt16) (alloc : Alloc) : Parcel × Access :=
  p.writeScalar 2 val.toNat alloc

def write32 (p : Parcel) (val : UInt32) (alloc : Alloc) : Parcel × Access :=
  p.writeScalar 4 val.toNat alloc

def write64 (p : Parcel) (val : UInt64) (alloc : Alloc) : Parcel × Access :=
  p.writeScalar 8 val.toNat alloc

/-- A write of the `bytes.length` bytes at a pointer. -/
def writeBytes (p : Parcel) (bytes : List UInt8) (alloc : Alloc) :
    Parcel × Access :=
  p.write (p.growsForBlock bytes.length) bytes alloc

/-- The terminating NUL is written too. -/
def writeString (p : Parcel) (str : CString) (alloc : Alloc) :
    Parcel × Access :=
  p.writeBytes (str.bytes ++ [0]) alloc

/-! ### Reading -/

/-- What a read returns, and what it copies from the block. -/
structure Loaded (A : Type u) where
  value : A
  parcel : Parcel
  copies : List Access

def Loaded.map {A B : Type u} (f : A → B) (loaded : Loaded A) : Loaded B :=
  { loaded with value := f loaded.value }

/-- The test of every read for `len` more bytes, in 32 bits. -/
def tooShort (p : Parcel) (len : Nat) : Bool :=
  p.mDataPos + UInt32.ofNat len > p.mDataSize

/-- Copy `len` bytes out, unless the parcel is too short. -/
def load (p : Parcel) (beyond : List UInt8) (len : Nat) :
    Loaded (Option (List UInt8)) :=
  if p.tooShort len then ⟨none, p, []⟩
  else
    ⟨some (p.bytesAt beyond p.mDataPos.toNat len),
      { p with mDataPos := p.mDataPos + UInt32.ofNat len },
      [⟨p.mDataPos.toNat, len, p.block.length⟩]⟩

/-- A read of an integer of `width` bytes, with the value for a failure. -/
def readScalar (p : Parcel) (beyond : List UInt8) (width failed : Nat) :
    Loaded Nat :=
  let loaded := p.load beyond width
  ⟨(loaded.value.map LittleEndian.decode).getD failed, loaded.parcel,
    loaded.copies⟩

def read8 (p : Parcel) (beyond : List UInt8) : Loaded UInt8 :=
  (p.readScalar beyond 1 0).map UInt8.ofNat

def read16 (p : Parcel) (beyond : List UInt8) : Loaded UInt16 :=
  (p.readScalar beyond 2 0).map UInt16.ofNat

/-- A failure is -1 here and in `read64`. -/
def read32 (p : Parcel) (beyond : List UInt8) : Loaded UInt32 :=
  (p.readScalar beyond 4 (2 ^ 32 - 1)).map UInt32.ofNat

def read64 (p : Parcel) (beyond : List UInt8) : Loaded UInt64 :=
  (p.readScalar beyond 8 (2 ^ 64 - 1)).map UInt64.ofNat

/-- `readBytes` into the caller's buffer or, for a null `data`, in place.  The
value is what the pointer returned points at, `none` for `NULL`. -/
def readBytes (p : Parcel) (beyond : List UInt8) (data : Bool) (len : Nat) :
    Loaded (Option (List UInt8)) :=
  let loaded := p.load beyond len
  if data then loaded
  else
    { loaded with
      value := if p.mData = none ∧ p.mDataPos = 0 then none else loaded.value
      copies := [] }

/-- The value is the string at the pointer returned, `none` for `NULL`. -/
def readString (p : Parcel) (beyond : List UInt8) : Loaded (Option CString) :=
  let str := CString.ofMemory (p.memoryFrom beyond p.mDataPos.toNat)
  let len := str.bytes.length + 1
  if p.tooShort len then ⟨none, p, []⟩
  else
    ⟨some str, { p with mDataPos := p.mDataPos + UInt32.ofNat len }, []⟩

end Parcel

/-! ### Sending and receiving -/

/-- A descriptor that is written to: `write` returns the number of bytes
accepted, or `none` for an error. -/
structure Writer (S : Type u) where
  write : S → List UInt8 → Option Nat × S

/-- What a `read` does: it fails or stores some bytes. -/
inductive ReadResult where
  | error
  | data (bytes : List UInt8)
deriving Repr, DecidableEq

/-- A descriptor that is read from.  A read stores at most the bytes it is asked
for. -/
structure Reader (S : Type u) where
  read : S → Nat → ReadResult × S
  length_le : ∀ s len bytes, (read s len).1 = .data bytes → bytes.length ≤ len

variable {S : Type u}

/-- `Parcel::send`. -/
def Parcel.send (writer : Writer S) (s : S) (parcel : Parcel)
    (beyond : List UInt8) : Int × Parcel × S :=
  let parcel := parcel.rewind
  match writer.write s (LittleEndian.encode 4 parcel.mDataSize.toNat) with
  | (none, s) => (-1, parcel, s)
  | (some _, s) =>
      match writer.write s (parcel.bytesAt beyond 0 parcel.mDataSize.toNat) with
      | (none, s) => (-1, parcel, s)
      | (some _, s) => (0, parcel, s)

/-- The loop of `Parcel::recv`, with the number of rounds it may take. -/
def Parcel.recvPayload (reader : Reader S) :
    Nat → S → Parcel → Nat → Option (Int × Parcel × S)
  | 0, _, _, _ => none
  | fuel + 1, s, parcel, totalRead =>
      if parcel.mDataSize.toNat > totalRead then
        match reader.read s (parcel.mDataSize.toNat - totalRead) with
        | (.error, s) => some (-1, parcel.reset, s)
        | (.data bytes, s) =>
            recvPayload reader fuel s
              { parcel with
                mData := parcel.mData.map fun data =>
                  Cells.blit data totalRead bytes }
              (totalRead + bytes.length)
      else some (0, parcel, s)

/-- `Parcel::recv`.  The bytes the first read does not store are left 0 by
`reset`. -/
def Parcel.recv (reader : Reader S) (fuel : Nat) (s : S) (parcel : Parcel)
    (alloc : Alloc) : Option (Int × Parcel × S) :=
  let parcel := parcel.reset
  match reader.read s 4 with
  | (.error, s) => some (-1, parcel, s)
  | (.data header, s) =>
      let parcel := { parcel with
        mDataSize := UInt32.ofNat (LittleEndian.decode header) }
      match alloc with
      | none => some (-1, parcel, s)
      | some fill =>
          Parcel.recvPayload reader fuel s
            { parcel with
              mData := some (Parcel.resize [] parcel.mDataSize.toNat fill) }
            0

/-- What a read of at most 4 bytes stores fits into `mDataSize`. -/
theorem Parcel.toNat_ofNat_decode {first : List UInt8} (hlength : first.length ≤ 4) :
    (UInt32.ofNat (LittleEndian.decode first)).toNat =
      LittleEndian.decode first := by
  have hdecode := LittleEndian.decode_lt first
  have hpow : 256 ^ first.length ≤ 2 ^ 32 :=
    Nat.pow_le_pow_right (show 0 < 256 by omega) hlength
  exact UInt32.toNat_ofNat_of_lt' (by change _ < 2 ^ 32; omega)

end MyDirectFB

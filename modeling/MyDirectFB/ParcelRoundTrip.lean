/-
What is written into a fresh parcel is read back from it: the fields come back
in order, whatever the growing block and the memory after it happen to hold.
-/
import MyDirectFB.Parcel

namespace MyDirectFB

namespace Parcel

/-- One value that is written into a parcel. -/
inductive Field where
  | uint8 (val : UInt8)
  | uint16 (val : UInt16)
  | uint32 (val : UInt32)
  | uint64 (val : UInt64)
  | string (str : CString)
  | block (bytes : List UInt8)
deriving Repr, DecidableEq

/-- What a reader has to know about a field to call the matching function. -/
inductive FieldType where
  | uint8
  | uint16
  | uint32
  | uint64
  | string
  | block (len : Nat)
deriving Repr, DecidableEq

def Field.type : Field → FieldType
  | .uint8 _ => .uint8
  | .uint16 _ => .uint16
  | .uint32 _ => .uint32
  | .uint64 _ => .uint64
  | .string _ => .string
  | .block bytes => .block bytes.length

/-- The bytes a field takes in a parcel. -/
def Field.encode : Field → List UInt8
  | .uint8 val => LittleEndian.encode 1 val.toNat
  | .uint16 val => LittleEndian.encode 2 val.toNat
  | .uint32 val => LittleEndian.encode 4 val.toNat
  | .uint64 val => LittleEndian.encode 8 val.toNat
  | .string str => str.bytes ++ [0]
  | .block bytes => bytes

def Field.write (p : Parcel) (alloc : Alloc) : Field → Parcel
  | .uint8 val => (p.write8 val alloc).1
  | .uint16 val => (p.write16 val alloc).1
  | .uint32 val => (p.write32 val alloc).1
  | .uint64 val => (p.write64 val alloc).1
  | .string str => (p.writeString str alloc).1
  | .block bytes => (p.writeBytes bytes alloc).1

def FieldType.read (p : Parcel) (beyond : List UInt8) :
    FieldType → Loaded (Option Field)
  | .uint8 => (p.read8 beyond).map (some ∘ .uint8)
  | .uint16 => (p.read16 beyond).map (some ∘ .uint16)
  | .uint32 => (p.read32 beyond).map (some ∘ .uint32)
  | .uint64 => (p.read64 beyond).map (some ∘ .uint64)
  | .string => (p.readString beyond).map (·.map .string)
  | .block len => (p.readBytes beyond true len).map (·.map .block)

/-- Write the fields in order.  Each comes with the bytes that a block allocated
for it happens to hold. -/
def writeAll (p : Parcel) (fields : List (Field × (Nat → UInt8))) : Parcel :=
  fields.foldl (fun p field => field.1.write p (some field.2)) p

/-- Read fields of the given types in order. -/
def readAll (beyond : List UInt8) :
    Parcel → List FieldType → List (Option Field) × Parcel
  | p, [] => ([], p)
  | p, type :: types =>
      let loaded := type.read p beyond
      let rest := readAll beyond loaded.parcel types
      (loaded.value :: rest.1, rest.2)

/-! ### Writing -/

/-- The parcel holds just `bytes`, and the next write goes after them. -/
structure Holds (p : Parcel) (bytes : List UInt8) : Prop where
  pos : p.mDataPos.toNat = bytes.length
  size : p.mDataSize.toNat = bytes.length
  capacity : p.mDataCapacity.toNat = p.block.length
  kept : bytes <+: p.block

theorem fresh_holds : fresh.Holds [] :=
  ⟨rfl, rfl, rfl, List.nil_prefix⟩

/-- `growData` keeps what is there and makes room for `len` more bytes. -/
theorem Holds.growData {p : Parcel} {bytes : List UInt8} (hp : p.Holds bytes)
    {len : Nat} (hsmall : p.block.length + len < 2 ^ 30) (fill : Nat → UInt8) :
    (p.growData (UInt32.ofNat len) (some fill)).Holds bytes ∧
      bytes.length + len ≤
        (p.growData (UInt32.ofNat len) (some fill)).block.length := by
  have hlen : (UInt32.ofNat len).toNat = len :=
    UInt32.toNat_ofNat_of_lt' (by change len < 2 ^ 32; omega)
  have hroom : p.mDataCapacity.toNat + len ≤
      (growSize p.mDataCapacity (UInt32.ofNat len)).toNat := by
    have hle := @le_growSize p.mDataCapacity (UInt32.ofNat len)
      (by rw [hlen, hp.capacity]; exact hsmall)
    rwa [hlen] at hle
  have hcapacity := hp.capacity
  have hprefix := hp.kept.length_le
  rw [block_growData, length_resize]
  refine ⟨⟨hp.pos, hp.size, ?_, ?_⟩, by omega⟩
  · rw [block_growData, length_resize]
    rfl
  · rw [block_growData]
    exact hp.kept.trans (prefix_resize (by omega) fill)

/-- A store that fits appends. -/
theorem Holds.store {p : Parcel} {bytes new : List UInt8} (hp : p.Holds bytes)
    (hroom : bytes.length + new.length ≤ p.block.length) :
    (p.store new).1.Holds (bytes ++ new) := by
  have hlength : p.block.length < 2 ^ 32 :=
    hp.capacity ▸ p.mDataCapacity.toNat_lt
  have hnew : (UInt32.ofNat new.length).toNat = new.length :=
    UInt32.toNat_ofNat_of_lt' (by change _ < 2 ^ 32; omega)
  have hadd (counter : UInt32) (hcounter : counter.toNat = bytes.length) :
      (counter + UInt32.ofNat new.length).toNat = (bytes ++ new).length := by
    rw [UInt32.toNat_add, hnew, hcounter, List.length_append]
    exact Nat.mod_eq_of_lt (by omega)
  refine ⟨hadd _ hp.pos, hadd _ hp.size, ?_, ?_⟩
  · rw [length_block_store]
    exact hp.capacity
  · obtain ⟨rest, hrest⟩ := hp.kept
    rw [block_store, hp.pos, ← hrest, Cells.blit, List.take_left]
    refine ⟨(rest.drop new.length).take (rest.length - new.length), ?_⟩
    have hdrop : (bytes ++ rest).drop (bytes.length + new.length) =
        rest.drop new.length := by
      rw [List.drop_append, List.drop_of_length_le (by omega)]
      simp
    have hsplit : (bytes ++ rest).length =
        (bytes ++ new).length + (rest.length - new.length) := by
      have hwhole := congrArg List.length hrest
      simp only [List.length_append] at hwhole ⊢
      omega
    rw [hdrop, hsplit, List.take_length_add_append]

/-- A write whose test asks whether the bytes still fit appends them. -/
theorem Holds.write {p : Parcel} {bytes new : List UInt8} (hp : p.Holds bytes)
    (hsmall : bytes.length + new.length < 2 ^ 28) {grows : Bool}
    (hgrows : grows = true ↔ p.block.length < bytes.length + new.length)
    (fill : Nat → UInt8) :
    (p.write grows new (some fill)).1.Holds (bytes ++ new) := by
  unfold Parcel.write
  split
  · rename_i hgrow
    have hfull := hgrows.mp hgrow
    have hsum : p.block.length + new.length < 2 ^ 30 := by omega
    obtain ⟨hgrown, hroom⟩ := hp.growData hsum fill
    exact hgrown.store hroom
  · rename_i hfits
    have hroom : ¬ p.block.length < bytes.length + new.length :=
      fun hfull => hfits (hgrows.mpr hfull)
    exact hp.store (by omega)

theorem Holds.writeScalar {p : Parcel} {bytes : List UInt8} (hp : p.Holds bytes)
    {width : Nat} (hsmall : bytes.length + width < 2 ^ 28) (value : Nat)
    (fill : Nat → UInt8) :
    (p.writeScalar width value (some fill)).1.Holds
      (bytes ++ LittleEndian.encode width value) := by
  refine hp.write (by simpa using hsmall) ?_ fill
  simp [growsForScalar, hp.pos, hp.capacity]

theorem Holds.writeBytes {p : Parcel} {bytes new : List UInt8}
    (hp : p.Holds bytes) (hsmall : bytes.length + new.length < 2 ^ 28)
    (fill : Nat → UInt8) :
    (p.writeBytes new (some fill)).1.Holds (bytes ++ new) := by
  refine hp.write hsmall ?_ fill
  have hsum : (p.mDataPos + UInt32.ofNat new.length).toNat =
      bytes.length + new.length := by
    have hnew : (UInt32.ofNat new.length).toNat = new.length :=
      UInt32.toNat_ofNat_of_lt' (by change _ < 2 ^ 32; omega)
    rw [UInt32.toNat_add, hnew, hp.pos]
    exact Nat.mod_eq_of_lt (by omega)
  simp [growsForBlock, UInt32.lt_iff_toNat_lt, hsum, hp.capacity]

/-- Writing one field appends its bytes. -/
theorem Holds.writeField {p : Parcel} {bytes : List UInt8} (hp : p.Holds bytes)
    (field : Field) (hsmall : bytes.length + field.encode.length < 2 ^ 28)
    (fill : Nat → UInt8) :
    (field.write p (some fill)).Holds (bytes ++ field.encode) := by
  cases field with
  | uint8 val => exact hp.writeScalar (by simpa [Field.encode] using hsmall) _ _
  | uint16 val => exact hp.writeScalar (by simpa [Field.encode] using hsmall) _ _
  | uint32 val => exact hp.writeScalar (by simpa [Field.encode] using hsmall) _ _
  | uint64 val => exact hp.writeScalar (by simpa [Field.encode] using hsmall) _ _
  | string str => exact hp.writeBytes hsmall fill
  | block new => exact hp.writeBytes hsmall fill

/-- The bytes of the fields one after another. -/
def encodeAll (fields : List (Field × (Nat → UInt8))) : List UInt8 :=
  fields.flatMap fun field => field.1.encode

theorem Holds.writeAll {p : Parcel} {bytes : List UInt8} (hp : p.Holds bytes)
    (fields : List (Field × (Nat → UInt8)))
    (hsmall : bytes.length + (encodeAll fields).length < 2 ^ 28) :
    (p.writeAll fields).Holds (bytes ++ encodeAll fields) := by
  induction fields generalizing p bytes with
  | nil => simpa [Parcel.writeAll, encodeAll] using hp
  | cons field rest ih =>
      simp only [encodeAll, List.flatMap_cons, List.length_append] at hsmall
      have hfirst := hp.writeField field.1 (by omega) field.2
      have hrest := ih hfirst (by
        simp only [encodeAll, List.length_append]
        omega)
      simpa [Parcel.writeAll, encodeAll] using hrest

/-! ### Reading -/

/-- The bytes of the parcel are `front` and `back`, and the next read begins
with `back`. -/
structure Stands (p : Parcel) (front back : List UInt8) : Prop where
  pos : p.mDataPos.toNat = front.length
  size : p.mDataSize.toNat = front.length + back.length
  kept : front ++ back <+: p.block

theorem Holds.rewind {p : Parcel} {bytes : List UInt8} (hp : p.Holds bytes) :
    p.rewind.Stands [] bytes :=
  ⟨rfl, by simpa [Parcel.rewind] using hp.size, hp.kept⟩

theorem Stands.toNat_pos_add {p : Parcel} {front new back : List UInt8}
    (hp : p.Stands front (new ++ back)) :
    (p.mDataPos + UInt32.ofNat new.length).toNat =
      front.length + new.length := by
  have hsize := p.mDataSize.toNat_lt
  rw [hp.size, List.length_append] at hsize
  have hnew : (UInt32.ofNat new.length).toNat = new.length :=
    UInt32.toNat_ofNat_of_lt' (by change _ < 2 ^ 32; omega)
  rw [UInt32.toNat_add, hnew, hp.pos]
  exact Nat.mod_eq_of_lt (by omega)

theorem Stands.not_tooShort {p : Parcel} {front new back : List UInt8}
    (hp : p.Stands front (new ++ back)) : p.tooShort new.length = false := by
  simp [tooShort, UInt32.le_iff_toNat_le, hp.toNat_pos_add, hp.size]

/-- The bytes at the position are those still to be read. -/
theorem Stands.memoryFrom {p : Parcel} {front back : List UInt8}
    (hp : p.Stands front back) (beyond : List UInt8) :
    ∃ rest, p.memoryFrom beyond p.mDataPos.toNat = back ++ rest := by
  obtain ⟨tail, htail⟩ := hp.kept
  refine ⟨tail ++ beyond, ?_⟩
  rw [Parcel.memoryFrom, ← htail, hp.pos]
  simp [List.append_assoc]

/-- Moving the position over `new`. -/
theorem Stands.advance {p : Parcel} {front new back : List UInt8}
    (hp : p.Stands front (new ++ back)) :
    Stands { p with mDataPos := p.mDataPos + UInt32.ofNat new.length }
      (front ++ new) back where
  pos := by rw [hp.toNat_pos_add, List.length_append]
  size := by simpa [Nat.add_assoc] using hp.size
  kept := by
    change front ++ new ++ back <+: p.block
    simpa [List.append_assoc] using hp.kept

theorem Stands.load {p : Parcel} {front new back : List UInt8}
    (hp : p.Stands front (new ++ back)) (beyond : List UInt8) :
    (p.load beyond new.length).value = some new ∧
      (p.load beyond new.length).parcel.Stands (front ++ new) back := by
  obtain ⟨rest, hrest⟩ := hp.memoryFrom beyond
  rw [Parcel.load, hp.not_tooShort]
  refine ⟨?_, hp.advance⟩
  simp [bytesAt, hrest, List.append_assoc]

theorem Stands.readScalar {p : Parcel} {front back : List UInt8}
    {width value : Nat} (hvalue : value < 256 ^ width)
    (hp : p.Stands front (LittleEndian.encode width value ++ back))
    (beyond : List UInt8) (failed : Nat) :
    (p.readScalar beyond width failed).value = value ∧
      (p.readScalar beyond width failed).parcel.Stands
        (front ++ LittleEndian.encode width value) back := by
  have hload := hp.load beyond
  rw [LittleEndian.length_encode] at hload
  refine ⟨?_, hload.2⟩
  simp [Parcel.readScalar, hload.1, LittleEndian.decode_encode_of_lt hvalue]

theorem Stands.readString {p : Parcel} {front back : List UInt8} {str : CString}
    (hp : p.Stands front ((str.bytes ++ [0]) ++ back)) (beyond : List UInt8) :
    (p.readString beyond).value = some str ∧
      (p.readString beyond).parcel.Stands (front ++ (str.bytes ++ [0])) back := by
  obtain ⟨rest, hrest⟩ := hp.memoryFrom beyond
  have hstr : CString.ofMemory (p.memoryFrom beyond p.mDataPos.toNat) = str := by
    rw [hrest]
    simpa using str.ofMemory_append (back ++ rest)
  have hlen : str.bytes.length + 1 = (str.bytes ++ [0]).length := by simp
  simp only [Parcel.readString, hstr, hlen, hp.not_tooShort]
  exact ⟨rfl, hp.advance⟩

/-- Reading one field gives it back and leaves the rest to be read. -/
theorem Stands.readField {p : Parcel} {front back : List UInt8} (field : Field)
    (hp : p.Stands front (field.encode ++ back)) (beyond : List UInt8) :
    (field.type.read p beyond).value = some field ∧
      (field.type.read p beyond).parcel.Stands (front ++ field.encode) back := by
  cases field with
  | uint8 val =>
      obtain ⟨hvalue, hparcel⟩ := hp.readScalar val.toNat_lt beyond 0
      refine ⟨?_, hparcel⟩
      simp [Field.type, FieldType.read, Parcel.read8, Loaded.map, hvalue]
  | uint16 val =>
      obtain ⟨hvalue, hparcel⟩ := hp.readScalar val.toNat_lt beyond 0
      refine ⟨?_, hparcel⟩
      simp [Field.type, FieldType.read, Parcel.read16, Loaded.map, hvalue]
  | uint32 val =>
      obtain ⟨hvalue, hparcel⟩ := hp.readScalar val.toNat_lt beyond (2 ^ 32 - 1)
      refine ⟨?_, hparcel⟩
      simp only [Field.type, FieldType.read, Parcel.read32, Loaded.map, hvalue]
      simp
  | uint64 val =>
      obtain ⟨hvalue, hparcel⟩ := hp.readScalar val.toNat_lt beyond (2 ^ 64 - 1)
      refine ⟨?_, hparcel⟩
      simp only [Field.type, FieldType.read, Parcel.read64, Loaded.map, hvalue]
      simp
  | string str =>
      obtain ⟨hvalue, hparcel⟩ := hp.readString beyond
      refine ⟨?_, hparcel⟩
      simp [Field.type, FieldType.read, Loaded.map, hvalue]
  | block bytes =>
      obtain ⟨hvalue, hparcel⟩ := @Stands.load p front bytes back hp beyond
      refine ⟨?_, hparcel⟩
      simp [Field.type, FieldType.read, Parcel.readBytes, Loaded.map, hvalue]

theorem Stands.readAll {p : Parcel} {front : List UInt8}
    (fields : List (Field × (Nat → UInt8)))
    (hp : p.Stands front (encodeAll fields)) (beyond : List UInt8) :
    (Parcel.readAll beyond p (fields.map (·.1.type))).1 =
        fields.map (some ·.1) ∧
      (Parcel.readAll beyond p (fields.map (·.1.type))).2.Stands
        (front ++ encodeAll fields) [] := by
  induction fields generalizing p front with
  | nil => exact ⟨rfl, by simpa [Parcel.readAll, encodeAll] using hp⟩
  | cons field rest ih =>
      obtain ⟨hvalue, hparcel⟩ := Stands.readField field.1 hp beyond
      obtain ⟨hvalues, hparcels⟩ := ih hparcel
      refine ⟨?_, ?_⟩
      · simp only [List.map_cons, Parcel.readAll, hvalue, hvalues]
      · simpa [Parcel.readAll, encodeAll, List.append_assoc] using hparcels

/-- Fields whose encodings take less than 2^28 bytes, written into a fresh
parcel, are read back in order after `rewind`, and the position and the size end
up at the total length. -/
theorem readAll_writeAll (fields : List (Field × (Nat → UInt8)))
    (beyond : List UInt8) (hsmall : (encodeAll fields).length < 2 ^ 28) :
    let result := Parcel.readAll beyond (fresh.writeAll fields).rewind
      (fields.map (·.1.type))
    result.1 = fields.map (some ·.1) ∧
      result.2.mDataPos = result.2.mDataSize ∧
      result.2.mDataSize.toNat = (encodeAll fields).length := by
  have hwritten : (fresh.writeAll fields).Holds (encodeAll fields) :=
    fresh_holds.writeAll fields (by simpa using hsmall)
  obtain ⟨hvalues, hparcel⟩ := Stands.readAll fields hwritten.rewind beyond
  refine ⟨hvalues, UInt32.toNat_inj.mp ?_, by simpa using hparcel.size⟩
  rw [hparcel.pos, hparcel.size]
  rfl

/-- A number, an empty block and a string. -/
theorem readAll_writeAll_three :
    let fields := [(Field.uint16 300, fun _ => 7), (.block [], fun _ => 7),
      (.string ⟨[104, 105], by decide⟩, fun _ => 7)]
    (Parcel.readAll [] (fresh.writeAll fields).rewind
        (fields.map (·.1.type))).1 = fields.map (some ·.1) ∧
      (encodeAll fields).length = 5 :=
  ⟨(readAll_writeAll _ [] (by decide)).1, by decide⟩

end Parcel

end MyDirectFB

/-
`Parcel::recv` on a stream that ends.  At the end of a file `read` returns 0 for
ever, which the loop of `recv` does not tell from a read that stored something,
and the read of the header does not look at how many bytes it got.
-/
import MyDirectFB.ParcelStream

namespace MyDirectFB

universe u

/-- A descriptor of a finite stream: after its last byte every read returns 0. -/
structure FileReader (S : Type u) extends StreamReader S where
  ends : ∀ s len, stream s = [] →
    ∃ t, read s len = (.data [], t) ∧ stream t = []

namespace Parcel

variable {R : Type u}

/-- The stream begins with a header and as many bytes as it says. -/
def HoldsParcel (bytes : List UInt8) : Prop :=
  4 ≤ bytes.length ∧ 4 + LittleEndian.decode (bytes.take 4) ≤ bytes.length

/-- `recv` returns.  It returns 0 only if the stream holds a parcel and the
block has been allocated, and otherwise -1 with the parcel empty. -/
def ReceivesCleanly (reader : FileReader R) (s : R) (into : Parcel)
    (alloc : Alloc) : Prop :=
  ∃ fuel ret q t,
    Parcel.recv reader.toReader fuel s into alloc = some (ret, q, t) ∧
      (ret = 0 → HoldsParcel (reader.stream s) ∧ alloc.isSome = true) ∧
      (ret ≠ 0 → ret = -1 ∧ q = fresh)

/-- What any read of a file does. -/
theorem FileReader.read_cases (reader : FileReader R) (s : R) {len : Nat}
    (hlen : 0 < len) :
    ∃ bytes t, reader.read s len = (.data bytes, t) ∧ bytes.length ≤ len ∧
      reader.stream s = bytes ++ reader.stream t := by
  by_cases hend : reader.stream s = []
  · obtain ⟨t, hread, ht⟩ := reader.ends s len hend
    exact ⟨[], t, hread, Nat.zero_le len, by rw [hend, ht, List.nil_append]⟩
  · obtain ⟨bytes, t, hread, -, hsplit⟩ := reader.delivers s len hlen hend
    exact ⟨bytes, t, hread, reader.length_le s len bytes (by rw [hread]), hsplit⟩

/-- With fewer bytes in the stream than are missing, the loop never returns. -/
theorem recvPayload_stalls (reader : FileReader R) (fuel : Nat) {s : R}
    {p : Parcel} {totalRead : Nat}
    (hshort : totalRead + (reader.stream s).length < p.mDataSize.toNat) :
    recvPayload reader.toReader fuel s p totalRead = none := by
  induction fuel generalizing s p totalRead with
  | zero => rfl
  | succ fuel ih =>
      have hmissing : p.mDataSize.toNat > totalRead := by omega
      have hasked : 0 < p.mDataSize.toNat - totalRead := by omega
      obtain ⟨bytes, t, hread, -, hsplit⟩ :=
        FileReader.read_cases reader s hasked
      rw [hsplit, List.length_append] at hshort
      rw [recvPayload, if_pos hmissing, hread]
      apply ih
      change totalRead + bytes.length + (reader.stream t).length <
        p.mDataSize.toNat
      omega

/-- After the first read of a stream that holds a parcel there are at least as
many bytes as this read makes the loop expect. -/
theorem HoldsParcel.decode_le {first rest : List UInt8}
    (hholds : HoldsParcel (first ++ rest)) (hlength : first.length ≤ 4) :
    LittleEndian.decode first ≤ rest.length := by
  obtain ⟨-, henough⟩ := hholds
  have hfirst : ((first ++ rest).take 4).take first.length = first := by
    rw [List.take_take, Nat.min_eq_left hlength, List.take_left]
  have hle := LittleEndian.decode_take_le first.length ((first ++ rest).take 4)
  rw [hfirst] at hle
  rw [List.length_append] at henough
  omega

/-- Without a block `recv` fails at once.  What the first read stored stays in
`mDataSize`. -/
theorem receivesCleanly_none_iff (reader : FileReader R) {s t : R}
    {first : List UInt8} (hread : reader.read s 4 = (.data first, t))
    (hlength : first.length ≤ 4) (into : Parcel) :
    ReceivesCleanly reader s into none ↔ LittleEndian.decode first = 0 := by
  have hfails (fuel : Nat) : Parcel.recv reader.toReader fuel s into none =
      some (-1, { into.reset with
        mDataSize := UInt32.ofNat (LittleEndian.decode first) }, t) := by
    simp [Parcel.recv, hread]
  have hempty : { into.reset with
        mDataSize := UInt32.ofNat (LittleEndian.decode first) } = fresh ↔
      LittleEndian.decode first = 0 := by
    simp only [reset, fresh, Parcel.mk.injEq, true_and, and_true,
      ← UInt32.toNat_inj, toNat_ofNat_decode hlength]
    exact Iff.rfl
  constructor
  · rintro ⟨fuel, ret, q, v, hrecv, -, hclean⟩
    rw [hfails] at hrecv
    cases hrecv
    exact hempty.mp (hclean (by decide)).2
  · intro hzero
    exact ⟨0, -1, _, t, hfails 0, fun habsurd => absurd habsurd (by decide),
      fun _ => ⟨rfl, hempty.mpr hzero⟩⟩

/-- With a block `recv` comes to an end only by receiving as many bytes as the
first read asks for. -/
theorem receivesCleanly_some_iff (reader : FileReader R) {s t : R}
    {first : List UInt8} (hread : reader.read s 4 = (.data first, t))
    (hlength : first.length ≤ 4)
    (hsplit : reader.stream s = first ++ reader.stream t) (into : Parcel)
    (fill : Nat → UInt8) :
    ReceivesCleanly reader s into (some fill) ↔
      HoldsParcel (reader.stream s) := by
  have hsize := toNat_ofNat_decode hlength
  let p : Parcel := { into.reset with
    mDataSize := UInt32.ofNat (LittleEndian.decode first)
    mData := some (resize []
      (UInt32.ofNat (LittleEndian.decode first)).toNat fill) }
  have hrecv (fuel : Nat) :
      Parcel.recv reader.toReader fuel s into (some fill) =
        recvPayload reader.toReader fuel t p 0 := by
    simp [Parcel.recv, hread, p]
  by_cases henough : LittleEndian.decode first ≤ (reader.stream t).length
  · obtain ⟨fuel, v, hpayload⟩ := recvPayload_delivers reader.toStreamReader t
      p [] (resize [] (UInt32.ofNat (LittleEndian.decode first)).toNat fill)
      rfl (by simp [p]) (by rw [length_resize, hsize]; exact henough)
    rw [List.length_nil, ← hrecv] at hpayload
    constructor
    · rintro ⟨other, ret, q, w, hother, hholds, -⟩
      have hsame := recv_unique hpayload hother
      simp only [Prod.mk.injEq] at hsame
      exact (hholds hsame.1.symm).1
    · intro hholds
      exact ⟨fuel, 0, _, v, hpayload, fun _ => ⟨hholds, rfl⟩,
        fun habsurd => absurd rfl habsurd⟩
  · have hshort : 0 + (reader.stream t).length < p.mDataSize.toNat := by
      change _ < (UInt32.ofNat (LittleEndian.decode first)).toNat
      omega
    constructor
    · rintro ⟨fuel, ret, q, v, hreturns, -⟩
      rw [hrecv, recvPayload_stalls reader fuel hshort] at hreturns
      cases hreturns
    · intro hholds
      rw [hsplit] at hholds
      exact absurd (hholds.decode_le hlength) henough

/-- `recv` ends and fails cleanly exactly if the stream holds a parcel and there
is a block for it, or there is no block and the first read makes the parcel
empty. -/
theorem receivesCleanly_iff (reader : FileReader R) (s : R) (into : Parcel)
    (alloc : Alloc) :
    ReceivesCleanly reader s into alloc ↔
      (alloc.isSome = true ∧ HoldsParcel (reader.stream s)) ∨
        (alloc = none ∧ ∃ first, (reader.read s 4).1 = .data first ∧
          LittleEndian.decode first = 0) := by
  have hfour : 0 < 4 := by decide
  obtain ⟨first, t, hread, hlength, hsplit⟩ :=
    FileReader.read_cases reader s hfour
  cases alloc with
  | none =>
      rw [receivesCleanly_none_iff reader hread hlength into]
      simp [hread]
  | some fill =>
      rw [receivesCleanly_some_iff reader hread hlength hsplit into fill]
      simp

/-! ### Streams that end too early -/

/-- A file that delivers up to `chunk + 1` bytes at a time. -/
def chunkFile (chunk : Nat) : FileReader (List UInt8) where
  toStreamReader := chunkReader chunk
  ends s len hs := by
    change s = [] at hs
    subst hs
    exact ⟨[], by simp [chunkReader], rfl⟩

/-- `recv` does not return if the payload is missing, returns 0 if the header
is, and leaves the size of a parcel it cannot allocate. -/
theorem truncated_not_received :
    (∀ fuel, Parcel.recv (chunkFile 63).toReader fuel [1, 0, 0, 0] fresh
        (some fun _ => 0) = none) ∧
      Parcel.recv (chunkFile 63).toReader 1 [] fresh (some fun _ => 0) =
        some (0, ⟨some [], 0, 0, 0⟩, []) ∧
      Parcel.recv (chunkFile 63).toReader 1 [1, 0, 0, 0, 7] fresh none =
        some (-1, ⟨none, 0, 1, 0⟩, [7]) ∧
      ¬ ReceivesCleanly (chunkFile 63) [1, 0, 0, 0] fresh
        (some fun _ => 0) := by
  have hstalls (fuel : Nat) : Parcel.recv (chunkFile 63).toReader fuel
      [1, 0, 0, 0] fresh (some fun _ => 0) = none :=
    recvPayload_stalls (chunkFile 63) fuel (show 0 + 0 < 1 by decide)
  refine ⟨hstalls, rfl, rfl, ?_⟩
  rintro ⟨fuel, ret, q, t, hreturns, -⟩
  rw [hstalls] at hreturns
  cases hreturns

end Parcel

end MyDirectFB

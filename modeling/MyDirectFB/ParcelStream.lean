/-
A parcel that is sent into one descriptor and received from another.  The
descriptors may cut the stream into chunks as they like.  `recv` puts the chunks
of the payload together, but neither `send` nor the read of the header does.
-/
import MyDirectFB.Parcel

namespace MyDirectFB

universe u v

/-- A descriptor that accepts a prefix of what it is given, and not the empty
one.  `stream` is all it has accepted. -/
structure StreamWriter (S : Type u) extends Writer S where
  stream : S → List UInt8
  accepts : ∀ s bytes, ∃ n t, write s bytes = (some n, t) ∧ n ≤ bytes.length ∧
    (bytes ≠ [] → 0 < n) ∧ stream t = stream s ++ bytes.take n

/-- A descriptor that delivers a prefix of what is still in the stream, and not
the empty one. -/
structure StreamReader (S : Type u) extends Reader S where
  stream : S → List UInt8
  delivers : ∀ s len, 0 < len → stream s ≠ [] → ∃ bytes t,
    read s len = (.data bytes, t) ∧ bytes ≠ [] ∧ stream s = bytes ++ stream t

namespace Parcel

variable {W : Type u} {R : Type v}

/-- The payload of a parcel. -/
def payload (p : Parcel) (beyond : List UInt8) : List UInt8 :=
  p.bytesAt beyond 0 p.mDataSize.toNat

@[simp] theorem length_payload (p : Parcel) (beyond : List UInt8) :
    (p.payload beyond).length = p.mDataSize.toNat := by
  simp [payload, bytesAt]

def header (p : Parcel) : List UInt8 :=
  LittleEndian.encode 4 p.mDataSize.toNat

/-- If `send` returns 0, the header and the payload are in the stream. -/
def Sent (p : Parcel) (beyond : List UInt8) (writer : StreamWriter W) (s : W) :
    Prop :=
  let result := Parcel.send writer.toWriter s p beyond
  result.1 = 0 →
    writer.stream result.2.2 = writer.stream s ++ p.header ++ p.payload beyond

/-- `recv` returns 0 and leaves a copy of `p`, at its beginning. -/
def Received (p : Parcel) (beyond : List UInt8) (reader : StreamReader R)
    (s : R) (into : Parcel) (alloc : Alloc) : Prop :=
  ∃ fuel q t, Parcel.recv reader.toReader fuel s into alloc = some (0, q, t) ∧
    q.mData = some (p.payload beyond) ∧ q.mDataSize = p.mDataSize ∧
    q.mDataPos = 0

/-! ### Sending -/

/-- Both writes of `send` are accepted whole. -/
def AcceptedWhole (p : Parcel) (beyond : List UInt8) (writer : StreamWriter W)
    (s : W) : Prop :=
  (writer.write s p.header).1 = some 4 ∧
    (writer.write (writer.write s p.header).2 (p.payload beyond)).1 =
      some p.mDataSize.toNat

theorem sent_iff (p : Parcel) (beyond : List UInt8) (writer : StreamWriter W)
    (s : W) : p.Sent beyond writer s ↔ p.AcceptedWhole beyond writer s := by
  obtain ⟨n, t, hheader, hn, -, ht⟩ := writer.accepts s p.header
  obtain ⟨m, v, hpayload, hm, -, hv⟩ := writer.accepts t (p.payload beyond)
  have hlength : p.header.length = 4 := LittleEndian.length_encode _ _
  rw [length_payload] at hm
  have hfirst : writer.write s
      (LittleEndian.encode 4 p.rewind.mDataSize.toNat) = (some n, t) := hheader
  have hsecond : writer.write t
      (p.rewind.bytesAt beyond 0 p.rewind.mDataSize.toNat) = (some m, v) :=
    hpayload
  have hsend : Parcel.send writer.toWriter s p beyond = (0, p.rewind, v) := by
    simp only [Parcel.send, hfirst, hsecond]
  simp only [Sent, AcceptedWhole, hsend, hheader, hpayload, hv, ht,
    Option.some.injEq, forall_const, List.append_assoc, List.append_cancel_left_eq]
  constructor
  · intro hall
    have hlengths := congrArg List.length hall
    simp only [List.length_append, List.length_take, length_payload,
      hlength] at hlengths
    omega
  · rintro ⟨rfl, rfl⟩
    rw [List.take_of_length_le (by omega), List.take_of_length_le (by simp)]

/-! ### Receiving -/

/-- More rounds do not change what the loop returns. -/
theorem recvPayload_mono {reader : Reader R} {fuel more : Nat} {s : R}
    {p : Parcel} {totalRead : Nat} {result : Int × Parcel × R}
    (hle : fuel ≤ more)
    (hresult : recvPayload reader fuel s p totalRead = some result) :
    recvPayload reader more s p totalRead = some result := by
  induction fuel generalizing more s p totalRead with
  | zero => simp [recvPayload] at hresult
  | succ fuel ih =>
      obtain ⟨more, rfl⟩ : ∃ k, more = k + 1 := ⟨more - 1, by omega⟩
      rw [recvPayload] at hresult ⊢
      split
      · rename_i hmissing
        rw [if_pos hmissing] at hresult
        split at hresult
        · exact hresult
        · exact ih (by omega) hresult
      · rename_i hdone
        rwa [if_neg hdone] at hresult

theorem recv_unique {reader : Reader R} {fuel other : Nat} {s : R} {p : Parcel}
    {alloc : Alloc} {result result' : Int × Parcel × R}
    (hresult : Parcel.recv reader fuel s p alloc = some result)
    (hresult' : Parcel.recv reader other s p alloc = some result') :
    result = result' := by
  unfold Parcel.recv at hresult hresult'
  rcases hread : reader.read s 4 with ⟨_ | header, t⟩
  · simp only [hread] at hresult hresult'
    exact Option.some.inj (hresult.symm.trans hresult')
  · simp only [hread] at hresult hresult'
    cases alloc with
    | none => exact Option.some.inj (hresult.symm.trans hresult')
    | some fill =>
        have hone := recvPayload_mono (Nat.le_max_left fuel other) hresult
        have htwo := recvPayload_mono (Nat.le_max_right fuel other) hresult'
        exact Option.some.inj (hone.symm.trans htwo)

/-- The loop fills the block with the next bytes of the stream, however they are
cut into chunks. -/
theorem recvPayload_delivers (reader : StreamReader R) (s : R) (p : Parcel)
    (done missing : List UInt8) (hdata : p.mData = some (done ++ missing))
    (hsize : p.mDataSize.toNat = done.length + missing.length)
    (hstream : missing.length ≤ (reader.stream s).length) :
    ∃ fuel t, recvPayload reader.toReader fuel s p done.length =
      some (0, { p with
        mData := some (done ++ (reader.stream s).take missing.length) }, t) := by
  induction hn : missing.length using Nat.strong_induction_on
    generalizing s p done missing with
  | _ n ih =>
      subst hn
      by_cases hdone : missing.length = 0
      · have hnil : missing = [] := List.length_eq_zero_iff.mp hdone
        subst hnil
        refine ⟨1, s, ?_⟩
        have hstop : ¬ p.mDataSize.toNat > done.length := by simp [hsize]
        obtain ⟨data, pos, size, capacity⟩ := p
        simp only [recvPayload, if_neg hstop]
        simp_all
      · have hmissing : p.mDataSize.toNat > done.length := by omega
        have hasked : p.mDataSize.toNat - done.length = missing.length := by
          omega
        have hstill : reader.stream s ≠ [] := by
          intro hnil
          have hzero : (reader.stream s).length = 0 := by rw [hnil]; rfl
          omega
        obtain ⟨bytes, t, hread, hbytes, hsplit⟩ := reader.delivers s
          missing.length (by omega) hstill
        have hle : bytes.length ≤ missing.length :=
          reader.length_le s missing.length bytes (by rw [hread])
        have hpos : 0 < bytes.length := List.length_pos_iff.mpr hbytes
        have hblit : Cells.blit (done ++ missing) done.length bytes =
            (done ++ bytes) ++ missing.drop bytes.length := by
          rw [Cells.blit, List.take_left, List.drop_append,
            List.drop_of_length_le (by omega)]
          simp
        rw [hsplit, List.length_append] at hstream
        obtain ⟨fuel, v, hrest⟩ := ih (missing.drop bytes.length).length
          (by rw [List.length_drop]; omega) t
          { p with mData := some ((done ++ bytes) ++ missing.drop bytes.length) }
          (done ++ bytes) (missing.drop bytes.length) rfl
          (by simp only [List.length_append, List.length_drop]; omega)
          (by rw [List.length_drop]; omega) rfl
        refine ⟨fuel + 1, v, ?_⟩
        rw [recvPayload, if_pos hmissing, hasked, hread]
        simp only [hdata, Option.map_some, hblit]
        rw [List.length_append] at hrest
        rw [hrest, hsplit, List.take_append, List.take_of_length_le hle,
          List.length_drop, List.append_assoc]

/-- A header cut after its first bytes. -/
theorem split_stream {first rest header payload : List UInt8}
    (hsplit : header ++ payload = first ++ rest)
    (hle : first.length ≤ header.length) :
    first = header.take first.length ∧
      rest = header.drop first.length ++ payload := by
  have htake := congrArg (List.take first.length) hsplit
  have hdrop := congrArg (List.drop first.length) hsplit
  rw [List.take_append_of_le_length hle, List.take_left] at htake
  rw [List.drop_append_of_le_length hle, List.drop_left] at hdrop
  exact ⟨htake.symm, hdrop.symm⟩

/-- What `recv` makes of a stream whose header is delivered as `first`: the
parcel is as long as these bytes say, and its payload begins with the rest of
the header. -/
theorem recv_delivers {p : Parcel} {beyond : List UInt8}
    {reader : StreamReader R} {s t : R} {first : List UInt8}
    (hstream : reader.stream s = p.header ++ p.payload beyond)
    (hread : reader.read s 4 = (.data first, t))
    (hsplit : reader.stream s = first ++ reader.stream t)
    (into : Parcel) (fill : Nat → UInt8) :
    ∃ fuel q v, Parcel.recv reader.toReader fuel s into (some fill) =
        some (0, q, v) ∧
      q.mDataSize.toNat = p.mDataSize.toNat % 256 ^ first.length ∧
      q.mDataPos = 0 ∧
      q.mData = some ((p.header.drop first.length ++ p.payload beyond).take
        q.mDataSize.toNat) := by
  have hlength : p.header.length = 4 := LittleEndian.length_encode _ _
  have hle : first.length ≤ 4 := reader.length_le s 4 first (by rw [hread])
  obtain ⟨hfirst, hrest⟩ := split_stream (hstream ▸ hsplit) (by omega)
  have hdecode : LittleEndian.decode first =
      p.mDataSize.toNat % 256 ^ first.length := by
    rw [hfirst, header, LittleEndian.take_encode hle,
      LittleEndian.decode_encode, LittleEndian.length_encode]
  have hsize : (UInt32.ofNat (LittleEndian.decode first)).toNat =
      p.mDataSize.toNat % 256 ^ first.length := by
    rw [toNat_ofNat_decode hle, hdecode]
  have hmod := Nat.mod_le p.mDataSize.toNat (256 ^ first.length)
  let q : Parcel := { into.reset with
    mDataSize := UInt32.ofNat (LittleEndian.decode first)
    mData := some (resize []
      (UInt32.ofNat (LittleEndian.decode first)).toNat fill) }
  obtain ⟨fuel, v, hrecv⟩ := recvPayload_delivers reader t q []
    (resize [] (UInt32.ofNat (LittleEndian.decode first)).toNat fill) rfl
    (by simp [q]) (by
      rw [hrest, length_resize, List.length_append, length_payload]
      omega)
  rw [length_resize, hrest, List.nil_append] at hrecv
  refine ⟨fuel, { q with
    mData := some ((p.header.drop first.length ++ p.payload beyond).take
      q.mDataSize.toNat) }, v, ?_, hsize, rfl, rfl⟩
  simp only [Parcel.recv, hread]
  exact hrecv

theorem take_zeros_append_iff {count : Nat} (hcount : 0 < count)
    (bytes : List UInt8) :
    (List.replicate count 0 ++ bytes).take bytes.length = bytes ↔
      ∀ byte ∈ bytes, byte = 0 := by
  constructor
  · intro hshift
    -- each byte equals the one `count` places before it, if there is one
    have hzero (i : Nat) (hi : i < bytes.length) : bytes[i] = 0 := by
      induction i using Nat.strong_induction_on with
      | _ i ih =>
          have hget := congrArg (·[i]?) hshift
          simp only [List.getElem?_take, hi, ↓reduceIte, List.getElem?_append,
            List.length_replicate, List.getElem?_eq_getElem hi] at hget
          split at hget
          · rename_i hfront
            simpa [List.getElem?_replicate, hfront, eq_comm] using hget
          · rename_i hback
            have hprev : i - count < bytes.length := by omega
            rw [List.getElem?_eq_getElem hprev, Option.some.injEq] at hget
            rw [← hget]
            exact ih (i - count) (by omega) hprev
    intro byte hbyte
    obtain ⟨i, hi, rfl⟩ := List.mem_iff_getElem.mp hbyte
    exact hzero i hi
  · intro hzero
    have hbytes : bytes = List.replicate bytes.length 0 :=
      List.eq_replicate_iff.mpr ⟨rfl, hzero⟩
    rw [hbytes, ← List.replicate_add, List.take_replicate,
      List.length_replicate]
    congr 1
    omega

/-- After a header read of `n` bytes the rest of the header and the payload are
taken for the payload. -/
theorem payload_kept_iff (p : Parcel) (beyond : List UInt8) {n : Nat}
    (hn : n ≤ 4) :
    (p.mDataSize.toNat < 256 ^ n ∧
        (p.header.drop n ++ p.payload beyond).take
          (p.mDataSize.toNat % 256 ^ n) = p.payload beyond) ↔
      n = 4 ∨ p.mDataSize.toNat < 256 ^ n ∧
        ∀ byte ∈ p.payload beyond, byte = 0 := by
  have hlength : p.header.length = 4 := LittleEndian.length_encode _ _
  by_cases hfour : n = 4
  · have hlt : p.mDataSize.toNat < 256 ^ 4 := p.mDataSize.toNat_lt
    have hdrop : p.header.drop 4 = [] := List.drop_of_length_le (by omega)
    simp only [hfour, hdrop, List.nil_append, true_or, iff_true]
    refine ⟨hlt, ?_⟩
    rw [Nat.mod_eq_of_lt hlt, ← p.length_payload beyond, List.take_length]
  · simp only [hfour, false_or]
    refine and_congr_right fun hlt => ?_
    have hdrop : p.header.drop n = List.replicate (4 - n) 0 := by
      rw [header, LittleEndian.drop_encode hn, Nat.div_eq_of_lt hlt,
        LittleEndian.encode_zero]
    rw [Nat.mod_eq_of_lt hlt, hdrop, ← p.length_payload beyond]
    exact take_zeros_append_iff (by omega) _

/-- The header is read whole, or what is missing of it could be made up for by
nothing but zeros. -/
def HeaderRead (p : Parcel) (beyond : List UInt8) (reader : StreamReader R)
    (s : R) : Prop :=
  ∃ first, (reader.read s 4).1 = .data first ∧
    (first.length = 4 ∨ p.mDataSize.toNat < 256 ^ first.length ∧
      ∀ byte ∈ p.payload beyond, byte = 0)

theorem received_iff {p : Parcel} {beyond : List UInt8}
    {reader : StreamReader R} {s : R}
    (hstream : reader.stream s = p.header ++ p.payload beyond) (into : Parcel)
    (alloc : Alloc) :
    p.Received beyond reader s into alloc ↔
      alloc.isSome = true ∧ p.HeaderRead beyond reader s := by
  have hlength : p.header.length = 4 := LittleEndian.length_encode _ _
  have hstill : reader.stream s ≠ [] := by
    intro hnil
    have hzero := congrArg List.length (hstream.symm.trans hnil)
    simp [hlength] at hzero
  obtain ⟨first, t, hread, hfirst, hsplit⟩ := reader.delivers s 4 (by omega)
    hstill
  have hle : first.length ≤ 4 := reader.length_le s 4 first (by rw [hread])
  have hheader : p.HeaderRead beyond reader s ↔ first.length = 4 ∨
      p.mDataSize.toNat < 256 ^ first.length ∧
        ∀ byte ∈ p.payload beyond, byte = 0 := by
    simp [HeaderRead, hread]
  rw [hheader]
  cases alloc with
  | none =>
      have hfails (fuel : Nat) : Parcel.recv reader.toReader fuel s into none =
          some (-1, { into.reset with
            mDataSize := UInt32.ofNat (LittleEndian.decode first) }, t) := by
        simp [Parcel.recv, hread]
      simp [Received, hfails]
  | some fill =>
      obtain ⟨fuel, q, v, hrecv, hsize, hpos, hdata⟩ := recv_delivers hstream
        hread hsplit into fill
      have hq : p.Received beyond reader s into (some fill) ↔
          q.mDataSize = p.mDataSize ∧ q.mData = some (p.payload beyond) := by
        constructor
        · rintro ⟨other, q', v', hrecv', hdata', hsize', -⟩
          have hsame := recv_unique hrecv hrecv'
          simp only [Prod.mk.injEq, true_and] at hsame
          rw [hsame.1]
          exact ⟨hsize', hdata'⟩
        · rintro ⟨hsize', hdata'⟩
          exact ⟨fuel, q, v, hrecv, hdata', hsize', hpos⟩
      have hwhole : q.mDataSize = p.mDataSize ↔
          p.mDataSize.toNat < 256 ^ first.length := by
        rw [← UInt32.toNat_inj, hsize]
        exact Nat.mod_eq_iff_lt (Nat.pos_iff_ne_zero.mp (Nat.pow_pos (by omega)))
      rw [hq, hdata, Option.some.injEq, hwhole, hsize]
      simpa using p.payload_kept_iff beyond hle

/-- A transfer does what it should exactly if both writes of `send` are accepted
whole, the block can be allocated, and the header is read whole or need not
be. -/
theorem transfer_iff {p : Parcel} {beyond : List UInt8} (writer : StreamWriter W)
    (s : W) {reader : StreamReader R} {u : R}
    (hstream : reader.stream u = p.header ++ p.payload beyond) (into : Parcel)
    (alloc : Alloc) :
    p.Sent beyond writer s ∧ p.Received beyond reader u into alloc ↔
      p.AcceptedWhole beyond writer s ∧ alloc.isSome = true ∧
        p.HeaderRead beyond reader u := by
  rw [sent_iff, received_iff hstream]

/-! ### Descriptors that cut the stream into chunks of one size -/

/-- A descriptor that accepts up to `chunk + 1` bytes at a time. -/
def chunkWriter (chunk : Nat) : StreamWriter (List UInt8) where
  write s bytes :=
    (some (min (chunk + 1) bytes.length), s ++ bytes.take (chunk + 1))
  stream s := s
  accepts s bytes := by
    refine ⟨_, _, rfl, Nat.min_le_right _ _, ?_, ?_⟩
    · intro hbytes
      have hpos := List.length_pos_iff.mpr hbytes
      omega
    · rw [← List.take_take, List.take_length]

/-- A descriptor that delivers up to `chunk + 1` bytes at a time. -/
def chunkReader (chunk : Nat) : StreamReader (List UInt8) where
  read s len :=
    (.data (s.take (min (chunk + 1) len)), s.drop (min (chunk + 1) len))
  length_le s len bytes hbytes := by
    cases hbytes
    rw [List.length_take]
    omega
  stream s := s
  delivers s len hlen hs := by
    refine ⟨_, _, rfl, ?_, (List.take_append_drop _ s).symm⟩
    simp [hs, Nat.pos_iff_ne_zero.mp hlen]

/-- A parcel of one byte passes through large chunks. -/
theorem transfer_iff_oneByte :
    let p : Parcel := ⟨some [7], 0, 1, 0⟩
    p.Sent [] (chunkWriter 63) [] ∧
      p.Received [] (chunkReader 63) (p.header ++ p.payload []) fresh
        (some fun _ => 0) :=
  (transfer_iff (chunkWriter 63) [] rfl fresh (some fun _ => 0)).mpr
    ⟨⟨rfl, rfl⟩, rfl, [1, 0, 0, 0], rfl, .inl rfl⟩

/-- The same parcel is not sent in chunks of two bytes and not received in
chunks of one: the header is taken for the payload. -/
theorem oneByte_not_transferred :
    let p : Parcel := ⟨some [7], 0, 1, 0⟩
    ¬ p.Sent [] (chunkWriter 1) [] ∧
      ¬ p.Received [] (chunkReader 0) (p.header ++ p.payload []) fresh
        (some fun _ => 0) := by
  refine ⟨fun hsent => absurd (hsent rfl) (by decide), ?_⟩
  rintro ⟨fuel, q, t, hrecv, hdata, -⟩
  have hrun : Parcel.recv (chunkReader 0).toReader 2 [1, 0, 0, 0, 7] fresh
      (some fun _ => 0) = some (0, ⟨some [0], 0, 1, 0⟩, [0, 0, 7]) := rfl
  have hsame := recv_unique hrun hrecv
  simp only [Prod.mk.injEq, true_and] at hsame
  rw [← hsame.1] at hdata
  exact absurd hdata (by decide)

end Parcel

end MyDirectFB

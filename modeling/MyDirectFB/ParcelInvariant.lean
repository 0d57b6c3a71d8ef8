/-
The counters of a parcel against its block: when do position, size and every
copy stay inside the allocated bytes?  A parcel that is only appended to and
read is safe.  An overwrite after `rewind` adds to the size without need, a
write to a received parcel may shrink its block, and a `recv` that cannot
allocate leaves a size without a block.
-/
import MyDirectFB.Parcel
import MyDirectFB.Lib.LabelledRun

namespace MyDirectFB

/-- A descriptor that answers its reads from a list, and then for ever with the
end of the file. -/
def scriptReader : Reader (List ReadResult) where
  read
    | [], _ => (.data [], [])
    | .error :: rest, _ => (.error, rest)
    | .data bytes :: rest, len => (.data (bytes.take len), rest)
  length_le s len bytes hbytes := by
    split at hbytes
    · obtain rfl := ReadResult.data.inj hbytes
      exact Nat.zero_le _
    · cases hbytes
    · obtain rfl := ReadResult.data.inj hbytes
      rw [List.length_take]
      exact Nat.min_le_left _ _

namespace Parcel

/-- A call of a public function other than `send` and `readString`.  What
`malloc` or `realloc` would return and the answers to the reads of `recv` come
with the call. -/
inductive Op where
  | write8 (val : UInt8) (alloc : Alloc)
  | write16 (val : UInt16) (alloc : Alloc)
  | write32 (val : UInt32) (alloc : Alloc)
  | write64 (val : UInt64) (alloc : Alloc)
  | writeString (str : CString) (alloc : Alloc)
  | writeBytes (bytes : List UInt8) (alloc : Alloc)
  | read8 (beyond : List UInt8)
  | read16 (beyond : List UInt8)
  | read32 (beyond : List UInt8)
  | read64 (beyond : List UInt8)
  | readBytes (beyond : List UInt8) (data : Bool) (len : Nat)
  | rewind
  | reset
  | recv (reads : List ReadResult) (alloc : Alloc)

/-- A parcel and the accesses to its block so far. -/
structure Traced where
  parcel : Parcel
  accesses : List Access

def Traced.init : Traced := ⟨fresh, []⟩

def Traced.written (s : Traced) (result : Parcel × Access) : Option Traced :=
  some ⟨result.1, s.accesses ++ [result.2]⟩

def Traced.loaded {A : Type} (s : Traced) (result : Loaded A) : Option Traced :=
  some ⟨result.parcel, s.accesses ++ result.copies⟩

/-- The transition function.  A length has to be an `int`, and a `recv` whose
reads reach the end of the file never returns. -/
def Traced.step (s : Traced) : Op → Option Traced
  | .write8 val alloc => s.written (s.parcel.write8 val alloc)
  | .write16 val alloc => s.written (s.parcel.write16 val alloc)
  | .write32 val alloc => s.written (s.parcel.write32 val alloc)
  | .write64 val alloc => s.written (s.parcel.write64 val alloc)
  | .writeString str alloc =>
      if str.bytes.length + 1 < 2 ^ 31 then
        s.written (s.parcel.writeString str alloc)
      else none
  | .writeBytes bytes alloc =>
      if bytes.length < 2 ^ 31 then s.written (s.parcel.writeBytes bytes alloc)
      else none
  | .read8 beyond => s.loaded (s.parcel.read8 beyond)
  | .read16 beyond => s.loaded (s.parcel.read16 beyond)
  | .read32 beyond => s.loaded (s.parcel.read32 beyond)
  | .read64 beyond => s.loaded (s.parcel.read64 beyond)
  | .readBytes beyond data len =>
      if len < 2 ^ 31 then s.loaded (s.parcel.readBytes beyond data len)
      else none
  | .rewind => some { s with parcel := s.parcel.rewind }
  | .reset => some { s with parcel := s.parcel.reset }
  | .recv reads alloc =>
      (Parcel.recv scriptReader (reads.length + 1) reads s.parcel alloc).map
        fun result => { s with parcel := result.2.1 }

/-- Position and size are inside the block. -/
def Inside (p : Parcel) : Prop :=
  p.mDataPos ≤ p.mDataSize ∧ p.mDataSize.toNat ≤ p.block.length

/-- The parcel is in order and every access was inside the block. -/
def Traced.Sound (s : Traced) : Prop :=
  s.parcel.Inside ∧ ∀ access ∈ s.accesses, access.Inside

/-- A block is never larger than 32 bits can say. -/
def Addressable (p : Parcel) : Prop :=
  p.block.length < 2 ^ 32

/-! ### When an operation is safe -/

/-- The number of bytes allocated when a write of `len` bytes comes to store
them. -/
def room (p : Parcel) (grows : Bool) (len : Nat) (alloc : Alloc) : Nat :=
  if grows then
    if alloc.isSome then (growSize p.mDataCapacity (UInt32.ofNat len)).toNat
    else 0
  else p.block.length

/-- A write is safe if the block has room for that many bytes after all the
bytes that are there, wherever they are written. -/
def WriteFits (p : Parcel) (grows : Bool) (len : Nat) (alloc : Alloc) : Prop :=
  p.mDataSize.toNat + len ≤ p.room grows len alloc

/-- A copying read is safe if its test fails or has not overflowed. -/
def ReadFits (p : Parcel) (len : Nat) : Prop :=
  p.tooShort len = true ∨ p.mDataPos.toNat + len < 2 ^ 32

/-- A `recv` is safe if its first read fails, or its block can be allocated, or
there is nothing to receive. -/
def RecvFits (reads : List ReadResult) (alloc : Alloc) : Prop :=
  match (scriptReader.read reads 4).1 with
  | .error => True
  | .data header => alloc.isSome = true ∨ LittleEndian.decode header = 0

def Fits (p : Parcel) : Op → Prop
  | .write8 _ alloc => p.WriteFits (p.growsForScalar 1) 1 alloc
  | .write16 _ alloc => p.WriteFits (p.growsForScalar 2) 2 alloc
  | .write32 _ alloc => p.WriteFits (p.growsForScalar 4) 4 alloc
  | .write64 _ alloc => p.WriteFits (p.growsForScalar 8) 8 alloc
  | .writeString str alloc =>
      p.WriteFits (p.growsForBlock (str.bytes.length + 1))
        (str.bytes.length + 1) alloc
  | .writeBytes bytes alloc =>
      p.WriteFits (p.growsForBlock bytes.length) bytes.length alloc
  | .read8 _ => p.ReadFits 1
  | .read16 _ => p.ReadFits 2
  | .read32 _ => p.ReadFits 4
  | .read64 _ => p.ReadFits 8
  | .readBytes _ data len => data = true → p.ReadFits len
  | .rewind => True
  | .reset => True
  | .recv reads alloc => RecvFits reads alloc

/-! ### Writing -/

theorem length_block_growData (p : Parcel) (len : Nat) (alloc : Alloc) :
    (p.growData (UInt32.ofNat len) alloc).block.length =
      p.room true len alloc := by
  cases alloc with
  | none => rfl
  | some fill => simp [block_growData, room]

/-- A write stores into `room` bytes and moves the counters in 32 bits. -/
theorem write_spec (p : Parcel) (grows : Bool) (bytes : List UInt8)
    (alloc : Alloc) :
    (p.write grows bytes alloc).1.block.length =
        p.room grows bytes.length alloc ∧
      (p.write grows bytes alloc).1.mDataPos =
        p.mDataPos + UInt32.ofNat bytes.length ∧
      (p.write grows bytes alloc).1.mDataSize =
        p.mDataSize + UInt32.ofNat bytes.length ∧
      (p.write grows bytes alloc).2 = ⟨p.mDataPos.toNat, bytes.length,
        p.room grows bytes.length alloc⟩ := by
  unfold write
  cases grows with
  | true =>
      rw [← length_block_growData]
      exact ⟨length_block_store _ bytes, rfl, rfl, rfl⟩
  | false =>
      exact ⟨length_block_store p bytes, rfl, rfl, rfl⟩

theorem room_lt {p : Parcel} (hp : p.Addressable) (grows : Bool) (len : Nat)
    (alloc : Alloc) : p.room grows len alloc < 2 ^ 32 := by
  unfold room
  split
  · split
    · exact UInt32.toNat_lt _
    · decide
  · exact hp

theorem write_inside_iff {p : Parcel} (hp : p.Inside) (hsmall : p.Addressable)
    (grows : Bool) {bytes : List UInt8} (hbytes : bytes.length < 2 ^ 31)
    (alloc : Alloc) :
    (p.write grows bytes alloc).1.Inside ∧
        (p.write grows bytes alloc).2.Inside ↔
      p.WriteFits grows bytes.length alloc := by
  obtain ⟨hblock, hpos, hsize, haccess⟩ := p.write_spec grows bytes alloc
  have hroom := room_lt hsmall grows bytes.length alloc
  obtain ⟨hle, -⟩ := hp
  rw [UInt32.le_iff_toNat_le] at hle
  have hlen : (UInt32.ofNat bytes.length).toNat = bytes.length :=
    UInt32.toNat_ofNat_of_lt' (by change _ < 2 ^ 32; omega)
  have hlt := p.mDataSize.toNat_lt
  simp only [Parcel.Inside, Access.Inside, WriteFits, hblock, hpos, hsize,
    haccess, UInt32.le_iff_toNat_le, UInt32.toNat_add, hlen]
  omega

/-! ### Reading -/

/-- The sum in the test of a read wraps round. -/
theorem toNat_pos_add (p : Parcel) {len : Nat} (hlen : len < 2 ^ 31) :
    (p.mDataPos + UInt32.ofNat len).toNat = (p.mDataPos.toNat + len) % 2 ^ 32 := by
  rw [UInt32.toNat_add, UInt32.toNat_ofNat_of_lt' (by change _ < 2 ^ 32; omega)]

theorem tooShort_iff (p : Parcel) {len : Nat} (hlen : len < 2 ^ 31) :
    p.tooShort len = true ↔
      p.mDataSize.toNat < (p.mDataPos.toNat + len) % 2 ^ 32 := by
  rw [← toNat_pos_add p hlen, ← UInt32.lt_iff_toNat_lt]
  simp [tooShort]

theorem not_tooShort_iff (p : Parcel) {len : Nat} (hlen : len < 2 ^ 31) :
    p.tooShort len = false ↔
      (p.mDataPos.toNat + len) % 2 ^ 32 ≤ p.mDataSize.toNat := by
  rw [← Bool.not_eq_true, tooShort_iff p hlen, Nat.not_lt]

theorem load_inside {p : Parcel} (hp : p.Inside) (beyond : List UInt8)
    (len : Nat) : (p.load beyond len).parcel.Inside := by
  unfold load
  cases hshort : p.tooShort len with
  | true => exact hp
  | false => exact ⟨by simpa [tooShort] using hshort, hp.2⟩

theorem load_addressable {p : Parcel} (hp : p.Addressable) (beyond : List UInt8)
    (len : Nat) : (p.load beyond len).parcel.Addressable := by
  unfold load
  split
  · exact hp
  · exact hp

theorem load_copies_iff {p : Parcel} (hp : p.Inside) (hsmall : p.Addressable)
    (beyond : List UInt8) {len : Nat} (hlen : len < 2 ^ 31) :
    (∀ access ∈ (p.load beyond len).copies, access.Inside) ↔
      p.ReadFits len := by
  obtain ⟨-, hblock⟩ := hp
  unfold Addressable at hsmall
  unfold load ReadFits
  cases hshort : p.tooShort len with
  | true => simp
  | false =>
      have hsum := (p.not_tooShort_iff hlen).mp hshort
      simp only [Bool.false_eq_true, ↓reduceIte, false_or, List.mem_singleton,
        forall_eq, Access.Inside]
      omega

theorem readBytes_parcel (p : Parcel) (beyond : List UInt8) (data : Bool)
    (len : Nat) :
    (p.readBytes beyond data len).parcel = (p.load beyond len).parcel := by
  cases data <;> rfl

/-! ### Receiving -/

theorem reset_inside (p : Parcel) : p.reset.Inside :=
  ⟨UInt32.le_refl 0, Nat.le_refl 0⟩

theorem reset_addressable (p : Parcel) : p.reset.Addressable :=
  Nat.two_pow_pos 32

/-- The loop of `recv` gives the parcel up, or returns 0 with a block as large
as the size. -/
theorem recvPayload_cases {S : Type} {reader : Reader S} {fuel : Nat} {s t : S}
    {p q : Parcel} {totalRead : Nat} {ret : Int}
    (hpos : p.mDataPos = 0) (hblock : p.block.length = p.mDataSize.toNat)
    (hresult : recvPayload reader fuel s p totalRead = some (ret, q, t)) :
    (ret = -1 ∧ q = fresh) ∨
      (ret = 0 ∧ q.mDataPos = 0 ∧ q.block.length = q.mDataSize.toNat) := by
  induction fuel generalizing s p totalRead with
  | zero => simp [recvPayload] at hresult
  | succ fuel ih =>
      rw [recvPayload] at hresult
      split at hresult
      · rename_i hmissing
        split at hresult
        · cases hresult
          exact .inl ⟨rfl, rfl⟩
        · rename_i bytes v hread
          have hle : bytes.length ≤ p.mDataSize.toNat - totalRead :=
            reader.length_le s _ bytes (by rw [hread])
          refine ih ?_ ?_ hresult
          · exact hpos
          · cases hdata : p.mData with
            | none =>
                rw [block, hdata] at hblock
                exact hblock
            | some data =>
                rw [block, hdata] at hblock
                change data.length = p.mDataSize.toNat at hblock
                change (Cells.blit data totalRead bytes).length =
                  p.mDataSize.toNat
                rw [Cells.length_blit (by omega), hblock]
      · cases hresult
        exact .inr ⟨rfl, hpos, hblock⟩

theorem recvPayload_inside {S : Type} {reader : Reader S} {fuel : Nat} {s t : S}
    {p q : Parcel} {totalRead : Nat} {ret : Int}
    (hpos : p.mDataPos = 0) (hblock : p.block.length = p.mDataSize.toNat)
    (hresult : recvPayload reader fuel s p totalRead = some (ret, q, t)) :
    q.Inside ∧ q.Addressable := by
  obtain ⟨-, rfl⟩ | ⟨-, hq, hsize⟩ := recvPayload_cases hpos hblock hresult
  · exact ⟨fresh.reset_inside, fresh.reset_addressable⟩
  · refine ⟨⟨?_, by omega⟩, ?_⟩
    · rw [hq]
      exact UInt32.zero_le
    · unfold Addressable
      rw [hsize]
      exact q.mDataSize.toNat_lt

/-- More than the answers in the list is never needed: after them every read
delivers nothing.  So a step of a run, which reads once for each answer and once
more, leaves no result of `recv` out. -/
theorem recvPayload_script {fuel : Nat} {reads : List ReadResult} {p : Parcel}
    {totalRead : Nat} {result : Int × Parcel × List ReadResult}
    (hresult : recvPayload scriptReader fuel reads p totalRead = some result) :
    recvPayload scriptReader (reads.length + 1) reads p totalRead =
      some result := by
  induction fuel generalizing reads p totalRead with
  | zero => simp [recvPayload] at hresult
  | succ fuel ih =>
      rw [recvPayload] at hresult ⊢
      split
      · rename_i hmissing
        rw [if_pos hmissing] at hresult
        cases reads with
        | nil =>
            have hagain := ih hresult
            simp [recvPayload, scriptReader, hmissing] at hagain
        | cons answer rest =>
            cases answer with
            | error => exact hresult
            | data bytes => exact ih hresult
      · rename_i hdone
        rwa [if_neg hdone] at hresult

theorem recv_addressable {fuel : Nat} {reads rest : List ReadResult}
    {p q : Parcel} {alloc : Alloc} {ret : Int}
    (hresult : Parcel.recv scriptReader fuel reads p alloc =
      some (ret, q, rest)) : q.Addressable := by
  unfold Parcel.recv at hresult
  split at hresult
  · cases hresult
    exact p.reset_addressable
  · cases alloc with
    | none =>
        cases hresult
        exact Nat.two_pow_pos 32
    | some fill =>
        refine (recvPayload_inside ?_ ?_ hresult).2
        · rfl
        · exact length_resize [] _ fill

theorem recv_inside_iff {fuel : Nat} {reads rest : List ReadResult}
    {p q : Parcel} {alloc : Alloc} {ret : Int}
    (hresult : Parcel.recv scriptReader fuel reads p alloc =
      some (ret, q, rest)) : q.Inside ↔ RecvFits reads alloc := by
  unfold Parcel.recv at hresult
  unfold RecvFits
  rcases hread : scriptReader.read reads 4 with ⟨_ | header, after⟩
  · simp only [hread] at hresult
    cases hresult
    simp [p.reset_inside]
  · simp only [hread] at hresult
    cases alloc with
    | none =>
        cases hresult
        -- the size is what the header says, and there is no block
        have hlength : header.length ≤ 4 :=
          scriptReader.length_le reads 4 header (by rw [hread])
        have hsize := toNat_ofNat_decode hlength
        simp [Parcel.Inside, reset, block, hsize]
    | some fill =>
        refine iff_of_true (recvPayload_inside ?_ ?_ hresult).1 (.inl rfl)
        · rfl
        · exact length_resize [] _ fill

/-! ### Runs -/

theorem Traced.written_sound_iff {s t : Traced} (hs : s.Sound)
    {result : Parcel × Access} (hstep : s.written result = some t) :
    t.Sound ↔ result.1.Inside ∧ result.2.Inside := by
  cases hstep
  simp only [Traced.Sound, List.mem_append, List.mem_singleton, or_imp,
    forall_and, forall_eq, iff_true_intro hs.2, true_and]

theorem Traced.loaded_sound_iff {A : Type} {s t : Traced} (hs : s.Sound)
    {result : Loaded A} (hinside : result.parcel.Inside)
    (hstep : s.loaded result = some t) :
    t.Sound ↔ ∀ access ∈ result.copies, access.Inside := by
  cases hstep
  simp only [Traced.Sound, List.mem_append, or_imp, forall_and, hinside,
    iff_true_intro hs.2, true_and]

theorem Traced.written_addressable {s t : Traced} (hs : s.parcel.Addressable)
    {grows : Bool} {bytes : List UInt8} {alloc : Alloc}
    (hwritten : s.written (s.parcel.write grows bytes alloc) = some t) :
    t.parcel.Addressable := by
  cases hwritten
  unfold Parcel.Addressable
  rw [(write_spec s.parcel grows bytes alloc).1]
  exact room_lt hs grows bytes.length alloc

theorem Traced.loaded_addressable {A : Type} {s t : Traced}
    (hs : s.parcel.Addressable) {result : Loaded A} (beyond : List UInt8)
    (len : Nat) (hparcel : result.parcel = (s.parcel.load beyond len).parcel)
    (hloaded : s.loaded result = some t) : t.parcel.Addressable := by
  cases hloaded
  rw [hparcel]
  exact load_addressable hs beyond len

/-- What holds of every block in any case. -/
theorem Traced.step_addressable (s : Traced) (op : Op) (t : Traced)
    (hs : s.parcel.Addressable) (hstep : s.step op = some t) :
    t.parcel.Addressable := by
  cases op with
  | write8 val alloc => exact written_addressable hs hstep
  | write16 val alloc => exact written_addressable hs hstep
  | write32 val alloc => exact written_addressable hs hstep
  | write64 val alloc => exact written_addressable hs hstep
  | writeString str alloc =>
      exact written_addressable hs (Option.ite_none_right_eq_some.mp hstep).2
  | writeBytes bytes alloc =>
      exact written_addressable hs (Option.ite_none_right_eq_some.mp hstep).2
  | read8 beyond => exact loaded_addressable hs beyond 1 rfl hstep
  | read16 beyond => exact loaded_addressable hs beyond 2 rfl hstep
  | read32 beyond => exact loaded_addressable hs beyond 4 rfl hstep
  | read64 beyond => exact loaded_addressable hs beyond 8 rfl hstep
  | readBytes beyond data len =>
      exact loaded_addressable hs beyond len (readBytes_parcel _ beyond data len)
        (Option.ite_none_right_eq_some.mp hstep).2
  | rewind =>
      cases hstep
      exact hs
  | reset =>
      cases hstep
      exact s.parcel.reset_addressable
  | recv reads alloc =>
      obtain ⟨⟨ret, q, rest⟩, hrecv, rfl⟩ := Option.map_eq_some_iff.mp hstep
      exact recv_addressable hrecv

theorem Traced.scalar_sound_iff {s t : Traced} (hsmall : s.parcel.Addressable)
    (hs : s.Sound) {width value : Nat} (hwidth : width < 2 ^ 31) {alloc : Alloc}
    (hwritten : s.written (s.parcel.writeScalar width value alloc) = some t) :
    t.Sound ↔
      s.parcel.WriteFits (s.parcel.growsForScalar width) width alloc := by
  have hbytes : (LittleEndian.encode width value).length < 2 ^ 31 := by
    rwa [LittleEndian.length_encode]
  have hwrite := write_inside_iff hs.1 hsmall
    (s.parcel.growsForScalar width) hbytes alloc
  rw [LittleEndian.length_encode] at hwrite
  exact (written_sound_iff hs hwritten).trans hwrite

theorem Traced.load_sound_iff {A : Type} {s t : Traced}
    (hsmall : s.parcel.Addressable) (hs : s.Sound) {result : Loaded A}
    (beyond : List UInt8) (len : Nat) (hlen : len < 2 ^ 31)
    (hparcel : result.parcel = (s.parcel.load beyond len).parcel)
    (hcopies : result.copies = (s.parcel.load beyond len).copies)
    (hloaded : s.loaded result = some t) :
    t.Sound ↔ s.parcel.ReadFits len := by
  have hinside : result.parcel.Inside := by
    rw [hparcel]
    exact load_inside hs.1 beyond len
  rw [loaded_sound_iff hs hinside hloaded, hcopies]
  exact load_copies_iff hs.1 hsmall beyond hlen

/-- A step from a parcel in order ends in a parcel in order, with its accesses
inside the block, exactly if the operation fits. -/
theorem Traced.step_sound_iff (s : Traced) (op : Op) (t : Traced)
    (hsmall : s.parcel.Addressable) (hs : s.Sound)
    (hstep : s.step op = some t) : t.Sound ↔ s.parcel.Fits op := by
  cases op with
  | write8 val alloc => exact scalar_sound_iff hsmall hs (by omega) hstep
  | write16 val alloc => exact scalar_sound_iff hsmall hs (by omega) hstep
  | write32 val alloc => exact scalar_sound_iff hsmall hs (by omega) hstep
  | write64 val alloc => exact scalar_sound_iff hsmall hs (by omega) hstep
  | writeString str alloc =>
      obtain ⟨hlen, hwritten⟩ := Option.ite_none_right_eq_some.mp hstep
      have hbytes : (str.bytes ++ [0]).length = str.bytes.length + 1 := by simp
      have hwrite := write_inside_iff hs.1 hsmall
        (s.parcel.growsForBlock (str.bytes ++ [0]).length)
        (hbytes ▸ hlen) alloc
      rw [Fits, ← hbytes]
      exact (written_sound_iff hs hwritten).trans hwrite
  | writeBytes bytes alloc =>
      obtain ⟨hlen, hwritten⟩ := Option.ite_none_right_eq_some.mp hstep
      exact (written_sound_iff hs hwritten).trans
        (write_inside_iff hs.1 hsmall _ hlen alloc)
  | read8 beyond =>
      exact load_sound_iff hsmall hs beyond 1 (by omega) rfl rfl hstep
  | read16 beyond =>
      exact load_sound_iff hsmall hs beyond 2 (by omega) rfl rfl hstep
  | read32 beyond =>
      exact load_sound_iff hsmall hs beyond 4 (by omega) rfl rfl hstep
  | read64 beyond =>
      exact load_sound_iff hsmall hs beyond 8 (by omega) rfl rfl hstep
  | readBytes beyond data len =>
      obtain ⟨hlen, hloaded⟩ := Option.ite_none_right_eq_some.mp hstep
      cases data with
      | true =>
          exact (load_sound_iff hsmall hs beyond len hlen rfl rfl hloaded).trans
            ⟨fun hfits _ => hfits, fun hfits => hfits rfl⟩
      | false =>
          have hinside : (s.parcel.readBytes beyond false len).parcel.Inside := by
            rw [readBytes_parcel]
            exact load_inside hs.1 beyond len
          rw [loaded_sound_iff hs hinside hloaded]
          simp [Fits, readBytes]
  | rewind =>
      cases hstep
      exact iff_of_true ⟨⟨UInt32.zero_le, hs.1.2⟩, hs.2⟩ trivial
  | reset =>
      cases hstep
      exact iff_of_true ⟨s.parcel.reset_inside, hs.2⟩ trivial
  | recv reads alloc =>
      obtain ⟨⟨ret, q, rest⟩, hrecv, rfl⟩ := Option.map_eq_some_iff.mp hstep
      rw [Traced.Sound, iff_true_intro hs.2, and_true]
      exact recv_inside_iff hrecv

/-- A run keeps position and size inside the block, and every access inside it,
exactly if every operation of the run fits the parcel it is called on. -/
theorem invariant_iff (ops : List Op) :
    LabelledRun.EachState Traced.step Traced.Sound Traced.init ops ↔
      LabelledRun.EachStep Traced.step (fun s op => s.parcel.Fits op)
        Traced.init ops :=
  LabelledRun.eachState_iff_eachStep_of_invariant Traced.step_addressable
    Traced.step_sound_iff
    (show Traced.init.parcel.Addressable from fresh.reset_addressable)
    ⟨fresh.reset_inside, by simp [Traced.init]⟩ ops

set_option maxRecDepth 2000 in
/-- Neither a `recv` that cannot allocate five bytes nor an overwrite of 129
bytes keeps the size inside the block. -/
theorem invariant_fails :
    ¬ LabelledRun.EachState Traced.step Traced.Sound Traced.init
        [.recv [.data [5, 0, 0, 0]] none] ∧
      ¬ LabelledRun.EachState Traced.step Traced.Sound Traced.init
        [.writeBytes (List.replicate 129 0) (some fun _ => 0), .rewind,
          .writeBytes (List.replicate 129 0) (some fun _ => 0)] := by
  constructor
  · rintro ⟨-, hrest⟩
    have hsound : Traced.Sound ⟨⟨none, 0, 5, 0⟩, []⟩ := hrest _ rfl
    exact absurd hsound.1.2 (by decide)
  · rintro ⟨-, hrest⟩
    have hsound := ((hrest _ rfl).2 _ rfl).2 _ rfl
    exact absurd hsound.1.2 (by decide +kernel)

end Parcel

end MyDirectFB

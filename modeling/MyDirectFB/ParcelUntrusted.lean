/-
Reads of a parcel that was received.  Its block holds `mDataSize` bytes of any
kind.  The other reads test their length before they touch the block, but
`readString` looks for its NUL first, and the test is made in 32 bits.
-/
import MyDirectFB.ParcelInvariant

namespace MyDirectFB

namespace Parcel

/-- A call of a reading function, with the bytes that are in memory after the
block at that time. -/
inductive ReadOp where
  | read8 (beyond : List UInt8)
  | read16 (beyond : List UInt8)
  | read32 (beyond : List UInt8)
  | read64 (beyond : List UInt8)
  | readString (beyond : List UInt8)
  | readBytes (beyond : List UInt8) (data : Bool) (len : Nat)

/-- The bytes that `strlen` looks at in `readString`. -/
def scanned (p : Parcel) (beyond : List UInt8) : Access :=
  let str := CString.ofMemory (p.memoryFrom beyond p.mDataPos.toNat)
  ⟨p.mDataPos.toNat, str.bytes.length + 1, p.block.length⟩

def Loaded.effect {A : Type} (loaded : Loaded A) : Parcel × List Access :=
  (loaded.parcel, loaded.copies)

/-- The parcel after a call and the ranges of bytes that the call looks at. -/
def perform (p : Parcel) : ReadOp → Parcel × List Access
  | .read8 beyond => (p.read8 beyond).effect
  | .read16 beyond => (p.read16 beyond).effect
  | .read32 beyond => (p.read32 beyond).effect
  | .read64 beyond => (p.read64 beyond).effect
  | .readString beyond =>
      ((p.readString beyond).parcel,
        p.scanned beyond :: (p.readString beyond).copies)
  | .readBytes beyond data len => (p.readBytes beyond data len).effect

/-- The transition function.  A length has to be an `int`. -/
def readStep (p : Parcel) : ReadOp → Option Parcel
  | .readBytes beyond data len =>
      if len < 2 ^ 31 then some (p.perform (.readBytes beyond data len)).1
      else none
  | op => some (p.perform op).1

/-- The whole field that a call reads is in the data at the position. -/
def HoldsField (p : Parcel) : ReadOp → Prop
  | .read8 _ => p.mDataPos.toNat + 1 ≤ p.mDataSize.toNat
  | .read16 _ => p.mDataPos.toNat + 2 ≤ p.mDataSize.toNat
  | .read32 _ => p.mDataPos.toNat + 4 ≤ p.mDataSize.toNat
  | .read64 _ => p.mDataPos.toNat + 8 ≤ p.mDataSize.toNat
  | .readString _ => 0 ∈ p.block.drop p.mDataPos.toNat
  | .readBytes _ _ len => p.mDataPos.toNat + len ≤ p.mDataSize.toNat

/-- A call looks at no byte outside the data, keeps the position inside it, and
does not move it unless the field is there. -/
def ReadsInside (p : Parcel) (op : ReadOp) : Prop :=
  (∀ access ∈ (p.perform op).2,
      access.start + access.len ≤ p.mDataSize.toNat) ∧
    (p.perform op).1.mDataPos ≤ (p.perform op).1.mDataSize ∧
    (¬ p.HoldsField op → (p.perform op).1.mDataPos = p.mDataPos)

/-- The data are all of the block, and the position is inside them. -/
def Exact (p : Parcel) : Prop :=
  p.block.length = p.mDataSize.toNat ∧ p.mDataPos ≤ p.mDataSize

/-- A `recv` that returns 0 makes such a parcel. -/
theorem recv_exact {S : Type} {reader : Reader S} {fuel : Nat} {s t : S}
    {p q : Parcel} {alloc : Alloc}
    (hresult : Parcel.recv reader fuel s p alloc = some (0, q, t)) :
    q.Exact := by
  unfold Parcel.recv at hresult
  split at hresult
  · cases hresult
  · cases alloc with
    | none => cases hresult
    | some fill =>
        obtain ⟨habsurd, -⟩ | ⟨-, hpos, hblock⟩ :=
          recvPayload_cases (by rfl) (by exact length_resize [] _ fill)
            hresult
        · exact absurd habsurd (by decide)
        · exact ⟨hblock, by rw [hpos]; exact UInt32.zero_le⟩

/-- A call stays inside the data if the sum in its test does not overflow, and a
string is looked for only where there is a NUL. -/
def ReadGuard (p : Parcel) : ReadOp → Prop
  | .read8 _ => p.mDataPos.toNat + 1 < 2 ^ 32
  | .read16 _ => p.mDataPos.toNat + 2 < 2 ^ 32
  | .read32 _ => p.mDataPos.toNat + 4 < 2 ^ 32
  | .read64 _ => p.mDataPos.toNat + 8 < 2 ^ 32
  | .readString _ => 0 ∈ p.block.drop p.mDataPos.toNat
  | .readBytes _ _ len => p.mDataPos.toNat + len < 2 ^ 32

instance (p : Parcel) : (op : ReadOp) → Decidable (p.ReadGuard op)
  | .read8 _ => Nat.decLt _ _
  | .read16 _ => Nat.decLt _ _
  | .read32 _ => Nat.decLt _ _
  | .read64 _ => Nat.decLt _ _
  | .readString _ => List.instDecidableMemOfLawfulBEq _ _
  | .readBytes _ _ _ => Nat.decLt _ _

/-! ### One call -/

/-- A load that may look at the bytes it returns, or at none of them. -/
theorem load_readsInside_iff {p q : Parcel} (hp : p.Exact)
    (beyond : List UInt8) {len : Nat} (hlen : len < 2 ^ 31)
    {examined : List Access} (hq : q = (p.load beyond len).parcel)
    (hexamined : examined ⊆ (p.load beyond len).copies) :
    ((∀ access ∈ examined, access.start + access.len ≤ p.mDataSize.toNat) ∧
        q.mDataPos ≤ q.mDataSize ∧
        (¬ p.mDataPos.toNat + len ≤ p.mDataSize.toNat →
          q.mDataPos = p.mDataPos)) ↔
      p.mDataPos.toNat + len < 2 ^ 32 := by
  have hsize := p.mDataSize.toNat_lt
  have hpos : p.mDataPos.toNat ≤ p.mDataSize.toNat :=
    UInt32.le_iff_toNat_le.mp hp.2
  have hsum := p.toNat_pos_add hlen
  unfold load at hq hexamined
  cases hshort : p.tooShort len with
  | true =>
      simp only [hshort, ↓reduceIte] at hq hexamined
      subst hq
      obtain rfl := List.subset_nil.mp hexamined
      have hover := (q.tooShort_iff hlen).mp hshort
      refine iff_of_true ⟨by simp, hp.2, fun _ => rfl⟩ ?_
      omega
  | false =>
      simp only [hshort, Bool.false_eq_true, ↓reduceIte] at hq hexamined
      subst hq
      have hunder := (p.not_tooShort_iff hlen).mp hshort
      constructor
      · rintro ⟨-, -, hstays⟩
        by_contra hwraps
        -- the sum has lost 2 ^ 32, so the position has gone back
        have hback := congrArg UInt32.toNat (hstays (by omega))
        change (p.mDataPos + UInt32.ofNat len).toNat = p.mDataPos.toNat at hback
        omega
      · intro hfits
        rw [Nat.mod_eq_of_lt hfits] at hunder hsum
        refine ⟨?_, ?_, fun hmissing => absurd hunder hmissing⟩
        · intro access haccess
          rw [List.mem_singleton.mp (hexamined haccess)]
          exact hunder
        · rw [UInt32.le_iff_toNat_le]
          exact hsum.le.trans hunder

/-- The scan of `readString` ends in the data exactly if there is a NUL. -/
theorem scanned_inside_iff {p : Parcel} (hp : p.Exact) (beyond : List UInt8) :
    (p.scanned beyond).start + (p.scanned beyond).len ≤ p.mDataSize.toNat ↔
      0 ∈ p.block.drop p.mDataPos.toNat := by
  obtain ⟨hblock, hpos⟩ := hp
  rw [UInt32.le_iff_toNat_le] at hpos
  have hmemory : p.memoryFrom beyond p.mDataPos.toNat =
      p.block.drop p.mDataPos.toNat ++ beyond := by
    rw [memoryFrom, List.drop_append_of_le_length (by omega)]
  have hscan := @Scan.length_takeWhile_append_lt_iff UInt8 (· ≠ 0)
    (p.block.drop p.mDataPos.toNat) beyond
  rw [List.length_drop, hblock] at hscan
  have hzero : (∃ byte ∈ p.block.drop p.mDataPos.toNat,
      decide (byte ≠ 0) = false) ↔ 0 ∈ p.block.drop p.mDataPos.toNat := by
    simp
  rw [← hzero, ← hscan]
  simp only [scanned, CString.ofMemory, hmemory]
  omega

/-- A test that is passed leaves the position inside the data. -/
theorem Exact.moved {p : Parcel} (hp : p.Exact) {len : Nat}
    (henough : p.tooShort len = false) :
    { p with mDataPos := p.mDataPos + UInt32.ofNat len }.Exact :=
  ⟨hp.1, by simpa [tooShort] using henough⟩

theorem load_exact {p : Parcel} (hp : p.Exact) (beyond : List UInt8)
    (len : Nat) : (p.load beyond len).parcel.Exact := by
  unfold load
  cases hshort : p.tooShort len with
  | true => exact hp
  | false => exact hp.moved hshort

theorem readString_exact {p : Parcel} (hp : p.Exact) (beyond : List UInt8) :
    (p.readString beyond).parcel.Exact := by
  unfold readString
  dsimp only
  split
  · exact hp
  · rename_i henough
    exact hp.moved (Bool.eq_false_iff.mpr henough)

theorem readString_readsInside_iff {p : Parcel} (hp : p.Exact)
    (beyond : List UInt8) :
    p.ReadsInside (.readString beyond) ↔
      0 ∈ p.block.drop p.mDataPos.toNat := by
  have hcopies : (p.readString beyond).copies = [] := by
    unfold readString
    dsimp only
    split <;> rfl
  simp only [ReadsInside, perform, hcopies, List.mem_singleton, forall_eq,
    scanned_inside_iff hp, HoldsField]
  constructor
  · exact fun hinside => hinside.1
  · intro hnul
    exact ⟨hnul, (readString_exact hp beyond).2, fun hmissing =>
      absurd hnul hmissing⟩

theorem readStep_eq {p q : Parcel} {op : ReadOp}
    (hstep : p.readStep op = some q) : q = (p.perform op).1 := by
  cases op with
  | readBytes beyond data len =>
      obtain ⟨-, hsame⟩ := Option.ite_none_right_eq_some.mp hstep
      exact (Option.some.inj hsame).symm
  | _ => exact (Option.some.inj hstep).symm

/-- What holds of every parcel in any case. -/
theorem readStep_exact (p : Parcel) (op : ReadOp) (q : Parcel) (hp : p.Exact)
    (hstep : p.readStep op = some q) : q.Exact := by
  rw [readStep_eq hstep]
  cases op with
  | read8 beyond => exact load_exact hp beyond 1
  | read16 beyond => exact load_exact hp beyond 2
  | read32 beyond => exact load_exact hp beyond 4
  | read64 beyond => exact load_exact hp beyond 8
  | readString beyond => exact readString_exact hp beyond
  | readBytes beyond data len =>
      change (p.readBytes beyond data len).parcel.Exact
      rw [readBytes_parcel]
      exact load_exact hp beyond len

theorem readsInside_iff (p : Parcel) (op : ReadOp) (q : Parcel) (hp : p.Exact)
    (hstep : p.readStep op = some q) :
    p.ReadsInside op ↔ p.ReadGuard op := by
  cases op with
  | read8 beyond =>
      exact load_readsInside_iff hp beyond (by decide) rfl
        (List.Subset.refl _)
  | read16 beyond =>
      exact load_readsInside_iff hp beyond (by decide) rfl
        (List.Subset.refl _)
  | read32 beyond =>
      exact load_readsInside_iff hp beyond (by decide) rfl
        (List.Subset.refl _)
  | read64 beyond =>
      exact load_readsInside_iff hp beyond (by decide) rfl
        (List.Subset.refl _)
  | readString beyond => exact readString_readsInside_iff hp beyond
  | readBytes beyond data len =>
      obtain ⟨hlen, -⟩ := Option.ite_none_right_eq_some.mp hstep
      refine load_readsInside_iff hp beyond hlen
        (readBytes_parcel p beyond data len) ?_
      cases data with
      | true => exact List.Subset.refl _
      | false => exact List.nil_subset _

/-! ### Runs -/

/-- Every read of a run stays inside the data exactly if none of their sums
overflows and every string is looked for where there is a NUL. -/
theorem untrusted_readsInside_iff {p : Parcel} (hp : p.Exact)
    (ops : List ReadOp) :
    LabelledRun.EachStep readStep ReadsInside p ops ↔
      LabelledRun.EachStep readStep ReadGuard p ops :=
  LabelledRun.eachStep_iff_of_invariant readStep_exact readsInside_iff hp ops

/-- Two bytes and a string are read from four bytes. -/
theorem untrusted_readsInside_iff_terminated :
    LabelledRun.EachStep readStep ReadsInside ⟨some [1, 2, 65, 0], 0, 4, 0⟩
      [.read16 [], .readString [], .read8 []] := by
  refine (untrusted_readsInside_iff ⟨rfl, by decide⟩ _).mpr ?_
  rintro - ⟨⟩
  refine ⟨by decide, ?_⟩
  rintro - ⟨⟩
  refine ⟨by decide, ?_⟩
  rintro - ⟨⟩
  exact ⟨by decide, trivial⟩

/-- A received parcel of one byte that is no NUL: `readString` looks past it. -/
theorem unterminated_not_readsInside :
    Parcel.recv scriptReader 2 [.data [1, 0, 0, 0], .data [65]] fresh
        (some fun _ => 0) = some (0, ⟨some [65], 0, 1, 0⟩, []) ∧
      ¬ LabelledRun.EachStep readStep ReadsInside ⟨some [65], 0, 1, 0⟩
        [.readString []] := by
  refine ⟨rfl, fun hrun => ?_⟩
  have hinside := (hrun _ rfl).1.1 ⟨0, 2, 1⟩ List.mem_cons_self
  exact absurd hinside (by decide)

end Parcel

end MyDirectFB

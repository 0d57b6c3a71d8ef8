/-
The identifier allocator (id_gen.cpp): `alloc_id`, `release_id` and the bitmap
`gIdBitmap` of eight 32-bit words.  A pool that hands out the least free
identifier is what the bitmap implements; the words are read as a set of
identifiers.
-/
import MyDirectFB.Lib.LabelledRun
import MyDirectFB.Lib.LeastFree
import Mathlib.Data.List.Nodup

namespace MyDirectFB

/-- `MAX_ID`. -/
def MAX_ID : Int := 256

/-- `gIdBitmap`: `BITMAP_CNT` words of type `Bitmap_t`. -/
abbrev IdBitmap := Vector UInt32 8

/-- The inner loop of `alloc_id` over the bits of one word, with `left` rounds
to go: the word with the bit set, and the number of the bit. -/
def allocBit (word : UInt32) (left : Nat) (bitMask : UInt32) (jj : Nat) :
    Option (UInt32 × Nat) :=
  match left with
  | 0 => none
  | left + 1 =>
      if word &&& bitMask = 0 then some (word ||| bitMask, jj)
      else allocBit word left (bitMask <<< 1) (jj + 1)

/-- The outer loop of `alloc_id`, over the words that are still to be looked
at. -/
def allocWord (gIdBitmap : IdBitmap) : List (Fin 8) → IdBitmap × Int
  | [] => (gIdBitmap, -1)
  | ii :: rest =>
      if gIdBitmap[ii] = 0xFFFFFFFF then allocWord gIdBitmap rest
      else
        match allocBit gIdBitmap[ii] 32 0x01 0 with
        | some (word, jj) => (gIdBitmap.set ii word, (ii : Nat) * 32 + jj)
        | none => allocWord gIdBitmap rest

/-- `alloc_id`: the bitmap it leaves and its result. -/
def alloc_id (gIdBitmap : IdBitmap) : IdBitmap × Int :=
  allocWord gIdBitmap (List.finRange 8)

/-- `release_id`. -/
def release_id (gIdBitmap : IdBitmap) (id : Int) : IdBitmap :=
  if h : id < 0 ∨ id ≥ MAX_ID then gIdBitmap
  else
    have hindex : id.toNat / 32 < 8 := by simp [MAX_ID] at h; omega
    let bitMask : UInt32 := 0x01 <<< UInt32.ofNat (id.toNat % 32)
    gIdBitmap.set (id.toNat / 32) (gIdBitmap[id.toNat / 32] &&& ~~~bitMask)

/-! ### The bits of one word -/

def bitOf (word : UInt32) (jj : Nat) : Bool :=
  word.toBitVec.getLsbD jj

/-- `bitMask` has the bit `jj` and no other. -/
def IsMask (bitMask : UInt32) (jj : Nat) : Prop :=
  bitMask.toBitVec = BitVec.twoPow 32 jj

theorem IsMask.zero : IsMask 0x01 0 := rfl

theorem IsMask.next {bitMask : UInt32} {jj : Nat} (hmask : IsMask bitMask jj) :
    IsMask (bitMask <<< 1) (jj + 1) := by
  unfold IsMask at hmask ⊢
  apply BitVec.eq_of_getLsbD_eq
  intro i hi
  simp only [UInt32.toBitVec_shiftLeft, hmask]
  simp [BitVec.getLsbD_twoPow]
  grind

theorem isMask_shiftLeft {jj : Nat} (hjj : jj < 32) :
    IsMask (0x01 <<< UInt32.ofNat jj) jj := by
  simp [IsMask, BitVec.twoPow_eq, Nat.mod_eq_of_lt hjj]

theorem bitOf_or {word bitMask : UInt32} {jj : Nat} (hjj : jj < 32)
    (hmask : IsMask bitMask jj) (k : Nat) :
    bitOf (word ||| bitMask) k = (decide (k = jj) || bitOf word k) := by
  rw [IsMask] at hmask
  simp [bitOf, hmask, BitVec.getLsbD_twoPow, hjj]
  grind

theorem bitOf_and_not {word bitMask : UInt32} {jj : Nat}
    (hmask : IsMask bitMask jj) (k : Nat) :
    bitOf (word &&& ~~~bitMask) k = (decide (k ≠ jj) && bitOf word k) := by
  rw [IsMask] at hmask
  by_cases hk : k < 32
  · simp [bitOf, hmask, hk]
    grind
  · simp [bitOf, BitVec.getLsbD_of_ge _ k (Nat.le_of_not_lt hk)]

theorem and_eq_zero_iff {word bitMask : UInt32} {jj : Nat} (hjj : jj < 32)
    (hmask : IsMask bitMask jj) :
    word &&& bitMask = 0 ↔ bitOf word jj = false := by
  rw [IsMask] at hmask
  rw [← UInt32.toBitVec_inj, UInt32.toBitVec_and, hmask, BitVec.and_twoPow]
  cases hbit : word.toBitVec.getLsbD jj with
  | false => simp [bitOf, hbit]
  | true =>
      have hne : BitVec.twoPow 32 jj ≠ 0 := by
        intro hzero
        have hget := congrArg (fun value => value.getLsbD jj) hzero
        simp [hjj] at hget
      simpa [bitOf, hbit] using hne

theorem eq_full_iff (word : UInt32) :
    word = 0xFFFFFFFF ↔ ∀ k < 32, bitOf word k = true := by
  have hfull : (0xFFFFFFFF : UInt32).toBitVec = BitVec.allOnes 32 := rfl
  rw [← UInt32.toBitVec_inj, hfull]
  constructor
  · intro hword k hk
    rw [bitOf, hword, BitVec.getLsbD_allOnes]
    exact decide_eq_true hk
  · intro hbits
    apply BitVec.eq_of_getLsbD_eq
    intro k hk
    rw [BitVec.getLsbD_allOnes, decide_eq_true hk]
    exact hbits k hk

/-- The inner loop finds the least clear bit from `jj` on, if there is one. -/
theorem allocBit_spec (word : UInt32) {left jj : Nat} {bitMask : UInt32}
    (hmask : IsMask bitMask jj) (hjj : jj + left = 32) :
    (∃ k, allocBit word left bitMask jj =
        some (word ||| 0x01 <<< UInt32.ofNat k, k) ∧ jj ≤ k ∧ k < 32 ∧
        bitOf word k = false ∧ ∀ i, jj ≤ i → i < k → bitOf word i = true) ∨
      (allocBit word left bitMask jj = none ∧
        ∀ i, jj ≤ i → i < 32 → bitOf word i = true) := by
  induction left generalizing bitMask jj with
  | zero => exact Or.inr ⟨rfl, fun i hi hlt => by omega⟩
  | succ left ih =>
      have hlt : jj < 32 := by omega
      by_cases hclear : word &&& bitMask = 0
      · have hbit := (and_eq_zero_iff hlt hmask).mp hclear
        have heq : bitMask = 0x01 <<< UInt32.ofNat jj :=
          UInt32.toBitVec_inj.mp (hmask.trans (isMask_shiftLeft hlt).symm)
        refine Or.inl ⟨jj, ?_, Nat.le_refl jj, hlt, hbit, ?_⟩
        · simp only [allocBit, hclear, ↓reduceIte, ← heq]
        · intro i hi hlt
          omega
      · have hset : bitOf word jj = true := by
          simpa using mt (and_eq_zero_iff hlt hmask).mpr hclear
        have hstep : ∀ i, jj ≤ i → bitOf word i = true ∨ jj + 1 ≤ i := by
          intro i hi
          rcases Nat.eq_or_lt_of_le hi with rfl | hi
          · exact Or.inl hset
          · exact Or.inr hi
        simp only [allocBit, hclear, ↓reduceIte]
        rcases ih hmask.next (by omega) with
          ⟨k, hfound, hle, hk, hbit, hbelow⟩ | ⟨hnone, hall⟩
        · refine Or.inl ⟨k, hfound, by omega, hk, hbit, fun i hi hik => ?_⟩
          exact (hstep i hi).elim id fun hnext => hbelow i hnext hik
        · refine Or.inr ⟨hnone, fun i hi hlt => ?_⟩
          exact (hstep i hi).elim id fun hnext => hall i hnext hlt

/-! ### The bitmap as a set of identifiers -/

/-- The identifiers there are. -/
def idPool : Set Int :=
  {id | 0 ≤ id ∧ id < MAX_ID}

/-- The bit of an identifier in the bitmap. -/
def idBit (gIdBitmap : IdBitmap) (id : Nat) : Bool :=
  bitOf (gIdBitmap[id / 32]?.getD 0) (id % 32)

/-- The identifiers whose bits are set. -/
def ids (gIdBitmap : IdBitmap) : Set Int :=
  {id | 0 ≤ id ∧ idBit gIdBitmap id.toNat = true}

theorem ids_subset (gIdBitmap : IdBitmap) : ids gIdBitmap ⊆ idPool := by
  rintro id ⟨hpos, hbit⟩
  refine ⟨hpos, ?_⟩
  by_contra hlarge
  rw [MAX_ID] at hlarge
  have hnone : gIdBitmap[id.toNat / 32]? = none :=
    Vector.getElem?_eq_none (by omega)
  simp [idBit, hnone, bitOf] at hbit

theorem mem_ids (gIdBitmap : IdBitmap) (ii : Fin 8) {jj : Nat} (hjj : jj < 32) :
    ((ii : Nat) * 32 + jj : Int) ∈ ids gIdBitmap ↔
      bitOf gIdBitmap[ii] jj = true := by
  have hid : ((ii : Nat) * 32 + jj : Int).toNat = ii * 32 + jj := by omega
  have hindex : (ii * 32 + jj) / 32 = ii := by omega
  have hshift : (ii * 32 + jj) % 32 = jj := by omega
  simp [ids, idBit, hid, hindex, hshift]
  omega

/-- Every identifier has a word and a bit. -/
theorem exists_word_of_mem_idPool {id : Int} (hid : id ∈ idPool) :
    ∃ (ii : Fin 8) (jj : Nat), jj < 32 ∧ id = (ii : Nat) * 32 + jj := by
  obtain ⟨hpos, hlt⟩ := hid
  rw [MAX_ID] at hlt
  exact ⟨⟨id.toNat / 32, by omega⟩, id.toNat % 32, by omega, by simp; omega⟩

/-- A store to one word changes the bits of that word only. -/
theorem mem_ids_set (gIdBitmap : IdBitmap) (ii jj : Fin 8) (word : UInt32)
    {k : Nat} (hk : k < 32) :
    ((jj : Nat) * 32 + k : Int) ∈ ids (gIdBitmap.set ii word) ↔
      if jj = ii then bitOf word k = true
      else ((jj : Nat) * 32 + k : Int) ∈ ids gIdBitmap := by
  rw [mem_ids _ jj hk]
  by_cases hindex : jj = ii
  · subst jj
    simp
  · have hne : (ii : Nat) ≠ jj := fun h => hindex (Fin.ext h.symm)
    rw [if_neg hindex, mem_ids _ jj hk]
    simp [hne]

/-- Two sets of identifiers are equal when they agree on every word. -/
theorem ids_ext {first second : Set Int} (hfirst : first ⊆ idPool)
    (hsecond : second ⊆ idPool)
    (hwords : ∀ (ii : Fin 8) (jj : Nat), jj < 32 →
      (((ii : Nat) * 32 + jj : Int) ∈ first ↔
        ((ii : Nat) * 32 + jj : Int) ∈ second)) : first = second := by
  ext id
  constructor
  · intro hid
    obtain ⟨ii, jj, hjj, rfl⟩ := exists_word_of_mem_idPool (hfirst hid)
    exact (hwords ii jj hjj).mp hid
  · intro hid
    obtain ⟨ii, jj, hjj, rfl⟩ := exists_word_of_mem_idPool (hsecond hid)
    exact (hwords ii jj hjj).mpr hid

theorem word_eq_iff {ii jj : Fin 8} {k l : Nat} (hk : k < 32) (hl : l < 32) :
    ((ii : Nat) * 32 + k : Int) = (jj : Nat) * 32 + l ↔ ii = jj ∧ k = l := by
  rw [Fin.ext_iff]
  omega

/-- Setting a bit adds its identifier. -/
theorem ids_set_or (gIdBitmap : IdBitmap) (ii : Fin 8) {k : Nat} (hk : k < 32) :
    ids (gIdBitmap.set ii (gIdBitmap[ii] ||| 0x01 <<< UInt32.ofNat k)) =
      insert ((ii : Nat) * 32 + k : Int) (ids gIdBitmap) := by
  have hpool : ((ii : Nat) * 32 + k : Int) ∈ idPool :=
    ⟨by omega, by rw [MAX_ID]; omega⟩
  refine ids_ext (ids_subset _)
    (Set.insert_subset hpool (ids_subset gIdBitmap)) fun jj l hl => ?_
  rw [mem_ids_set gIdBitmap ii jj _ hl, Set.mem_insert_iff, word_eq_iff hl hk]
  by_cases hindex : jj = ii
  · subst jj
    simp [bitOf_or hk (isMask_shiftLeft hk), mem_ids gIdBitmap ii hl]
  · simp [hindex]

/-- Clearing a bit removes its identifier. -/
theorem ids_set_and_not (gIdBitmap : IdBitmap) (ii : Fin 8) {k : Nat}
    (hk : k < 32) :
    ids (gIdBitmap.set ii (gIdBitmap[ii] &&& ~~~(0x01 <<< UInt32.ofNat k))) =
      ids gIdBitmap \ {((ii : Nat) * 32 + k : Int)} := by
  refine ids_ext (ids_subset _)
    (Set.sdiff_subset.trans (ids_subset gIdBitmap)) fun jj l hl => ?_
  rw [mem_ids_set gIdBitmap ii jj _ hl, Set.mem_sdiff, Set.mem_singleton_iff,
    word_eq_iff hl hk]
  by_cases hindex : jj = ii
  · subst jj
    simp [bitOf_and_not (isMask_shiftLeft hk), mem_ids gIdBitmap ii hl, and_comm]
  · simp [hindex]

/-! ### The two calls -/

/-- The outer loop finds the first word that is not full and the least clear
bit in it; when all the words are full it reports failure. -/
theorem allocWord_spec (gIdBitmap : IdBitmap) {words : List (Fin 8)}
    (hsorted : words.Pairwise (· < ·)) :
    (∃ ii ∈ words, ∃ k, k < 32 ∧
        allocWord gIdBitmap words =
          (gIdBitmap.set ii (gIdBitmap[ii] ||| 0x01 <<< UInt32.ofNat k),
            ((ii : Nat) * 32 + k : Int)) ∧
        bitOf gIdBitmap[ii] k = false ∧
        (∀ i < k, bitOf gIdBitmap[ii] i = true) ∧
        ∀ earlier ∈ words, earlier < ii → gIdBitmap[earlier] = 0xFFFFFFFF) ∨
      (allocWord gIdBitmap words = (gIdBitmap, -1) ∧
        ∀ ii ∈ words, gIdBitmap[ii] = 0xFFFFFFFF) := by
  induction words with
  | nil => exact Or.inr ⟨rfl, by simp⟩
  | cons first rest ih =>
      obtain ⟨hfirst, hrest⟩ := List.pairwise_cons.mp hsorted
      by_cases hfull : gIdBitmap[first] = 0xFFFFFFFF
      · simp only [allocWord, hfull, ↓reduceIte]
        rcases ih hrest with ⟨ii, hii, k, hk, hresult, hbit, hbelow, hearlier⟩ |
          ⟨hresult, hall⟩
        · refine Or.inl ⟨ii, List.mem_cons_of_mem _ hii, k, hk, hresult, hbit,
            hbelow, ?_⟩
          intro earlier hmem hlt
          rcases List.mem_cons.mp hmem with rfl | hmem
          · exact hfull
          · exact hearlier earlier hmem hlt
        · exact Or.inr ⟨hresult, List.forall_mem_cons.mpr ⟨hfull, hall⟩⟩
      · rcases allocBit_spec gIdBitmap[first] IsMask.zero (Nat.zero_add 32) with
          ⟨k, hfound, -, hk, hbit, hbelow⟩ | ⟨-, hall⟩
        · refine Or.inl ⟨first, List.mem_cons_self, k, hk, ?_, hbit,
            fun i hi => hbelow i (Nat.zero_le i) hi, ?_⟩
          · simp only [allocWord, hfull, ↓reduceIte, hfound]
          · intro earlier hmem hlt
            rcases List.mem_cons.mp hmem with rfl | hmem
            · exact absurd hlt (Fin.lt_irrefl _)
            · exact absurd hlt (Fin.lt_asymm (hfirst earlier hmem))
        · -- a word that is not full has a clear bit
          exact absurd ((eq_full_iff _).mpr fun k hk =>
            hall k (Nat.zero_le k) hk) hfull

/-- The result of `alloc_id` read as an identifier or a failure. -/
def allocated (result : Int) : Option Int :=
  if result = -1 then none else some result

/-- `alloc_id` takes the least free identifier of the pool. -/
theorem alloc_id_takes (gIdBitmap : IdBitmap) :
    LeastFree.Takes idPool (ids gIdBitmap) (allocated (alloc_id gIdBitmap).2)
      (ids (alloc_id gIdBitmap).1) := by
  rcases allocWord_spec gIdBitmap (List.pairwise_lt_finRange 8) with
    ⟨ii, -, k, hk, hresult, hbit, hbelow, hearlier⟩ | ⟨hresult, hall⟩
  · have hallocated : allocated ((ii : Nat) * 32 + k : Int) =
        some ((ii : Nat) * 32 + k : Int) := if_neg (by omega)
    rw [alloc_id, hresult, hallocated]
    refine ⟨⟨⟨⟨by omega, by rw [MAX_ID]; omega⟩, ?_⟩, ?_⟩, ?_⟩
    · simpa [mem_ids gIdBitmap ii hk] using hbit
    · rintro id ⟨hpool, hfree⟩
      obtain ⟨ii', jj, hjj, rfl⟩ := exists_word_of_mem_idPool hpool
      rw [mem_ids gIdBitmap ii' hjj] at hfree
      -- a free identifier has its word and its bit no earlier
      have hword : (ii : Nat) ≤ ii' := by
        by_contra hlt
        have hfull := hearlier ii' (List.mem_finRange ii') (Fin.not_le.mp hlt)
        exact hfree ((eq_full_iff _).mp hfull jj hjj)
      rcases Nat.eq_or_lt_of_le hword with heq | hlt
      · obtain rfl := Fin.ext heq
        have hle : k ≤ jj := by
          by_contra hlt
          exact hfree (hbelow jj (Nat.lt_of_not_le hlt))
        omega
      · omega
    · exact ids_set_or gIdBitmap ii hk
  · have hallocated : allocated (-1) = none := rfl
    rw [alloc_id, hresult, hallocated]
    refine ⟨fun id hpool => ?_, rfl⟩
    obtain ⟨ii, jj, hjj, rfl⟩ := exists_word_of_mem_idPool hpool
    rw [mem_ids gIdBitmap ii hjj]
    exact (eq_full_iff _).mp (hall ii (List.mem_finRange ii)) jj hjj

/-- `release_id` gives an identifier of the pool back. -/
theorem release_id_gives (gIdBitmap : IdBitmap) (id : Int) :
    LeastFree.Gives (ids gIdBitmap) id (ids (release_id gIdBitmap id)) := by
  by_cases hpool : id ∈ idPool
  · obtain ⟨ii, k, hk, rfl⟩ := exists_word_of_mem_idPool hpool
    have hin : ¬ (((ii : Nat) * 32 + k : Int) < 0 ∨
        ((ii : Nat) * 32 + k : Int) ≥ MAX_ID) := by
      simpa [idPool] using hpool
    have hid : ((ii : Nat) * 32 + k : Int).toNat = ii * 32 + k := by omega
    have hindex : (ii * 32 + k) / 32 = ii := by omega
    have hshift : (ii * 32 + k) % 32 = k := by omega
    simp only [release_id, hin, ↓reduceDIte, hid, hindex, hshift]
    exact ids_set_and_not gIdBitmap ii hk
  · have hsame : release_id gIdBitmap id = gIdBitmap := by
      refine dif_pos ?_
      simpa [idPool, or_iff_not_imp_left] using hpool
    rw [hsame]
    exact LeastFree.Gives.of_not_mem fun hid => hpool (ids_subset _ hid)

/-! ### Runs -/

/-- The allocator, with the identifiers that have been returned and not been
released since, in the order of their allocation. -/
structure IdGen where
  gIdBitmap : IdBitmap
  outstanding : List Int
deriving Repr, DecidableEq

/-- The bitmap of a program that starts. -/
def IdGen.init : IdGen :=
  ⟨Vector.replicate 8 0, []⟩

inductive IdCall where
  | alloc
  | release (id : Int)
deriving Repr, DecidableEq

def IdCall.perform (s : IdGen) : IdCall → IdGen
  | .alloc =>
      ⟨(alloc_id s.gIdBitmap).1,
        s.outstanding ++ (allocated (alloc_id s.gIdBitmap).2).toList⟩
  | .release id =>
      ⟨release_id s.gIdBitmap id, s.outstanding.filter fun other => other ≠ id⟩

def IdGen.step (s : IdGen) (call : IdCall) : Option IdGen :=
  some (call.perform s)

/-- The bitmap marks exactly the outstanding identifiers, and no two of them
are equal. -/
structure IdGen.Exact (s : IdGen) : Prop where
  ids_eq : ids s.gIdBitmap = {id | id ∈ s.outstanding}
  nodup : s.outstanding.Nodup

/-- What a call does, in terms of the outstanding identifiers. -/
def IdCall.Correct (s : IdGen) : IdCall → Prop
  | .alloc =>
      LeastFree.Takes idPool {id | id ∈ s.outstanding}
          (allocated (alloc_id s.gIdBitmap).2) (ids (alloc_id s.gIdBitmap).1) ∧
        ((alloc_id s.gIdBitmap).2 = -1 →
          (alloc_id s.gIdBitmap).1 = s.gIdBitmap) ∧
        ((alloc_id s.gIdBitmap).2 = -1 ↔ ∀ id ∈ idPool, id ∈ s.outstanding)
  | .release id =>
      LeastFree.Gives {id | id ∈ s.outstanding} id
          (ids (release_id s.gIdBitmap id)) ∧
        (id ∉ idPool → release_id s.gIdBitmap id = s.gIdBitmap) ∧
        (id ∈ idPool → ∃ next ≤ id,
          allocated (alloc_id (release_id s.gIdBitmap id)).2 = some next)

theorem ids_init : ids IdGen.init.gIdBitmap = ∅ := by
  refine ids_ext (ids_subset _) (Set.empty_subset _) fun ii jj hjj => ?_
  rw [mem_ids _ ii hjj]
  simp [IdGen.init, bitOf]

theorem IdGen.init_exact : IdGen.init.Exact where
  ids_eq := by
    rw [ids_init]
    simp [IdGen.init]
  nodup := List.nodup_nil

theorem allocated_eq_none_iff (result : Int) :
    allocated result = none ↔ result = -1 := by
  simp [allocated]

theorem alloc_id_unchanged {gIdBitmap : IdBitmap}
    (hfailed : (alloc_id gIdBitmap).2 = -1) :
    (alloc_id gIdBitmap).1 = gIdBitmap := by
  rcases allocWord_spec gIdBitmap (List.pairwise_lt_finRange 8) with
    ⟨ii, -, k, hk, hresult, -⟩ | ⟨hresult, -⟩
  · rw [alloc_id, hresult] at hfailed
    simp only at hfailed
    omega
  · rw [alloc_id, hresult]

theorem IdGen.Exact.alloc {s : IdGen} (hs : s.Exact) :
    (IdCall.perform s .alloc).Exact ∧ IdCall.Correct s .alloc := by
  have htakes := alloc_id_takes s.gIdBitmap
  rw [hs.ids_eq] at htakes
  refine ⟨?_, htakes, alloc_id_unchanged, ?_⟩
  · cases hresult : allocated (alloc_id s.gIdBitmap).2 with
    | none =>
        rw [hresult] at htakes
        refine ⟨?_, ?_⟩
        · simpa [IdCall.perform, hresult] using htakes.2
        · simpa [IdCall.perform, hresult] using hs.nodup
    | some id =>
        rw [hresult] at htakes
        have hfree : id ∉ s.outstanding := htakes.not_mem
        refine ⟨?_, ?_⟩
        · rw [IdCall.perform, htakes.2]
          ext other
          simp [hresult, or_comm]
        · simp only [IdCall.perform, hresult, Option.toList_some]
          exact hs.nodup.append (List.nodup_singleton id) (by simpa using hfree)
  · rw [← allocated_eq_none_iff]
    exact htakes.eq_none_iff

theorem IdGen.Exact.release {s : IdGen} (hs : s.Exact) (id : Int) :
    (IdCall.perform s (.release id)).Exact ∧ IdCall.Correct s (.release id) := by
  have hgives := release_id_gives s.gIdBitmap id
  rw [hs.ids_eq] at hgives
  refine ⟨⟨?_, hs.nodup.filter _⟩, hgives, fun hpool => ?_, fun hpool => ?_⟩
  · rw [IdCall.perform, hgives]
    ext other
    simp
  · refine dif_pos ?_
    simpa [idPool, or_iff_not_imp_left] using hpool
  · exact LeastFree.Takes.le_of_given hpool hgives (alloc_id_takes _)

theorem IdCall.perform_exact {s : IdGen} (hs : s.Exact) (call : IdCall) :
    (call.perform s).Exact ∧ call.Correct s := by
  cases call with
  | alloc => exact hs.alloc
  | release id => exact hs.release id

/-- In every run from the all-zero bitmap, the bitmap represents exactly the
identifiers allocated and not yet released, which are pairwise different; every
`alloc_id` takes the least free identifier, or fails when there is none, and
every `release_id` gives its identifier back. -/
theorem idGen_refines (calls : List IdCall) :
    LabelledRun.EachState IdGen.step IdGen.Exact IdGen.init calls ∧
      LabelledRun.EachStep IdGen.step (fun s call => call.Correct s)
        IdGen.init calls := by
  apply LabelledRun.eachState_and_eachStep _ IdGen.init_exact
  intro s call t hs hstep
  obtain rfl := Option.some.inj hstep
  exact (IdCall.perform_exact hs call).symm

end MyDirectFB

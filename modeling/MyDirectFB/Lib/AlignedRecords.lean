/-
Chains of records: each begins with a header that gives its length, and the next
begins at the next multiple of four.  A walk goes on as long as there is room for
a header, and the length is at least that of a header and at most what is left.
-/
import Mathlib.Data.List.Basic

namespace AlignedRecords

universe u v

/-- The length of a record with the padding behind it. -/
def align (size : Nat) : Nat := (size + 3) / 4 * 4

/-- How records look: the size of a header, and how the length of a record is read
at its place. -/
structure Format (ε : Type u) where
  header : Nat
  header_pos : 0 < header
  sizeAt : Nat → Except ε Nat

variable {ε : Type u} {σ : Type v}

theorem le_align (size : Nat) : size ≤ align size := by
  unfold align
  omega

theorem next_lt {header size : Nat} {len : Int} (hheader : 0 < header)
    (hsize : header ≤ size ∧ (size : Int) ≤ len) :
    (len - align size).toNat < len.toNat := by
  have hle := le_align size
  omega

/-- The loop over the records from `cursor` on, which have `len` bytes in all. -/
def Format.walk (format : Format ε) (body : Nat → σ → Except ε (ForInStep σ))
    (cursor : Nat) (len : Int) (s : σ) : Except ε σ :=
  if (format.header : Int) ≤ len then
    match format.sizeAt cursor with
    | .error fault => .error fault
    | .ok size =>
        if _hsize : format.header ≤ size ∧ (size : Int) ≤ len then
          match body cursor s with
          | .error fault => .error fault
          | .ok (.done s) => .ok s
          | .ok (.yield s) =>
              walk format body (cursor + align size) (len - align size) s
        else .ok s
  else .ok s
termination_by len.toNat
decreasing_by exact next_lt format.header_pos _hsize

/-- The places of the records, where the length of each is known. -/
def records (header : Nat) (hheader : 0 < header) (size : Nat → Nat)
    (cursor : Nat) (len : Int) : List Nat :=
  if _hsize : header ≤ size cursor ∧ (size cursor : Int) ≤ len then
    cursor :: records header hheader size (cursor + align (size cursor))
      (len - align (size cursor))
  else []
termination_by len.toNat
decreasing_by exact next_lt hheader _hsize

variable {header : Nat} {hheader : 0 < header} {size : Nat → Nat} {cursor : Nat}
  {len : Int}

theorem records_eq_nil (h : ¬ (header ≤ size cursor ∧ (size cursor : Int) ≤ len)) :
    records header hheader size cursor len = [] := by
  rw [records, dif_neg h]

theorem records_eq_cons (h : header ≤ size cursor ∧ (size cursor : Int) ≤ len) :
    records header hheader size cursor len =
      cursor :: records header hheader size (cursor + align (size cursor))
        (len - align (size cursor)) := by
  rw [records, dif_pos h]

/-- Every record lies in the room there is. -/
theorem mem_records {r : Nat} (hmem : r ∈ records header hheader size cursor len) :
    cursor ≤ r ∧ header ≤ size r ∧ (r + size r : Int) ≤ cursor + len := by
  induction cursor, len using records.induct header hheader size with
  | case1 cursor len hsize ih =>
      rw [records_eq_cons hsize] at hmem
      have hle := le_align (size cursor)
      rcases List.mem_cons.mp hmem with rfl | hmem
      · exact ⟨Nat.le_refl _, hsize.1, by omega⟩
      · obtain ⟨hfrom, hheaderSize, hroom⟩ := ih hmem
        refine ⟨by omega, hheaderSize, ?_⟩
        push_cast at hroom
        omega
  | case2 cursor len hsize =>
      rw [records_eq_nil hsize] at hmem
      cases hmem

/-- Records one behind the other: each is as long as a header at least and as what is
left at most, and the next begins behind its padding. -/
inductive Chain (header : Nat) (size : Nat → Nat) : Nat → Int → List Nat → Prop
  | nil (cursor : Nat) (len : Int) : Chain header size cursor len []
  | cons {cursor : Nat} {len : Int} {rest : List Nat}
      (hsize : header ≤ size cursor ∧ (size cursor : Int) ≤ len)
      (hrest : Chain header size (cursor + align (size cursor))
        (len - align (size cursor)) rest) :
      Chain header size cursor len (cursor :: rest)

/-- A chain that every other chain is an initial part of. -/
structure MaximalChain (header : Nat) (size : Nat → Nat) (cursor : Nat) (len : Int)
    (chain : List Nat) : Prop where
  isChain : Chain header size cursor len chain
  longest : ∀ other, Chain header size cursor len other → other <+: chain

theorem records_isChain (header : Nat) (hheader : 0 < header) (size : Nat → Nat)
    (cursor : Nat) (len : Int) :
    Chain header size cursor len (records header hheader size cursor len) := by
  induction cursor, len using records.induct header hheader size with
  | case1 cursor len hsize ih =>
      rw [records_eq_cons hsize]
      exact .cons hsize ih
  | case2 cursor len hsize =>
      rw [records_eq_nil hsize]
      exact .nil cursor len

/-- The walk goes on as long as a chain can. -/
theorem Chain.isPrefix_records {chain : List Nat}
    (hchain : Chain header size cursor len chain) :
    chain <+: records header hheader size cursor len := by
  induction hchain with
  | nil cursor len => exact List.nil_prefix
  | cons hsize hrest ih =>
      rw [records_eq_cons hsize, List.prefix_cons_inj]
      exact ih

theorem records_maximal (header : Nat) (hheader : 0 < header) (size : Nat → Nat)
    (cursor : Nat) (len : Int) :
    MaximalChain header size cursor len (records header hheader size cursor len) :=
  ⟨records_isChain header hheader size cursor len,
    fun _ hother => hother.isPrefix_records⟩

/-- The records only depend on the lengths in headers that lie in the room there
is. -/
theorem records_congr {other : Nat → Nat}
    (hsame : ∀ r, cursor ≤ r → (r + header : Int) ≤ cursor + len →
      other r = size r) :
    records header hheader other cursor len =
      records header hheader size cursor len := by
  induction cursor, len using records.induct header hheader size with
  | case1 cursor len hsize ih =>
      have hfirst : other cursor = size cursor :=
        hsame cursor (Nat.le_refl cursor) (by omega)
      rw [records_eq_cons hsize, records_eq_cons (hfirst ▸ hsize), hfirst]
      refine congrArg (List.cons cursor) (ih fun r hfrom hroom => ?_)
      push_cast at hroom
      exact hsame r (by omega) (by omega)
  | case2 cursor len hsize =>
      have hother : ¬ (header ≤ other cursor ∧ (other cursor : Int) ≤ len) := by
        intro hother
        have hfirst := hsame cursor (Nat.le_refl cursor) (by omega)
        exact hsize (hfirst ▸ hother)
      rw [records_eq_nil hsize, records_eq_nil hother]

/-! ### Records that are laid out one behind the other -/

section

universe w

variable {R : Type w}

/-- The place of each record of a list, which begins at `cursor`. -/
def places (width : R → Nat) : Nat → List R → List (Nat × R)
  | _, [] => []
  | cursor, record :: rest =>
      (cursor, record) :: places width (cursor + align (width record)) rest

/-- The bytes that the records take up. -/
def extent (width : R → Nat) : List R → Nat
  | [] => 0
  | record :: rest => align (width record) + extent width rest

/-- The bytes of records that are each padded to the end of its place. -/
theorem length_flatMap_encode {B : Type u} (width : R → Nat) (encode : R → List B)
    (hwidth : ∀ record, (encode record).length = align (width record))
    (list : List R) : (list.flatMap encode).length = extent width list := by
  induction list with
  | nil => rfl
  | cons record rest ih =>
      rw [List.flatMap_cons, List.length_append, hwidth, ih, extent]

end

/-- A fault in the first record ends the walk. -/
theorem Format.walk_of_error (format : Format ε) (first : Nat) (fault : ε) {s : σ}
    {body : Nat → σ → Except ε (ForInStep σ)}
    (hread : format.sizeAt cursor = .ok first)
    (hfirst : format.header ≤ first ∧ (first : Int) ≤ len)
    (hbody : body cursor s = .error fault) :
    format.walk body cursor len s = .error fault := by
  rw [Format.walk, if_pos (by omega), hread]
  simp only [hfirst, and_self, ↓reduceDIte, hbody]

/-- Where the headers can be read, a walk is a loop over the records. -/
theorem Format.walk_eq_forIn (format : Format ε) (size : Nat → Nat) (room : Nat)
    (hread : ∀ r, r + format.header ≤ room → format.sizeAt r = .ok (size r))
    (body : Nat → σ → Except ε (ForInStep σ)) (cursor : Nat) (len : Int) (s : σ)
    (hroom : cursor + len ≤ room) :
    format.walk body cursor len s =
      forIn (records format.header format.header_pos size cursor len) s body := by
  induction cursor, len using records.induct format.header format.header_pos size
    generalizing s with
  | case1 cursor len hsize ih =>
      rw [Format.walk, records_eq_cons hsize, if_pos (by omega),
        hread cursor (by omega), List.forIn_cons]
      simp only [hsize, and_self, ↓reduceDIte]
      cases hbody : body cursor s with
      | error fault => rfl
      | ok step =>
          cases step with
          | done s => rfl
          | yield s => exact ih s (by push_cast; omega)
  | case2 cursor len hsize =>
      rw [Format.walk, records_eq_nil hsize]
      split
      · rw [hread cursor (by omega)]
        simp only [hsize, ↓reduceDIte]
        rfl
      · rfl

end AlignedRecords

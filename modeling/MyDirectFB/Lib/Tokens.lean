/-
The tokens that `strtok_r` finds in a text with one delimiter.  Adjacent
delimiters count as one, so that a text of columns gives the columns that are not
empty, and a token has the number of its column only if no column before it is
empty.
-/
import MyDirectFB.Lib.Scan

namespace Tokens

open Scan

universe u

variable {A : Type u} [DecidableEq A] {delim : A}

/-- `strtok_r`: the next token, and the text behind its delimiter. -/
def strtok (delim : A) (s : List A) : Option (List A × List A) :=
  match s.dropWhile (· = delim) with
  | [] => none
  | c :: s => some (c :: s.takeWhile (· ≠ delim), (s.dropWhile (· ≠ delim)).tail)

/-- `strtok` with several delimiters. -/
def strtokOf (isDelim : A → Bool) (s : List A) : Option (List A × List A) :=
  match s.dropWhile isDelim with
  | [] => none
  | c :: s => some (c :: s.takeWhile (!isDelim ·), (s.dropWhile (!isDelim ·)).tail)

theorem strtok_length {s token rest : List A}
    (hs : strtok delim s = some (token, rest)) : rest.length < s.length := by
  unfold strtok at hs
  split at hs
  · cases hs
  · rename_i c more hmore
    obtain ⟨-, rfl⟩ := Prod.mk.inj (Option.some.inj hs)
    have hdrop := (List.dropWhile_sublist (· = delim) (l := s)).length_le
    have hrest := (List.dropWhile_sublist (· ≠ delim) (l := more)).length_le
    rw [hmore, List.length_cons] at hdrop
    rw [List.length_tail]
    omega

/-- There is no token in a text of delimiters. -/
theorem strtok_eq_none_iff {s : List A} :
    strtok delim s = none ↔ ∀ c ∈ s, c = delim := by
  unfold strtok
  split
  · next hnil => simpa using hnil
  · next c more hmore =>
      have hne : s.dropWhile (· = delim) ≠ [] := by simp [hmore]
      rw [ne_eq, List.dropWhile_eq_nil_iff] at hne
      simpa using hne

/-- The tokens that are found one after the other. -/
def tokens (delim : A) (s : List A) : List (List A) :=
  match _h : strtok delim s with
  | none => []
  | some (token, rest) => token :: tokens delim rest
termination_by s.length
decreasing_by exact strtok_length _h

/-- The tokens of a column. -/
def ofColumn (column : List A) : List (List A) :=
  if column = [] then [] else [column]

theorem strtok_delim (s : List A) : strtok delim (delim :: s) = strtok delim s := by
  simp [strtok]

theorem strtok_append {c : A} {column : List A} (hcolumn : delim ∉ c :: column)
    (rest : List A) :
    strtok delim (c :: column ++ delim :: rest) = some (c :: column, rest) := by
  have hrun : ∀ d ∈ column, decide (d ≠ delim) = true := by
    intro d hd
    simpa using fun h : d = delim => hcolumn (h ▸ List.mem_cons_of_mem c hd)
  have hstop : decide (delim ≠ delim) = false := by simp
  have hc : c ≠ delim := fun h => hcolumn (h ▸ List.mem_cons_self)
  rw [strtok, List.cons_append, List.dropWhile_cons_of_neg (by simpa using hc)]
  simp only [takeWhile_stop hrun hstop, dropWhile_stop hrun hstop, List.tail_cons]

theorem strtok_last {c : A} {column : List A} (hcolumn : delim ∉ c :: column) :
    strtok delim (c :: column) = some (c :: column, []) := by
  have hrun : ∀ d ∈ column, decide (d ≠ delim) = true := by
    intro d hd
    simpa using fun h : d = delim => hcolumn (h ▸ List.mem_cons_of_mem c hd)
  have hc : c ≠ delim := fun h => hcolumn (h ▸ List.mem_cons_self)
  rw [strtok, List.dropWhile_cons_of_neg (by simpa using hc)]
  simp only [List.takeWhile_eq_self_iff.mpr hrun,
    List.dropWhile_eq_nil_iff.mpr hrun, List.tail_nil]

theorem tokens_of_none {s : List A} (hs : strtok delim s = none) :
    tokens delim s = [] := by
  rw [tokens, hs]

theorem tokens_of_some {s token rest : List A}
    (hs : strtok delim s = some (token, rest)) :
    tokens delim s = token :: tokens delim rest := by
  rw [tokens, hs]

theorem tokens_nil : tokens delim ([] : List A) = [] := by
  rw [tokens]
  rfl

/-- A column and what is behind its delimiter. -/
theorem tokens_append {column : List A} (hcolumn : delim ∉ column)
    (rest : List A) :
    tokens delim (column ++ delim :: rest) =
      ofColumn column ++ tokens delim rest := by
  cases column with
  | nil =>
      rw [List.nil_append, tokens, strtok_delim, ← tokens]
      rfl
  | cons c column =>
      rw [tokens, strtok_append hcolumn]
      rfl

/-- The last column. -/
theorem tokens_last {column : List A} (hcolumn : delim ∉ column) :
    tokens delim column = ofColumn column := by
  cases column with
  | nil => exact tokens_nil
  | cons c column =>
      rw [tokens, strtok_last hcolumn]
      exact congrArg ((c :: column) :: ·) tokens_nil

omit [DecidableEq A] in
theorem ofColumn_eq_filter (column : List A) :
    ofColumn column = [column].filter (· ≠ []) := by
  cases column <;> rfl

/-- The tokens are the columns that are not empty. -/
theorem tokens_eq_filter (s : List A) :
    tokens delim s = (s.splitOn delim).filter (· ≠ []) := by
  induction hlength : s.length using Nat.strongRecOn generalizing s with
  | ind length ih =>
      by_cases hmem : delim ∈ s
      · obtain ⟨column, rest, rfl, hcolumn⟩ := List.eq_append_cons_of_mem hmem
        have hrest := ih rest.length (by simp [← hlength]; omega) rest rfl
        rw [tokens_append hcolumn, List.splitOn_append_cons_self_of_not_mem hcolumn,
          ofColumn_eq_filter, hrest, ← List.filter_append]
        rfl
      · rw [tokens_last hmem, List.splitOn_eq_singleton hmem, ofColumn_eq_filter]

end Tokens

/-
The functions of <string.h> that the parsers use, on the bytes of strings
without their NUL.
-/
import MyDirectFB.Lib.CString

namespace MyDirectFB

/-- The bytes of a string literal. -/
def ascii (literal : String) : List UInt8 :=
  literal.toByteArray.data.toList

/-- The bytes before the first `c` of a string and the bytes after it. -/
def strchr (s : List UInt8) (c : UInt8) :
    Option (List UInt8 × List UInt8) :=
  if c ∈ s then
    some (s.takeWhile (· ≠ c), (s.dropWhile (· ≠ c)).tail)
  else none

/-- `strncmp(first, second, n) == 0`. -/
def strncmpEq : List UInt8 → List UInt8 → Nat → Bool
  | _, _, 0 => true
  | [], [], _ + 1 => true
  | c :: first, d :: second, n + 1 => c == d && strncmpEq first second n
  | _, _, _ => false

/-- `strstr`: the string from the first occurrence of `word` on. -/
def strstr : List UInt8 → List UInt8 → Option (List UInt8)
  | [], word => if word.isPrefixOf [] then some [] else none
  | c :: s, word =>
      if word.isPrefixOf (c :: s) then some (c :: s) else strstr s word

theorem strchr_append {front : List UInt8} {c : UInt8} (hfront : c ∉ front)
    (rest : List UInt8) :
    strchr (front ++ c :: rest) c = some (front, rest) := by
  have hrun : ∀ d ∈ front, decide (d ≠ c) = true := by
    intro d hd
    simpa using fun h : d = c => hfront (h ▸ hd)
  have hstop : decide (c ≠ c) = false := by simp
  rw [strchr, if_pos (by simp), Scan.takeWhile_stop hrun hstop,
    Scan.dropWhile_stop hrun hstop, List.tail_cons]

theorem strchr_of_not_mem {s : List UInt8} {c : UInt8} (hs : c ∉ s) :
    strchr s c = none :=
  if_neg hs

/-- What a search finds. -/
theorem strchr_cases (s : List UInt8) (c : UInt8) :
    (c ∉ s ∧ strchr s c = none) ∨
      ∃ front back, c ∉ front ∧ s = front ++ c :: back ∧
        strchr s c = some (front, back) := by
  by_cases hs : c ∈ s
  · obtain ⟨front, back, rfl, hfront⟩ := List.eq_append_cons_of_mem hs
    exact .inr ⟨front, back, hfront, rfl, strchr_append hfront back⟩
  · exact .inl ⟨hs, strchr_of_not_mem hs⟩

/-- A search runs over a front that does not have the byte. -/
theorem strchr_append_of_not_mem {front : List UInt8} {c : UInt8}
    (hfront : c ∉ front) (s : List UInt8) :
    strchr (front ++ s) c =
      (strchr s c).map fun found => (front ++ found.1, found.2) := by
  have hrun : ∀ d ∈ front, decide (d ≠ c) = true := by
    intro d hd
    simpa using fun h : d = c => hfront (h ▸ hd)
  by_cases hs : c ∈ s
  · rw [strchr, strchr, if_pos (List.mem_append_right _ hs), if_pos hs,
      List.takeWhile_append_of_pos hrun, List.dropWhile_append_of_pos hrun]
    rfl
  · have hnone : c ∉ front ++ s := by simp [hfront, hs]
    rw [strchr_of_not_mem hs, strchr_of_not_mem hnone]
    rfl

theorem strstr_append (word rest : List UInt8) :
    strstr (word ++ rest) word = some (word ++ rest) := by
  have hword : word.isPrefixOf (word ++ rest) = true :=
    List.isPrefixOf_iff_prefix.mpr (List.prefix_append word rest)
  generalize word ++ rest = s at hword ⊢
  cases s with
  | nil => exact if_pos hword
  | cons c s => exact if_pos hword

/-- A word does not begin in a front that lacks one of its bytes, when a byte
that it does not have ends the front. -/
theorem not_prefix_of_front {front word : List UInt8} {c d : UInt8}
    (hc : c ∉ word) (hd : d ∈ word) (hfront : d ∉ front) (s : List UInt8) :
    ¬ word.isPrefixOf (front ++ c :: s) = true := by
  intro hword
  have hword := List.isPrefixOf_iff_prefix.mp hword
  rcases Nat.lt_or_ge front.length word.length with hlong | hshort
  · have hlength : (front ++ [c]).length ≤ word.length := by
      rw [List.length_append]
      exact hlong
    have hall : front ++ [c] <+: word :=
      List.prefix_of_prefix_length_le ⟨s, by simp⟩ hword hlength
    exact hc (hall.subset (by simp))
  · have hinside : word <+: front :=
      List.prefix_of_prefix_length_le hword (List.prefix_append _ _) hshort
    exact hfront (hinside.subset hd)

theorem strstr_skip {front word : List UInt8} {c d : UInt8} (hc : c ∉ word)
    (hd : d ∈ word) (hfront : d ∉ front) (s : List UInt8) :
    strstr (front ++ c :: s) word = strstr s word := by
  induction front with
  | nil => exact if_neg (not_prefix_of_front hc hd hfront s)
  | cons x front ih =>
      have hnot := not_prefix_of_front hc hd hfront s
      have hrest := ih fun hmem => hfront (List.mem_cons_of_mem x hmem)
      exact (if_neg hnot).trans hrest

/-- A comparison does not look past `front` when it ends there, or when `word`
does not go on from there. -/
theorem strncmpEq_append {front word : List UInt8} {n : Nat}
    (hfront : n ≤ front.length ∨ ¬ front <+: word) (rest : List UInt8) :
    strncmpEq (front ++ rest) word n = strncmpEq front word n := by
  induction front generalizing word n with
  | nil =>
      have hn : n = 0 := by simpa using hfront
      subst hn
      simp [strncmpEq]
  | cons c front ih =>
      cases n with
      | zero => simp [strncmpEq]
      | succ n =>
          cases word with
          | nil => simp [strncmpEq]
          | cons d word =>
              by_cases hsame : c = d
              · subst d
                have hrest : n ≤ front.length ∨ ¬ front <+: word := by
                  simpa [List.cons_prefix_cons] using hfront
                simp [strncmpEq, ih hrest]
              · have hdiffers : (c == d) = false := by simpa using hsame
                simp [strncmpEq, hdiffers]

/-- A comparison as long as a word tells whether the string begins with it. -/
theorem strncmpEq_iff_begins (str word : List UInt8) :
    strncmpEq str word word.length = true ↔ word <+: str := by
  induction word generalizing str with
  | nil => simp [strncmpEq]
  | cons d word ih =>
      cases str with
      | nil => simp [strncmpEq]
      | cons c str =>
          rw [List.length_cons, strncmpEq, Bool.and_eq_true, beq_iff_eq, ih,
            List.cons_prefix_cons, eq_comm]

/-- A word that a string begins with ends before a byte that it does not
have. -/
theorem length_le_of_strncmpEq {front word : List UInt8} {c : UInt8}
    (hc : c ∉ word) {rest : List UInt8}
    (hword : strncmpEq (front ++ c :: rest) word word.length = true) :
    word.length ≤ front.length := by
  induction word generalizing front with
  | nil => exact Nat.zero_le _
  | cons d word ih =>
      obtain ⟨hne, hrest⟩ := not_or.mp (mt List.mem_cons.mpr hc)
      cases front with
      | nil => simp [strncmpEq, hne] at hword
      | cons x front =>
          simp only [List.cons_append, List.length_cons, strncmpEq,
            Bool.and_eq_true] at hword
          exact Nat.succ_le_succ (ih hrest hword.2)

end MyDirectFB

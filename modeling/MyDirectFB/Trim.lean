/-
Trimming a C string in place, after utils/trim.cpp.  The pointers passed are not
null.
-/
import Mathlib.Data.List.DropRight
import MyDirectFB.Lib.Scan

namespace MyDirectFB

def ISSPACE (c : UInt8) : Bool :=
  c = 32 || c = 12 || c = 10 || c = 13 || c = 9 || c = 11

/-- The string at the pointer `ltrim` returns. -/
def ltrim (s : List UInt8) : List UInt8 :=
  s.dropWhile ISSPACE

/-- The string that `rtrim` leaves. -/
def rtrim (s : List UInt8) : List UInt8 :=
  s.rdropWhile ISSPACE

/-- `trim`. -/
def trim (s : List UInt8) : List UInt8 :=
  rtrim (ltrim s)

/-- A string without white space at its ends. -/
structure Trimmed (s : List UInt8) : Prop where
  head : ∀ c, s.head? = some c → ISSPACE c = false
  last : ∀ c, s.getLast? = some c → ISSPACE c = false

variable {s margin : List UInt8}

theorem ltrim_append (hmargin : ∀ c ∈ margin, ISSPACE c = true)
    (s : List UInt8) : ltrim (margin ++ s) = ltrim s :=
  List.dropWhile_append_of_pos hmargin

theorem ltrim_cons {c : UInt8} (hc : ISSPACE c = false) (s : List UInt8) :
    ltrim (c :: s) = c :: s :=
  List.dropWhile_cons_of_neg (by simp [hc])

theorem ltrim_eq_self (h : ∀ c, s.head? = some c → ISSPACE c = false) :
    ltrim s = s := by
  cases s with
  | nil => rfl
  | cons c s => exact ltrim_cons (h c rfl) s

/-- White space in front of a character that is none is not at the end. -/
theorem rtrim_stop (front : List UInt8) {c : UInt8} (hc : ISSPACE c = false)
    (back : List UInt8) :
    rtrim (front ++ c :: back) = front ++ c :: rtrim back :=
  Scan.rdropWhile_stop front (by simpa using hc) back

theorem rtrim_append (s : List UInt8)
    (hmargin : ∀ c ∈ margin, ISSPACE c = true) :
    rtrim (s ++ margin) = rtrim s :=
  Scan.rdropWhile_append_of_pos s hmargin

theorem rtrim_blank (hmargin : ∀ c ∈ margin, ISSPACE c = true) :
    rtrim margin = [] :=
  List.rdropWhile_eq_nil_iff.mpr hmargin

theorem rtrim_eq_self (h : ∀ c, s.getLast? = some c → ISSPACE c = false) :
    rtrim s = s := by
  rw [rtrim, List.rdropWhile_eq_self_iff]
  intro hne
  simp [h _ (List.getLast?_eq_getLast_of_ne_nil hne)]

/-- A trimmed string between white space is found by trimming both ends. -/
theorem Trimmed.ltrim_rtrim (hs : Trimmed s) {before after : List UInt8}
    (hbefore : ∀ c ∈ before, ISSPACE c = true)
    (hafter : ∀ c ∈ after, ISSPACE c = true) :
    ltrim (rtrim (before ++ (s ++ after))) = s := by
  rcases List.eq_nil_or_concat s with rfl | ⟨front, c, rfl⟩
  · rw [List.nil_append, rtrim_append before hafter, rtrim_blank hbefore]
    rfl
  · have hc : ISSPACE c = false := hs.last c (by simp)
    have hright : rtrim (before ++ (front.concat c ++ after)) =
        before ++ front.concat c := by
      have hstop := rtrim_stop (before ++ front) hc after
      rw [rtrim_blank hafter] at hstop
      simpa using hstop
    rw [hright, ltrim_append hbefore, ltrim_eq_self hs.head]

theorem ltrim_blank (hmargin : ∀ c ∈ margin, ISSPACE c = true) :
    ltrim margin = [] :=
  List.dropWhile_eq_nil_iff.mpr hmargin

theorem ltrim_append_cons (front : List UInt8) {c : UInt8}
    (hc : ISSPACE c = false) (back : List UInt8) :
    ltrim (front ++ c :: back) = ltrim front ++ c :: back := by
  obtain ⟨before, hbefore, hsplit⟩ := Scan.exists_stop ISSPACE front
  rcases hsplit with rfl | ⟨d, rest, hd, rfl⟩
  · rw [ltrim_append hbefore, ltrim_cons hc, ltrim_blank hbefore]
    rfl
  · rw [List.append_assoc, ltrim_append hbefore, ltrim_append hbefore,
      List.cons_append, ltrim_cons hd, ltrim_cons hd]
    rfl

/-- What is trimmed on both sides may have been trimmed on the right before. -/
theorem rtrim_ltrim_rtrim (s : List UInt8) :
    rtrim (ltrim (rtrim s)) = rtrim (ltrim s) := by
  obtain ⟨before, hbefore, hsplit⟩ := Scan.exists_stop ISSPACE s
  rcases hsplit with rfl | ⟨c, rest, hc, rfl⟩
  · rw [rtrim_blank hbefore, ltrim_blank hbefore]
    rfl
  · rw [rtrim_stop before hc, ltrim_append hbefore, ltrim_append hbefore,
      ltrim_cons hc, ltrim_cons hc]
    have hstop := rtrim_stop [] hc rest
    have hagain := rtrim_stop [] hc (rtrim rest)
    rw [List.nil_append] at hstop hagain
    rw [hstop, hagain]
    exact congrArg (c :: ·) (List.rdropWhile_idempotent _ _)

theorem mem_ltrim {c : UInt8} (hc : ISSPACE c = false) :
    c ∈ ltrim s ↔ c ∈ s := by
  constructor
  · exact fun hmem => (List.dropWhile_sublist ISSPACE).subset hmem
  · intro hmem
    obtain ⟨front, back, rfl⟩ := List.append_of_mem hmem
    rw [ltrim_append_cons front hc]
    simp

theorem mem_rtrim {c : UInt8} (hc : ISSPACE c = false) :
    c ∈ rtrim s ↔ c ∈ s := by
  constructor
  · exact fun hmem => (List.rdropWhile_prefix ISSPACE s).subset hmem
  · intro hmem
    obtain ⟨front, back, rfl⟩ := List.append_of_mem hmem
    rw [rtrim_stop front hc]
    simp

end MyDirectFB

/-
The hex dump of base/log.cpp.  A line has an offset, sixteen columns of two digits,
of which those behind the data are blank, and the characters of its bytes.  Whatever
the data are, the text is made of printable characters and line feeds, and the data
can be read back from it.
-/
import MyDirectFB.Lib.Numeral
import MyDirectFB.Lib.Tokens
import MyDirectFB.StringFunctions

namespace MyDirectFB

namespace LogDump

open Numeral

/-- `ISPRINTABLE`. -/
def isPrintable (c : UInt8) : Bool := 32 ≤ c && c ≤ 126

/-- The column of a byte, with the gap in the middle in front of it. -/
def column (data : List UInt8) (offset ii : Nat) : List UInt8 :=
  (if ii = 8 then ascii " " else []) ++
    match data[offset + ii]? with
    | some c => printHex 2 c.toNat ++ ascii " "
    | none => ascii "   "

def character (c : UInt8) : UInt8 := if isPrintable c then c else 46

/-- What is in `buffer` after a pass of the loop, without the NUL. -/
def line (data : List UInt8) (offset : Nat) : List UInt8 :=
  ascii "0x" ++ printHex 4 offset ++ ascii "  " ++
    (List.range 16).flatMap (column data offset) ++ ascii " " ++
    ((data.drop offset).take 16).map character ++ ascii "\n"

def INT_MAX : Nat := 2147483647

/-- The loop over the lines; `none` is an overflow of `offset`. -/
def linesFrom (data : List UInt8) (offset : Nat) : Option (List (List UInt8)) :=
  if offset < data.length then
    if offset + 16 ≤ INT_MAX then
      (linesFrom data (offset + 16)).map (line data offset :: ·)
    else none
  else some []
termination_by data.length - offset

/-- `LOG_Dump`: what is written to the output. -/
def dump (gLogLevel priority : Int) (data : List UInt8) : Option (List UInt8) :=
  if priority > gLogLevel then some []
  else (linesFrom data 0).map List.flatten

/-! ### Reading a dump -/

/-- The byte of a column, if there is one. -/
def readColumn (text : List UInt8) : Option UInt8 :=
  if text.take 2 = ascii "  " then none
  else some (UInt8.ofNat (valueOf 16 (text.take 2)))

/-- The offset of a line, and its bytes. -/
def readLine (text : List UInt8) : Nat × List UInt8 :=
  let digits := (text.drop 2).takeWhile (isDigit 16)
  let columns := text.drop (2 + digits.length + 2)
  (valueOf 16 digits, (List.range 16).filterMap fun ii =>
    readColumn (columns.drop (3 * ii + if ii < 8 then 0 else 1)))

/-- The lines of a text with their offsets. -/
def readDump (text : List UInt8) : List (Nat × List UInt8) :=
  (Tokens.tokens 10 text).map readLine

/-! ### A column -/

theorem printHex_byte (c : UInt8) :
    (printHex 2 c.toNat).length = 2 ∧ printHex 2 c.toNat ≠ ascii "  " ∧
      UInt8.ofNat (valueOf 16 (printHex 2 c.toNat)) = c := by
  have hlength : (printHex 2 c.toNat).length = 2 := length_printHex c.toNat_lt
  refine ⟨hlength, fun hblank => ?_, ?_⟩
  · have hspace : (32 : UInt8) ∈ printHex 2 c.toNat := by
      rw [hblank]
      decide
    exact absurd (lowerHex_printHex 2 c.toNat 32 hspace) (by decide)
  · rw [valueOf_printHex, UInt8.ofNat_toNat]

theorem length_column (data : List UInt8) (offset ii : Nat) :
    (column data offset ii).length = if ii = 8 then 4 else 3 := by
  have hcell : (match data[offset + ii]? with
      | some c => printHex 2 c.toNat ++ ascii " "
      | none => ascii "   ").length = 3 := by
    split
    · rw [List.length_append, (printHex_byte _).1]
      rfl
    · rfl
  rw [column, List.length_append, hcell]
  split <;> rfl

theorem length_columns (data : List UInt8) (offset n : Nat) :
    ((List.range n).flatMap (column data offset)).length =
      3 * n + if 8 < n then 1 else 0 := by
  induction n with
  | zero => rfl
  | succ n ih =>
      rw [List.range_succ, List.flatMap_append, List.length_append, ih,
        List.flatMap_cons, List.flatMap_nil, List.append_nil, length_column]
      split <;> split <;> split <;> omega

/-- Where the reader looks for a column, there it is. -/
theorem readColumn_columns (data tail : List UInt8) (offset : Nat) {ii : Nat}
    (hii : ii < 16) :
    readColumn ((((List.range 16).flatMap (column data offset)) ++ tail).drop
      (3 * ii + if ii < 8 then 0 else 1)) = data[offset + ii]? := by
  obtain ⟨rest, hsplit⟩ : ∃ rest, List.range 16 = List.range ii ++ ii :: rest := by
    obtain ⟨later, hlater⟩ := Nat.exists_eq_add_of_lt hii
    rw [hlater, Nat.add_assoc, List.range_add, List.range_succ_eq_map, List.map_cons]
    exact ⟨_, rfl⟩
  have hplace : (3 * ii + if ii < 8 then 0 else 1) =
      ((List.range ii).flatMap (column data offset)).length +
        (if ii = 8 then 1 else 0) := by
    rw [length_columns]
    split <;> split <;> split <;> omega
  have hcolumn : ∃ more, (((List.range 16).flatMap (column data offset)) ++ tail).drop
      (3 * ii + if ii < 8 then 0 else 1) =
      (match data[offset + ii]? with
        | some c => printHex 2 c.toNat ++ ascii " "
        | none => ascii "   ") ++ more := by
    refine ⟨rest.flatMap (column data offset) ++ tail, ?_⟩
    rw [hplace, hsplit, List.flatMap_append, List.flatMap_cons, List.append_assoc,
      ← List.drop_drop, List.drop_left, column, List.append_assoc, List.append_assoc]
    split <;> rfl
  obtain ⟨more, hmore⟩ := hcolumn
  rw [hmore]
  cases data[offset + ii]? with
  | none => rfl
  | some c =>
      obtain ⟨hlength, hblank, hvalue⟩ := printHex_byte c
      have htake : (printHex 2 c.toNat ++ ascii " " ++ more).take 2 =
          printHex 2 c.toNat := by
        rw [List.append_assoc, List.take_append_of_le_length (by omega),
          List.take_of_length_le (by omega)]
      simp only [readColumn, htake, hblank, ↓reduceIte, hvalue]

/-! ### A line -/

/-- Sixteen bytes at most are found one after the other. -/
theorem filterMap_getElem? {A : Type} {bytes : List A} {n : Nat}
    (hlength : bytes.length ≤ n) :
    (List.range n).filterMap (bytes[·]?) = bytes := by
  induction bytes generalizing n with
  | nil => simp
  | cons c bytes ih =>
      obtain ⟨m, rfl⟩ := Nat.exists_eq_add_of_le' (Nat.le_of_add_left_le hlength)
      rw [List.length_cons] at hlength
      rw [List.range_succ_eq_map, List.filterMap_cons, List.filterMap_map]
      exact congrArg (c :: ·) (ih (by omega))

theorem readLine_eq {digits : List UInt8}
    (hdigits : ∀ c ∈ digits, isDigit 16 c = true) (columns : List UInt8) :
    readLine (48 :: 120 :: (digits ++ 32 :: 32 :: columns)) =
      (valueOf 16 digits, (List.range 16).filterMap fun ii =>
        readColumn (columns.drop (3 * ii + if ii < 8 then 0 else 1))) := by
  have htake : (digits ++ 32 :: 32 :: columns).takeWhile (isDigit 16) = digits :=
    Scan.takeWhile_stop hdigits rfl _
  have hdrop : (48 :: 120 :: (digits ++ 32 :: 32 :: columns)).drop
      (2 + digits.length + 2) = columns := by
    rw [← List.drop_drop, ← List.drop_drop]
    change ((digits ++ 32 :: 32 :: columns).drop digits.length).drop 2 = _
    rw [List.drop_left]
    rfl
  unfold readLine
  change (valueOf 16 ((digits ++ 32 :: 32 :: columns).takeWhile (isDigit 16)), _) = _
  simp only [List.drop_succ_cons, List.drop_zero, htake, hdrop]

/-- A line without its line feed. -/
def lineBody (data : List UInt8) (offset : Nat) : List UInt8 :=
  48 :: 120 :: (printHex 4 offset ++ 32 :: 32 ::
    ((List.range 16).flatMap (column data offset) ++
      (32 :: ((data.drop offset).take 16).map character)))

theorem line_eq (data : List UInt8) (offset : Nat) :
    line data offset = lineBody data offset ++ [10] := by
  simp only [line, lineBody, List.append_assoc, List.cons_append]
  rfl

/-- What is read of a line are its offset and the bytes from there on. -/
theorem readLine_lineBody (data : List UInt8) (offset : Nat) :
    readLine (lineBody data offset) = (offset, (data.drop offset).take 16) := by
  have hdigits : ∀ c ∈ printHex 4 offset, isDigit 16 c = true := fun c hc =>
    decide_eq_true (hexDigit_digitValue (lowerHex_printHex 4 offset c hc)).1
  have hbytes (ii : Nat) (hii : ii ∈ List.range 16) :
      readColumn ((((List.range 16).flatMap (column data offset)) ++
        (32 :: ((data.drop offset).take 16).map character)).drop
          (3 * ii + if ii < 8 then 0 else 1)) = ((data.drop offset).take 16)[ii]? := by
    rw [readColumn_columns _ _ _ (List.mem_range.mp hii),
      List.getElem?_take_of_lt (List.mem_range.mp hii), List.getElem?_drop]
  rw [lineBody, readLine_eq hdigits, valueOf_printHex, List.filterMap_congr hbytes,
    filterMap_getElem? (by rw [List.length_take]; omega)]

theorem isPrintable_ascii {text : List UInt8} (htext : text.all isPrintable = true) :
    ∀ c ∈ text, isPrintable c = true := List.all_eq_true.mp htext

theorem isPrintable_hexDigit {width n : Nat} :
    ∀ c ∈ printHex width n, isPrintable c = true := by
  intro c hc
  have hbounds : 32 ≤ c ∧ c ≤ 126 := by
    rcases lowerHex_printHex width n c hc with h | h
    · exact ⟨UInt8.le_trans (by decide) h.1, UInt8.le_trans h.2 (by decide)⟩
    · exact ⟨UInt8.le_trans (by decide) h.1, UInt8.le_trans h.2 (by decide)⟩
  simpa [isPrintable] using hbounds

theorem isPrintable_column (data : List UInt8) (offset ii : Nat) :
    ∀ c ∈ column data offset ii, isPrintable c = true := by
  intro c hc
  unfold column at hc
  rcases List.mem_append.mp hc with hc | hc
  · split at hc
    · exact isPrintable_ascii (by decide) c hc
    · cases hc
  · split at hc
    · rcases List.mem_append.mp hc with hc | hc
      · exact isPrintable_hexDigit c hc
      · exact isPrintable_ascii (by decide) c hc
    · exact isPrintable_ascii (by decide) c hc

theorem isPrintable_character (c : UInt8) : isPrintable (character c) = true := by
  unfold character
  split
  · assumption
  · rfl

/-- Every character of a line can be printed. -/
theorem isPrintable_lineBody (data : List UInt8) (offset : Nat) :
    ∀ c ∈ lineBody data offset, isPrintable c = true := by
  intro c hc
  simp only [lineBody, List.mem_cons, List.mem_append, List.mem_flatMap,
    List.mem_map] at hc
  rcases hc with rfl | rfl | hc | rfl | rfl | ⟨ii, -, hc⟩ | rfl | ⟨d, -, rfl⟩
  · rfl
  · rfl
  · exact isPrintable_hexDigit c hc
  · rfl
  · rfl
  · exact isPrintable_column data offset ii c hc
  · rfl
  · exact isPrintable_character d

/-! ### The text -/

/-- The offsets and the bytes of the lines from `offset` on. -/
def chunks (data : List UInt8) (offset : Nat) : List (Nat × List UInt8) :=
  if offset < data.length then
    (offset, (data.drop offset).take 16) :: chunks data (offset + 16)
  else []
termination_by data.length - offset

/-- The lines have all the data, one behind the other. -/
theorem flatMap_chunks (data : List UInt8) (offset : Nat) :
    (chunks data offset).flatMap Prod.snd = data.drop offset := by
  induction offset using chunks.induct data with
  | case1 offset hmore ih =>
      rw [chunks, if_pos hmore, List.flatMap_cons, ih, ← List.drop_drop,
        List.take_append_drop]
  | case2 offset hdone =>
      rw [chunks, if_neg hdone, List.drop_eq_nil_of_le (Nat.not_lt.mp hdone)]
      rfl

/-- Each line but the last has sixteen bytes, and its offset is their number. -/
theorem chunks_fst (data : List UInt8) (offset : Nat) :
    (chunks data offset).map Prod.fst =
      (List.range ((data.length - offset + 15) / 16)).map (offset + 16 * ·) := by
  induction offset using chunks.induct data with
  | case1 offset hmore ih =>
      have hcount : (data.length - offset + 15) / 16 =
          (data.length - (offset + 16) + 15) / 16 + 1 := by omega
      rw [chunks, if_pos hmore, List.map_cons, ih, hcount, List.range_succ_eq_map,
        List.map_cons, List.map_map]
      refine congrArg (offset :: ·) (List.map_congr_left fun k _ => ?_)
      simp only [Function.comp_apply]
      omega
  | case2 offset hdone =>
      have hcount : (data.length - offset + 15) / 16 = 0 := by omega
      rw [chunks, if_neg hdone, hcount]
      rfl

theorem lineBody_ne_nil (data : List UInt8) (offset : Nat) :
    lineBody data offset ≠ [] := List.cons_ne_nil _ _

/-- The text of the lines is read line by line. -/
theorem readDump_linesFrom {data : List UInt8} {offset : Nat}
    {texts : List (List UInt8)} (hlines : linesFrom data offset = some texts) :
    readDump texts.flatten = chunks data offset ∧
      ∀ c ∈ texts.flatten, c = 10 ∨ isPrintable c = true := by
  induction offset using chunks.induct data generalizing texts with
  | case1 offset hmore ih =>
      rw [linesFrom, if_pos hmore] at hlines
      obtain ⟨-, hlines⟩ := Option.ite_none_right_eq_some.mp hlines
      obtain ⟨rest, hrest, rfl⟩ := Option.map_eq_some_iff.mp hlines
      obtain ⟨hread, hprintable⟩ := ih hrest
      have hbody : (10 : UInt8) ∉ lineBody data offset := fun hmem =>
        absurd (isPrintable_lineBody data offset 10 hmem) (by decide)
      rw [List.flatten_cons, line_eq]
      constructor
      · rw [chunks, if_pos hmore, ← hread, ← readLine_lineBody]
        unfold readDump
        rw [List.append_assoc, List.singleton_append, Tokens.tokens_append hbody,
          Tokens.ofColumn, if_neg (lineBody_ne_nil data offset)]
        rfl
      · intro c hc
        rcases List.mem_append.mp hc with hc | hc
        · rcases List.mem_append.mp hc with hc | hc
          · exact .inr (isPrintable_lineBody data offset c hc)
          · exact .inl (List.mem_singleton.mp hc)
        · exact hprintable c hc
  | case2 offset hdone =>
      rw [linesFrom, if_neg hdone] at hlines
      obtain rfl := Option.some.inj hlines
      refine ⟨?_, fun c hc => nomatch hc⟩
      rw [chunks, if_neg hdone]
      exact congrArg (List.map readLine) Tokens.tokens_nil

theorem exists_linesFrom {data : List UInt8} (hlength : data.length + 16 ≤ INT_MAX + 1)
    (offset : Nat) : ∃ texts, linesFrom data offset = some texts := by
  induction offset using chunks.induct data with
  | case1 offset hmore ih =>
      obtain ⟨texts, htexts⟩ := ih
      rw [linesFrom, if_pos hmore, if_pos (by omega), htexts]
      exact ⟨_, rfl⟩
  | case2 offset hdone =>
      rw [linesFrom, if_neg hdone]
      exact ⟨[], rfl⟩

end LogDump

/-- The data can be read back from a dump of them, whatever they are: the lines have
them one after another, with their offsets, and there is nothing in the text but
characters that can be printed and the line feeds.  `int` has room for the offsets
of data that are 15 bytes short of its largest value. -/
theorem dump_readBack (gLogLevel priority : Int) (data : List UInt8)
    (hpriority : priority ≤ gLogLevel)
    (hlength : data.length + 16 ≤ LogDump.INT_MAX + 1) :
    ∃ text, LogDump.dump gLogLevel priority data = some text ∧
      (LogDump.readDump text).flatMap Prod.snd = data ∧
      (LogDump.readDump text).map Prod.fst =
        (List.range ((data.length + 15) / 16)).map (16 * ·) ∧
      ∀ c ∈ text, c = 10 ∨ LogDump.isPrintable c = true := by
  obtain ⟨texts, htexts⟩ := LogDump.exists_linesFrom hlength 0
  obtain ⟨hread, hprintable⟩ := LogDump.readDump_linesFrom htexts
  refine ⟨texts.flatten, ?_, ?_, ?_, hprintable⟩
  · rw [LogDump.dump, if_neg (by omega), htexts]
    rfl
  · rw [hread, LogDump.flatMap_chunks]
    rfl
  · rw [hread, LogDump.chunks_fst]
    simp

/-- Twenty bytes that are no text. -/
theorem dump_readBack_twenty :
    ∃ text, LogDump.dump 5 4 (List.replicate 20 10) = some text ∧
      (LogDump.readDump text).flatMap Prod.snd = List.replicate 20 10 ∧
      (LogDump.readDump text).map Prod.fst =
        (List.range ((20 + 15) / 16)).map (16 * ·) ∧
      ∀ c ∈ text, c = 10 ∨ LogDump.isPrintable c = true :=
  dump_readBack 5 4 (List.replicate 20 10) (by decide) (by decide)

end MyDirectFB

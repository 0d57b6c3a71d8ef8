/-
What the ini parser reports.  A line that is wrong ends the parse, and its
number is the result; the callback has been called for the pairs up to it.  The
one wrong line that is not reported is a header without a bracket at its end:
the parser reads through the null pointer that its search for the bracket
returns.
-/
import MyDirectFB.IniLines

namespace MyDirectFB

/-! ### What a file says -/

section Spec

variable (lines : List (List UInt8))

/-- The section of the nearest header among the first `i` lines, or none. -/
def sectionAt (i : Nat) : List UInt8 :=
  ((lines.take i).filterMap headerOf).getLast?.getD []

/-- The call for line `i`, if it gives a pair. -/
def callAt (i : Nat) : Option IniCall :=
  (lines[i]?.bind pairOf).map fun pair => ⟨sectionAt lines i, pair.1, pair.2⟩

/-- The calls for the pairs of the first `n` lines. -/
def callsBefore (n : Nat) : List IniCall :=
  (List.range n).filterMap (callAt lines)

/-- A line is right if it is skipped, or is a header with its bracket, or gives
a pair that the callback accepts. -/
def LineOk (cb : IniCB) (i : Nat) : Prop :=
  ∃ line, lines[i]? = some line ∧
    (Skipped line ∨
      ((lineText line).head? = some OPEN_BRACKET ∧
        CLOSE_BRACKET ∈ (lineText line).tail) ∨
      ∃ call, callAt lines i = some call ∧ 0 ≤ cb (callsBefore lines i) call)

/-- Line `i` is the first that is not right. -/
def FirstWrong (cb : IniCB) (i : Nat) : Prop :=
  i < lines.length ∧ ¬ LineOk lines cb i ∧ ∀ j < i, LineOk lines cb j

end Spec

/-- The parser returns 0 after all calls if every line of the file is right, and
otherwise the number of the first line that is not, after the calls up to it. -/
def ReportsErrors (cb : IniCB) (file : List UInt8) : Prop :=
  ∃ result, parseIni cb file = some result ∧
    (result.error = 0 ↔
      ∀ i < (textLines file).length, LineOk (textLines file) cb i) ∧
    (result.error = 0 →
      result.calls = callsBefore (textLines file) (textLines file).length) ∧
    ∀ i, FirstWrong (textLines file) cb i →
      result.error = i + 1 ∧ result.calls = callsBefore (textLines file) (i + 1)

/-- The first line that is not right, if there is one, is no header without a
bracket at its end. -/
def HeadersClosed (cb : IniCB) (file : List UInt8) : Prop :=
  ∀ i line, FirstWrong (textLines file) cb i →
    (textLines file)[i]? = some line → ¬ UnclosedHeader line

/-! ### Line after line -/

/-- The parser when it has read the first `i` lines. -/
def parserAt (lines : List (List UInt8)) (i : Nat) : IniParser :=
  ⟨sectionAt lines i, callsBefore lines i⟩

section Lines

variable (cb : IniCB) {lines : List (List UInt8)} {i : Nat} {line : List UInt8}

theorem sectionAt_succ (hline : lines[i]? = some line) :
    sectionAt lines (i + 1) = (headerOf line).getD (sectionAt lines i) := by
  have htake : lines.take (i + 1) = lines.take i ++ [line] := by
    rw [List.take_add_one, hline]
    rfl
  rw [sectionAt, htake, List.filterMap_append]
  cases hheader : headerOf line with
  | none => simp [hheader, sectionAt]
  | some name => simp [hheader]

theorem callsBefore_succ :
    callsBefore lines (i + 1) =
      callsBefore lines i ++ (callAt lines i).toList := by
  rw [callsBefore, List.range_succ, List.filterMap_append]
  cases hcall : callAt lines i <;> simp [hcall, callsBefore]

theorem callAt_eq (hline : lines[i]? = some line) :
    callAt lines i =
      (pairOf line).map fun pair => ⟨sectionAt lines i, pair.1, pair.2⟩ := by
  rw [callAt, hline]
  rfl

/-- A line that gives neither a header nor a pair leaves the parser. -/
theorem parserAt_succ_of_none (hline : lines[i]? = some line)
    (hnone : headerOf line = none ∧ pairOf line = none) :
    parserAt lines (i + 1) = parserAt lines i := by
  rw [parserAt, parserAt, sectionAt_succ hline, callsBefore_succ,
    callAt_eq hline, hnone.1, hnone.2]
  simp

theorem lineOk_iff (hline : lines[i]? = some line) :
    LineOk lines cb i ↔
      Skipped line ∨
        ((lineText line).head? = some OPEN_BRACKET ∧
          CLOSE_BRACKET ∈ (lineText line).tail) ∨
        ∃ call, callAt lines i = some call ∧
          0 ≤ cb (callsBefore lines i) call := by
  simp [LineOk, hline]

theorem lineOk_of_pairOf (hline : lines[i]? = some line) {call : IniCall}
    {pair : List UInt8 × List UInt8} (hpair : pairOf line = some pair)
    (hcall : callAt lines i = some call) :
    LineOk lines cb i ↔ 0 ≤ cb (callsBefore lines i) call := by
  obtain ⟨hskipped, hopen, -⟩ := pairOf_head hpair
  rw [lineOk_iff cb hline]
  simp [hskipped, hopen, hcall]

/-- What the pass over a line does, unless it is a header without its bracket:
it takes the parser to the next line, with an error if the line is not right. -/
theorem line_parserAt (hline : lines[i]? = some line)
    (hclosed : ¬ UnclosedHeader line) :
    ∃ errmsg, (parserAt lines i).line cb line =
        some (parserAt lines (i + 1), errmsg) ∧
      (errmsg = none ↔ LineOk lines cb i) := by
  rcases line_cases line with hskipped | ⟨name, hname⟩ | hunclosed |
    ⟨name, value, hpair⟩ | hwrong
  · refine ⟨none, ?_, iff_of_true rfl ⟨line, hline, .inl hskipped⟩⟩
    rw [IniParser.line_skipped cb _ hskipped,
      parserAt_succ_of_none hline hskipped.gives_none]
  · refine ⟨none, ?_,
      iff_of_true rfl ⟨line, hline, .inr (.inl (headerOf_head hname))⟩⟩
    rw [IniParser.line_headerOf cb _ hname, parserAt, parserAt,
      sectionAt_succ hline, callsBefore_succ, callAt_eq hline, hname,
      pairOf_of_headerOf hname]
    simp
  · exact absurd hunclosed hclosed
  · have hcall : callAt lines i = some ⟨sectionAt lines i, name, value⟩ := by
      rw [callAt_eq hline, hpair]
      rfl
    have hnext : parserAt lines (i + 1) = { parserAt lines i with
        calls := callsBefore lines i ++ [⟨sectionAt lines i, name, value⟩] } := by
      rw [parserAt, parserAt, sectionAt_succ hline, callsBefore_succ, hcall,
        headerOf_of_pairOf hpair]
      rfl
    rw [hnext]
    refine ⟨_, (parserAt lines i).line_pairOf cb hpair, ?_⟩
    rw [lineOk_of_pairOf cb hline hpair hcall, parserAt, ← Int.not_lt]
    split <;> simp_all
  · have hcall : callAt lines i = none := by
      rw [callAt_eq hline, hwrong.gives_none.2]
      rfl
    rw [parserAt_succ_of_none hline hwrong.gives_none]
    refine ⟨_, IniParser.line_noSeparator cb _ hwrong, ?_⟩
    rw [lineOk_iff cb hline, hcall]
    simp [hwrong.1, hwrong.2.1]

theorem not_lineOk_of_unclosedHeader (hline : lines[i]? = some line)
    (hunclosed : UnclosedHeader line) : ¬ LineOk lines cb i := by
  obtain ⟨hskipped, -, hpair⟩ := hunclosed.gives_none
  have hcall : callAt lines i = none := by
    rw [callAt_eq hline, hpair]
    rfl
  rw [lineOk_iff cb hline, hcall]
  simp [hskipped, hunclosed.2]

end Lines

/-! ### The loop -/

/-- How a parse ends: after all lines, at a wrong line that is reported, or at a
header without its bracket. -/
inductive Ending (cb : IniCB) (lines : List (List UInt8)) :
    Option IniResult → Prop
  | complete (hall : ∀ i < lines.length, LineOk lines cb i) :
      Ending cb lines (some ⟨0, none, callsBefore lines lines.length⟩)
  | reported {i : Nat} {line : List UInt8} (hwrong : FirstWrong lines cb i)
      (hline : lines[i]? = some line) (hclosed : ¬ UnclosedHeader line)
      (errmsg : String) :
      Ending cb lines (some ⟨i + 1, some errmsg, callsBefore lines (i + 1)⟩)
  | unreported {i : Nat} {line : List UInt8} (hwrong : FirstWrong lines cb i)
      (hline : lines[i]? = some line) (hunclosed : UnclosedHeader line) :
      Ending cb lines none

/-- The loop from the line it has come to.  The induction is on the lines that
are left. -/
theorem loop_ending {cb : IniCB} {lines : List (List UInt8)}
    (hlines : ∀ line ∈ lines, line.length < 1023 ∧ 0 ∉ line)
    {later : List (List UInt8)} {i fuel : Nat} {file : List UInt8}
    (hfile : textLines file = later) (hlater : lines.drop i = later)
    (hi : i ≤ lines.length) (hfuel : later.length < fuel)
    (hok : ∀ j < i, LineOk lines cb j) :
    Ending cb lines (IniParser.loop cb fuel i (parserAt lines i) file) := by
  induction later generalizing i fuel file with
  | nil =>
      obtain ⟨fuel, rfl⟩ := Nat.exists_eq_succ_of_ne_zero (Nat.ne_zero_of_lt hfuel)
      obtain rfl : i = lines.length :=
        Nat.le_antisymm hi (List.drop_eq_nil_iff.mp hlater)
      obtain rfl : file = [] := by
        rcases file_cases file with hempty |
          ⟨line, hline, ⟨rest, rfl⟩ | ⟨hne, rfl⟩⟩
        · exact hempty
        · rw [textLines_append_newline hline] at hfile
          cases hfile
        · rw [textLines_singleton hline hne] at hfile
          cases hfile
      exact .complete hok
  | cons line later ih =>
      obtain ⟨fuel, rfl⟩ := Nat.exists_eq_succ_of_ne_zero (Nat.ne_zero_of_lt hfuel)
      have hline : lines[i]? = some line := by
        rw [← List.head?_drop, hlater]
        rfl
      have hlt := (List.getElem?_eq_some_iff.mp hline).1
      have hnext : lines.drop (i + 1) = later := by
        rw [← List.tail_drop, hlater]
        rfl
      obtain ⟨hshort, hnul⟩ := hlines line (List.mem_of_getElem? hline)
      obtain ⟨ending, rest, hread, hending, hrest⟩ := fgets_textLines hfile hshort
      have hzero : 0 ∉ line ++ ending := by
        rcases hending with rfl | rfl <;> simp [hnul, NEWLINE]
      rw [IniParser.loop, hread]
      simp only [ofMemory_bytes hzero, IniParser.line_ending cb _ hending]
      by_cases hunclosed : UnclosedHeader line
      · rw [IniParser.line_unclosedHeader cb _ hunclosed]
        exact .unreported
          ⟨hlt, not_lineOk_of_unclosedHeader cb hline hunclosed, hok⟩ hline
          hunclosed
      · obtain ⟨errmsg, hpass, hright⟩ := line_parserAt cb hline hunclosed
        rw [hpass]
        cases errmsg with
        | none =>
            refine ih hrest hnext hlt (Nat.lt_of_succ_lt_succ hfuel) fun j hj => ?_
            rcases Nat.lt_succ_iff_lt_or_eq.mp hj with hj | rfl
            · exact hok j hj
            · exact hright.mp rfl
        | some errmsg =>
            refine .reported ⟨hlt, fun h => ?_, hok⟩ hline hunclosed errmsg
            exact Option.some_ne_none errmsg (hright.mpr h)

theorem FirstWrong.unique {cb : IniCB} {lines : List (List UInt8)} {i j : Nat}
    (hi : FirstWrong lines cb i) (hj : FirstWrong lines cb j) : i = j := by
  rcases Nat.lt_trichotomy i j with hlt | heq | hlt
  · exact absurd (hj.2.2 i hlt) hi.2.1
  · exact heq
  · exact absurd (hi.2.2 j hlt) hj.2.1

/-- The parser reports what it should exactly if it does not come to a header
without a bracket at its end. -/
theorem reportsErrors_iff (cb : IniCB) (file : List UInt8)
    (hlines : ∀ line ∈ textLines file, line.length < 1023 ∧ 0 ∉ line) :
    ReportsErrors cb file ↔ HeadersClosed cb file := by
  have hending : Ending cb (textLines file) (parseIni cb file) :=
    loop_ending hlines rfl List.drop_zero (Nat.zero_le _)
      (Nat.lt_succ_of_le (length_textLines_le file)) fun j hj =>
        absurd hj (Nat.not_lt_zero j)
  rw [ReportsErrors, HeadersClosed]
  generalize parseIni cb file = outcome at hending ⊢
  cases hending with
  | complete hall =>
      have hnone (i : Nat) : ¬ FirstWrong (textLines file) cb i :=
        fun hwrong => hwrong.2.1 (hall i hwrong.1)
      exact iff_of_true
        ⟨_, rfl, iff_of_true rfl hall, fun _ => rfl,
          fun i hwrong => absurd hwrong (hnone i)⟩
        (fun i line hwrong _ _ => hnone i hwrong)
  | @reported k line hwrong hline hclosed errmsg =>
      have hne : k + 1 ≠ 0 := Nat.succ_ne_zero k
      have hall : ¬ ∀ i < (textLines file).length,
          LineOk (textLines file) cb i := fun h => hwrong.2.1 (h k hwrong.1)
      refine iff_of_true
        ⟨_, rfl, iff_of_false hne hall, fun h => absurd h hne, ?_⟩ ?_
      · intro i hi
        rw [hi.unique hwrong]
        exact ⟨rfl, rfl⟩
      · intro i other hi hother
        rw [hi.unique hwrong, hline] at hother
        exact Option.some.inj hother ▸ hclosed
  | @unreported k line hwrong hline hunclosed =>
      refine iff_of_false (fun h => ?_) fun h => h k line hwrong hline hunclosed
      obtain ⟨result, hresult, -⟩ := h
      cases hresult

/-- The lines `[s]`, `a=1` and `b`, the last of which is wrong. -/
theorem reportsErrors_iff_bareName :
    ReportsErrors (fun _ _ => 0) [91, 115, 93, 10, 97, 61, 49, 10, 98] := by
  have hlines : textLines [91, 115, 93, 10, 97, 61, 49, 10, 98] =
      [[91, 115, 93], [97, 61, 49], [98]] := by decide
  refine (reportsErrors_iff _ _ ?_).mpr ?_
  · rw [hlines]
    decide
  · intro i line _ hline
    have hmem := List.mem_of_getElem? hline
    rw [hlines] at hmem
    simp only [List.mem_cons, List.not_mem_nil, or_false] at hmem
    rcases hmem with rfl | rfl | rfl <;> unfold UnclosedHeader <;> decide

/-- The file `[s`. -/
theorem unclosedHeader_not_reported :
    parseIni (fun _ _ => 0) [91, 115] = none ∧
      ¬ ReportsErrors (fun _ _ => 0) [91, 115] := by
  have hparse : parseIni (fun _ _ => 0) [91, 115] = none := by decide
  refine ⟨hparse, fun ⟨result, hresult, _⟩ => ?_⟩
  rw [hparse] at hresult
  cases hresult

end MyDirectFB

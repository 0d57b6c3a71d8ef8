/-
The lines of an ini file, one by one.  What a pass of the parser makes of a line
depends on the trimmed line only: it is skipped, gives a header or a pair, or is
wrong.  A comment is cut from a value at its first `#` or, if it has none, at its
first `;`, which is the first of the two exactly if no `;` stands before a `#`.
-/
import MyDirectFB.IniDocument

namespace MyDirectFB

/-! ### The lines of a file -/

/-- The lines of a text without their newlines; the last may have none. -/
def textLines : List UInt8 → List (List UInt8)
  | [] => []
  | c :: rest =>
      if c = NEWLINE then [] :: textLines rest
      else
        match textLines rest with
        | [] => [[c]]
        | line :: lines => (c :: line) :: lines

theorem textLines_append_newline {line : List UInt8} (hline : NEWLINE ∉ line)
    (rest : List UInt8) :
    textLines (line ++ NEWLINE :: rest) = line :: textLines rest := by
  induction line with
  | nil => simp [textLines]
  | cons c line ih =>
      simp only [List.mem_cons, not_or] at hline
      rw [List.cons_append, textLines, if_neg (Ne.symm hline.1), ih hline.2]

theorem textLines_singleton {line : List UInt8} (hline : NEWLINE ∉ line)
    (hne : line ≠ []) : textLines line = [line] := by
  induction line with
  | nil => exact absurd rfl hne
  | cons c line ih =>
      simp only [List.mem_cons, not_or] at hline
      rw [textLines, if_neg (Ne.symm hline.1)]
      cases line with
      | nil => rfl
      | cons d line => rw [ih hline.2 (List.cons_ne_nil d line)]

theorem length_textLines_le (file : List UInt8) :
    (textLines file).length ≤ file.length := by
  induction file with
  | nil => exact Nat.le_refl 0
  | cons c rest ih =>
      rw [textLines]
      split
      · exact Nat.succ_le_succ ih
      · split
        · simp
        · rename_i line lines hlines
          rw [hlines] at ih
          simp only [List.length_cons] at ih ⊢
          omega

/-- A file is empty, or it is a line and what follows its newline, or a line
without one. -/
theorem file_cases (file : List UInt8) :
    file = [] ∨
      ∃ line, NEWLINE ∉ line ∧
        ((∃ rest, file = line ++ NEWLINE :: rest) ∨ line ≠ [] ∧ file = line) := by
  obtain ⟨line, hline, hsplit⟩ := Scan.exists_stop (· ≠ NEWLINE) file
  have hnewline : NEWLINE ∉ line := fun hmem => by simpa using hline _ hmem
  rcases hsplit with rfl | ⟨stop, rest, hstop, rfl⟩
  · by_cases hne : file = []
    · exact .inl hne
    · exact .inr ⟨file, hnewline, .inr ⟨hne, rfl⟩⟩
  · obtain rfl : stop = NEWLINE := by simpa using hstop
    exact .inr ⟨line, hnewline, .inl ⟨rest, rfl⟩⟩

theorem fgetsLine_short {line : List UInt8} (hline : NEWLINE ∉ line) {room : Nat}
    (hroom : line.length < room) : fgetsLine room line = (line, []) := by
  induction line generalizing room with
  | nil =>
      obtain ⟨room, rfl⟩ := Nat.exists_eq_succ_of_ne_zero (by omega : room ≠ 0)
      rfl
  | cons c line ih =>
      obtain ⟨room, rfl⟩ := Nat.exists_eq_succ_of_ne_zero (by omega : room ≠ 0)
      simp only [List.mem_cons, not_or] at hline
      have hrest := ih hline.2 (Nat.lt_of_succ_lt_succ hroom)
      simp [fgetsLine, Ne.symm hline.1, hrest]

/-- `fgets` reads the first line of a file, if it fits. -/
theorem fgets_textLines {file line : List UInt8} {lines : List (List UInt8)}
    (hlines : textLines file = line :: lines)
    (hfits : line.length < MAX_LINE_LEN - 1) :
    ∃ ending rest, fgets MAX_LINE_LEN file = some (line ++ ending, rest) ∧
      (ending = [] ∨ ending = [NEWLINE]) ∧ textLines rest = lines := by
  rcases file_cases file with rfl | ⟨front, hfront, ⟨rest, rfl⟩ | ⟨hne, rfl⟩⟩
  · cases hlines
  · rw [textLines_append_newline hfront] at hlines
    obtain ⟨rfl, rfl⟩ := List.cons.inj hlines
    refine ⟨[NEWLINE], rest, ?_, .inr rfl, rfl⟩
    rw [fgets, if_neg (by simp), fgetsLine_append hfront hfits]
  · rw [textLines_singleton hfront hne] at hlines
    obtain ⟨rfl, rfl⟩ := List.cons.inj hlines
    refine ⟨[], [], ?_, .inl rfl, rfl⟩
    rw [fgets, if_neg hne, fgetsLine_short hfront hfits, List.append_nil]

/-! ### What a line gives -/

/-- The text of a line between its margins. -/
def lineText (line : List UInt8) : List UInt8 :=
  ltrim (rtrim line)

/-- The section a header gives. -/
def headerOf (line : List UInt8) : Option (List UInt8) :=
  match lineText line with
  | [] => none
  | c :: rest =>
      if c = OPEN_BRACKET then
        (strchr rest CLOSE_BRACKET).map fun found =>
          found.1.take (MAX_SECTION_LEN - 1)
      else none

/-- What stands before the separator of a text and behind it. -/
def separate (text : List UInt8) : Option (List UInt8 × List UInt8) :=
  (strchr text ASSIGN).or (strchr text COLON)

/-- The name and the value a pair gives to the callback. -/
def pairOf (line : List UInt8) : Option (List UInt8 × List UInt8) :=
  match lineText line with
  | [] => none
  | c :: rest =>
      if c = SEMICOLON ∨ c = HASH ∨ c = OPEN_BRACKET then none
      else
        (separate (c :: rest)).map fun found =>
          (rtrim found.1, rtrim (removeComment (ltrim found.2)))

/-- A line without text, or a comment. -/
def Skipped (line : List UInt8) : Prop :=
  lineText line = [] ∨ (lineText line).head? = some SEMICOLON ∨
    (lineText line).head? = some HASH

/-- A header without a bracket at its end. -/
def UnclosedHeader (line : List UInt8) : Prop :=
  (lineText line).head? = some OPEN_BRACKET ∧ CLOSE_BRACKET ∉ (lineText line).tail

/-- A text that begins like a name and has no separator. -/
def NoSeparator (line : List UInt8) : Prop :=
  ¬ Skipped line ∧ (lineText line).head? ≠ some OPEN_BRACKET ∧
    ASSIGN ∉ lineText line ∧ COLON ∉ lineText line

namespace IniParser

variable (cb : IniCB) (s : IniParser) {line : List UInt8}

theorem line_skipped (hline : Skipped line) :
    s.line cb line = some (s, none) := by
  rcases hline with htext | hhead | hhead
  · exact line_blank htext
  · obtain ⟨rest, htext⟩ := List.head?_eq_some_iff.mp hhead
    exact line_comment (.inl rfl) htext
  · obtain ⟨rest, htext⟩ := List.head?_eq_some_iff.mp hhead
    exact line_comment (.inr rfl) htext

theorem line_headerOf {name : List UInt8} (hline : headerOf line = some name) :
    s.line cb line = some ({ s with section_ := name }, none) := by
  unfold headerOf at hline
  split at hline
  · cases hline
  · rename_i c rest htext
    split at hline
    · rename_i hopen
      subst hopen
      obtain ⟨found, hfound, rfl⟩ := Option.map_eq_some_iff.mp hline
      have hmark : ¬(OPEN_BRACKET = SEMICOLON ∨ OPEN_BRACKET = HASH) := by decide
      rw [lineText] at htext
      simp [IniParser.line, htext, hmark, hfound]
    · cases hline

theorem line_unclosedHeader (hline : UnclosedHeader line) :
    s.line cb line = none := by
  obtain ⟨hhead, hclose⟩ := hline
  obtain ⟨rest, htext⟩ := List.head?_eq_some_iff.mp hhead
  rw [htext, List.tail_cons] at hclose
  have hmark : ¬(OPEN_BRACKET = SEMICOLON ∨ OPEN_BRACKET = HASH) := by decide
  rw [lineText] at htext
  simp [IniParser.line, htext, hmark, strchr_of_not_mem hclose]

theorem line_pairOf {name value : List UInt8}
    (hline : pairOf line = some (name, value)) :
    s.line cb line =
      some ({ s with calls := s.calls ++ [⟨s.section_, name, value⟩] },
        if cb s.calls ⟨s.section_, name, value⟩ < 0 then
          some "handler is failed." else none) := by
  unfold pairOf at hline
  split at hline
  · cases hline
  · rename_i c rest htext
    split at hline
    · cases hline
    · rename_i hmark
      obtain ⟨found, hfound, heq⟩ := Option.map_eq_some_iff.mp hline
      obtain ⟨rfl, rfl⟩ := Prod.mk.inj heq
      simp only [not_or] at hmark
      rw [separate] at hfound
      rw [lineText] at htext
      simp [IniParser.line, htext, hmark, hfound]

/-- The newline of a line does not change what a pass makes of it. -/
theorem line_ending {ending : List UInt8}
    (hending : ending = [] ∨ ending = [NEWLINE]) :
    s.line cb (line ++ ending) = s.line cb line := by
  have hblank : ∀ c ∈ ending, ISSPACE c = true := by
    rcases hending with rfl | rfl <;> simp [ISSPACE, NEWLINE]
  rw [IniParser.line, IniParser.line, rtrim_append line hblank]

theorem line_noSeparator (hline : NoSeparator line) :
    s.line cb line = some (s, some "cannot find '=:' for value.") := by
  obtain ⟨hskipped, hopen, hassign, hcolon⟩ := hline
  simp only [Skipped, not_or] at hskipped
  cases htext : lineText line with
  | nil => exact absurd htext hskipped.1
  | cons c rest =>
      simp only [htext, List.head?_cons, ne_eq, Option.some.injEq] at hskipped hopen
      rw [htext] at hassign hcolon
      rw [lineText] at htext
      simp [IniParser.line, htext, hskipped, hopen, strchr_of_not_mem hassign,
        strchr_of_not_mem hcolon]

end IniParser

theorem separate_eq_none_iff {text : List UInt8} :
    separate text = none ↔ ASSIGN ∉ text ∧ COLON ∉ text := by
  simp [separate, strchr]

/-- The kinds of lines. -/
theorem line_cases (line : List UInt8) :
    Skipped line ∨ (∃ name, headerOf line = some name) ∨ UnclosedHeader line ∨
      (∃ name value, pairOf line = some (name, value)) ∨ NoSeparator line := by
  by_cases hskipped : Skipped line
  · exact .inl hskipped
  have hnot := hskipped
  simp only [Skipped, not_or] at hnot
  refine .inr ?_
  cases htext : lineText line with
  | nil => exact absurd htext hnot.1
  | cons c rest =>
      simp only [htext, List.head?_cons, Option.some.injEq] at hnot
      by_cases hopen : c = OPEN_BRACKET
      · subst hopen
        by_cases hclose : CLOSE_BRACKET ∈ rest
        · refine .inl ⟨(rest.takeWhile (· ≠ CLOSE_BRACKET)).take
            (MAX_SECTION_LEN - 1), ?_⟩
          simp only [headerOf, htext, ↓reduceIte, strchr, if_pos hclose,
            Option.map_some]
        · exact .inr (.inl ⟨by rw [htext]; rfl, by rw [htext]; exact hclose⟩)
      · cases hseparate : separate (c :: rest) with
        | none =>
            obtain ⟨hassign, hcolon⟩ := separate_eq_none_iff.mp hseparate
            refine .inr (.inr (.inr ⟨hskipped, ?_, ?_, ?_⟩))
            · simpa [htext] using hopen
            · rwa [htext]
            · rwa [htext]
        | some found =>
            refine .inr (.inr (.inl ⟨rtrim found.1,
              rtrim (removeComment (ltrim found.2)), ?_⟩))
            simp only [pairOf, htext, hnot, hopen, or_self, ↓reduceIte,
              hseparate, Option.map_some]

theorem headerOf_head {line name : List UInt8}
    (hline : headerOf line = some name) :
    (lineText line).head? = some OPEN_BRACKET ∧
      CLOSE_BRACKET ∈ (lineText line).tail := by
  unfold headerOf at hline
  split at hline
  · cases hline
  · rename_i c rest htext
    split at hline
    · rename_i hopen
      obtain ⟨found, hfound, -⟩ := Option.map_eq_some_iff.mp hline
      rw [htext, hopen]
      refine ⟨rfl, ?_⟩
      by_contra hclose
      rw [strchr_of_not_mem (by simpa using hclose)] at hfound
      cases hfound
    · cases hline

theorem pairOf_head {line : List UInt8} {pair : List UInt8 × List UInt8}
    (hline : pairOf line = some pair) :
    ¬ Skipped line ∧ (lineText line).head? ≠ some OPEN_BRACKET ∧
      (separate (lineText line)).isSome := by
  unfold pairOf at hline
  split at hline
  · cases hline
  · rename_i c rest htext
    split at hline
    · cases hline
    · rename_i hmark
      obtain ⟨found, hfound, -⟩ := Option.map_eq_some_iff.mp hline
      simp only [not_or] at hmark
      simp [Skipped, htext, hmark, hfound]

theorem not_skipped_of_open {line : List UInt8}
    (hhead : (lineText line).head? = some OPEN_BRACKET) : ¬ Skipped line := by
  rintro (htext | hmark | hmark)
  · simp [htext] at hhead
  · rw [hmark] at hhead
    cases hhead
  · rw [hmark] at hhead
    cases hhead

/-- A skipped line gives nothing. -/
theorem Skipped.gives_none {line : List UInt8} (hline : Skipped line) :
    headerOf line = none ∧ pairOf line = none := by
  exact ⟨Option.eq_none_iff_forall_not_mem.mpr fun name hname =>
      not_skipped_of_open (headerOf_head hname).1 hline,
    Option.eq_none_iff_forall_not_mem.mpr fun pair hpair =>
      (pairOf_head hpair).1 hline⟩

theorem headerOf_of_pairOf {line : List UInt8} {pair : List UInt8 × List UInt8}
    (hline : pairOf line = some pair) : headerOf line = none :=
  Option.eq_none_iff_forall_not_mem.mpr fun _ hname =>
    (pairOf_head hline).2.1 (headerOf_head hname).1

theorem pairOf_of_headerOf {line name : List UInt8}
    (hline : headerOf line = some name) : pairOf line = none :=
  Option.eq_none_iff_forall_not_mem.mpr fun _ hpair =>
    (pairOf_head hpair).2.1 (headerOf_head hline).1

theorem NoSeparator.gives_none {line : List UInt8} (hline : NoSeparator line) :
    headerOf line = none ∧ pairOf line = none := by
  refine ⟨Option.eq_none_iff_forall_not_mem.mpr fun name hname =>
      hline.2.1 (headerOf_head hname).1,
    Option.eq_none_iff_forall_not_mem.mpr fun pair hpair => ?_⟩
  have hsome := (pairOf_head hpair).2.2
  rw [separate_eq_none_iff.mpr hline.2.2] at hsome
  cases hsome

theorem UnclosedHeader.gives_none {line : List UInt8}
    (hline : UnclosedHeader line) :
    ¬ Skipped line ∧ headerOf line = none ∧ pairOf line = none := by
  exact ⟨not_skipped_of_open hline.1,
    Option.eq_none_iff_forall_not_mem.mpr fun name hname =>
      hline.2 (headerOf_head hname).2,
    Option.eq_none_iff_forall_not_mem.mpr fun pair hpair =>
      (pairOf_head hpair).2.1 hline.1⟩

/-! ### Comments behind a value -/

/-- What stands behind the first separator of a line: `=` if it has one, and
otherwise `:`. -/
def afterSeparator (line : List UInt8) : List UInt8 :=
  ((separate line).map Prod.snd).getD []

/-- A byte that begins a comment. -/
def isMark (c : UInt8) : Bool :=
  c = HASH || c = SEMICOLON

/-- The value of a pair by position: from the separator to the first mark of a
comment, whichever it is, without white space around it. -/
def positionalValue (line : List UInt8) : List UInt8 :=
  rtrim (ltrim ((afterSeparator line).takeWhile fun c => !isMark c))

/-- No `;` stands between the separator and the first `#` behind it. -/
def HashFirst (line : List UInt8) : Prop :=
  ∀ front back, afterSeparator line = front ++ HASH :: back → HASH ∉ front →
    SEMICOLON ∉ front

/-- The value the callback is given for the text behind a separator. -/
def cutValue (after : List UInt8) : List UInt8 :=
  rtrim (removeComment (ltrim (rtrim after)))

theorem cutValue_hash {front : List UInt8} (hfront : HASH ∉ front)
    (back : List UInt8) :
    cutValue (front ++ HASH :: back) = rtrim (ltrim front) := by
  have hspace : ISSPACE HASH = false := rfl
  have hmem : HASH ∉ ltrim front := fun h => hfront ((mem_ltrim hspace).mp h)
  rw [cutValue, rtrim_stop front hspace, ltrim_append_cons front hspace,
    removeComment, strchr_append hmem]
  rfl

theorem cutValue_semicolon {front back : List UInt8}
    (hhash : HASH ∉ front ++ SEMICOLON :: back) (hfront : SEMICOLON ∉ front) :
    cutValue (front ++ SEMICOLON :: back) = rtrim (ltrim front) := by
  have hspace : ISSPACE SEMICOLON = false := rfl
  have hmem : SEMICOLON ∉ ltrim front :=
    fun h => hfront ((mem_ltrim hspace).mp h)
  have hnone : HASH ∉ ltrim (rtrim (front ++ SEMICOLON :: back)) :=
    fun h => hhash ((mem_rtrim rfl).mp ((mem_ltrim rfl).mp h))
  rw [cutValue, removeComment, strchr_of_not_mem hnone, rtrim_stop front hspace,
    ltrim_append_cons front hspace, strchr_append hmem]
  rfl

theorem cutValue_plain {after : List UInt8} (hhash : HASH ∉ after)
    (hsemicolon : SEMICOLON ∉ after) :
    cutValue after = rtrim (ltrim after) := by
  rw [cutValue, removeComment_eq_self, rtrim_ltrim_rtrim]
  · exact fun h => hhash ((mem_rtrim rfl).mp ((mem_ltrim rfl).mp h))
  · exact fun h => hsemicolon ((mem_rtrim rfl).mp ((mem_ltrim rfl).mp h))

/-- The text that the parser separates is the trimmed line. -/
theorem separate_lineText (line : List UInt8) :
    separate (lineText line) =
      (separate line).map fun found => (ltrim found.1, rtrim found.2) := by
  have hfind (c : UInt8) (hc : ISSPACE c = false) :
      strchr (lineText line) c =
        (strchr line c).map fun found => (ltrim found.1, rtrim found.2) := by
    rcases strchr_cases line c with ⟨hnone, heq⟩ |
      ⟨front, back, hfront, rfl, heq⟩
    · rw [heq, strchr_of_not_mem]
      · rfl
      · exact fun h => hnone ((mem_rtrim hc).mp ((mem_ltrim hc).mp h))
    · rw [heq, lineText, rtrim_stop front hc, ltrim_append_cons front hc,
        strchr_append fun h => hfront ((mem_ltrim hc).mp h)]
      rfl
  rw [separate, separate, hfind ASSIGN rfl, hfind COLON rfl]
  cases strchr line ASSIGN <;> rfl

theorem pairOf_value {line name value : List UInt8}
    (hline : pairOf line = some (name, value)) :
    value = cutValue (afterSeparator line) := by
  unfold pairOf at hline
  split at hline
  · cases hline
  · rename_i c rest htext
    split at hline
    · cases hline
    · rw [← htext, separate_lineText, Option.map_map] at hline
      obtain ⟨found, hfound, heq⟩ := Option.map_eq_some_iff.mp hline
      rw [afterSeparator, hfound]
      exact (Prod.mk.inj heq).2.symm

theorem takeWhile_not_mark {front : List UInt8} {mark : UInt8}
    (hhash : HASH ∉ front) (hsemicolon : SEMICOLON ∉ front)
    (hmark : isMark mark = true) (back : List UInt8) :
    (front ++ mark :: back).takeWhile (fun c => !isMark c) = front := by
  refine Scan.takeWhile_stop (fun c hc => ?_) (by simp [hmark]) back
  have hne : c ≠ HASH ∧ c ≠ SEMICOLON :=
    ⟨fun h => hhash (h ▸ hc), fun h => hsemicolon (h ▸ hc)⟩
  simp [isMark, hne]

theorem not_mem_positionalValue {line : List UInt8} {mark : UInt8}
    (hmark : isMark mark = true) : mark ∉ positionalValue line := by
  intro hmem
  have hin := (List.rdropWhile_prefix ISSPACE _).subset hmem
  have hin := (List.dropWhile_sublist ISSPACE).subset hin
  have hnot := List.mem_takeWhile_imp hin
  simp [hmark] at hnot

/-- The value that the parser cuts is the one by position exactly if no `;`
stands before the first `#`. -/
theorem cutValue_eq_positionalValue_iff (line : List UInt8) :
    cutValue (afterSeparator line) = positionalValue line ↔ HashFirst line := by
  unfold HashFirst
  rcases strchr_cases (afterSeparator line) HASH with ⟨hhash, -⟩ |
    ⟨front, back, hfront, hafter, -⟩
  · have hall : ∀ front back, afterSeparator line = front ++ HASH :: back →
        HASH ∉ front → SEMICOLON ∉ front := by
      intro front back hafter
      exact absurd (hafter ▸ List.mem_append_right front List.mem_cons_self) hhash
    refine iff_of_true ?_ hall
    rw [positionalValue]
    rcases strchr_cases (afterSeparator line) SEMICOLON with ⟨hsemicolon, -⟩ |
      ⟨front, back, hfront, hafter, -⟩
    · rw [cutValue_plain hhash hsemicolon, List.takeWhile_eq_self_iff.mpr]
      intro c hc
      have hne : c ≠ HASH ∧ c ≠ SEMICOLON :=
        ⟨fun h => hhash (h ▸ hc), fun h => hsemicolon (h ▸ hc)⟩
      simp [isMark, hne]
    · rw [hafter] at hhash ⊢
      rw [cutValue_semicolon hhash hfront, takeWhile_not_mark
        (fun h => hhash (List.mem_append_left _ h)) hfront rfl]
  · constructor
    · intro heq front' back' hafter' hfront' hmem
      obtain ⟨rfl, rfl⟩ : front' = front ∧ back' = back := by
        have hfind := strchr_append hfront' back'
        rw [← hafter', hafter, strchr_append hfront back] at hfind
        simpa [eq_comm] using hfind
      have hin : SEMICOLON ∈ cutValue (afterSeparator line) := by
        rw [hafter, cutValue_hash hfront]
        exact (mem_rtrim rfl).mpr ((mem_ltrim rfl).mpr hmem)
      rw [heq] at hin
      exact not_mem_positionalValue rfl hin
    · intro hhashFirst
      have hsemicolon := hhashFirst front back hafter hfront
      rw [positionalValue, hafter, cutValue_hash hfront,
        takeWhile_not_mark hfront hsemicolon rfl]

/-- A line whose pass makes a call gives a pair. -/
theorem IniParser.pairOf_of_call {cb : IniCB} {s t : IniParser}
    {errmsg : Option String} {line : List UInt8} {call : IniCall}
    (hpass : s.line cb line = some (t, errmsg))
    (hcall : t.calls = s.calls ++ [call]) :
    pairOf line = some (call.name, call.value) := by
  have hcalls (u : IniParser) (hu : u.calls = s.calls) : u ≠ t := by
    rintro rfl
    simp [hu] at hcall
  rcases line_cases line with hline | ⟨name, hline⟩ | hline |
    ⟨name, value, hline⟩ | hline
  · rw [s.line_skipped cb hline] at hpass
    exact absurd (Prod.mk.inj (Option.some.inj hpass)).1 (hcalls s rfl)
  · rw [s.line_headerOf cb hline] at hpass
    exact absurd (Prod.mk.inj (Option.some.inj hpass)).1 (hcalls _ rfl)
  · rw [s.line_unclosedHeader cb hline] at hpass
    cases hpass
  · rw [s.line_pairOf cb hline] at hpass
    obtain ⟨rfl, -⟩ := Prod.mk.inj (Option.some.inj hpass)
    obtain rfl : ⟨s.section_, name, value⟩ = call := by simpa using hcall
    exact hline
  · rw [s.line_noSeparator cb hline] at hpass
    exact absurd (Prod.mk.inj (Option.some.inj hpass)).1 (hcalls s rfl)

/-- The value that the pass over the first line of `file` gives to the callback
is the one by position, and holds no mark of a comment, exactly if no `;` stands
before the first `#` behind the separator. -/
theorem IniParser.value_positional_iff (cb : IniCB) (s t : IniParser)
    (errmsg : Option String) {file line stored rest : List UInt8}
    {lines : List (List UInt8)} {call : IniCall}
    (hline : textLines file = line :: lines) (hshort : line.length < 1023)
    (hnul : 0 ∉ line) (hfgets : fgets MAX_LINE_LEN file = some (stored, rest))
    (hpass : s.line cb (CString.ofMemory (stored ++ [0])).bytes =
      some (t, errmsg))
    (hcall : t.calls = s.calls ++ [call]) :
    (call.value = positionalValue line ∧ HASH ∉ call.value ∧
      SEMICOLON ∉ call.value) ↔ HashFirst line := by
  obtain ⟨ending, rest', hread, hending, -⟩ := fgets_textLines hline hshort
  obtain ⟨rfl, rfl⟩ : stored = line ++ ending ∧ rest = rest' := by
    rw [hread] at hfgets
    simpa [eq_comm] using hfgets
  have hzero : 0 ∉ line ++ ending := by
    rcases hending with rfl | rfl <;> simp [hnul, NEWLINE]
  rw [ofMemory_bytes hzero, s.line_ending cb hending] at hpass
  have hpair := pairOf_value (IniParser.pairOf_of_call hpass hcall)
  rw [hpair, ← cutValue_eq_positionalValue_iff]
  constructor
  · exact fun h => h.1
  · intro heq
    rw [heq]
    exact ⟨rfl, not_mem_positionalValue rfl, not_mem_positionalValue rfl⟩

/-- The file `a=b#c`. -/
theorem IniParser.value_positional_iff_hash :
    positionalValue [97, 61, 98, 35, 99] = [98] ∧
      HashFirst [97, 61, 98, 35, 99] := by
  have hline : textLines [97, 61, 98, 35, 99] = [[97, 61, 98, 35, 99]] := by
    decide
  have hfgets : fgets MAX_LINE_LEN [97, 61, 98, 35, 99] =
      some ([97, 61, 98, 35, 99], []) := by decide
  have hpass : IniParser.line (fun _ _ => 0) ⟨[], []⟩
      (CString.ofMemory ([97, 61, 98, 35, 99] ++ [0])).bytes =
        some (⟨[], [⟨[], [97], [98]⟩]⟩, none) := by decide
  exact ⟨by decide, (IniParser.value_positional_iff (fun _ _ => 0) ⟨[], []⟩
    ⟨[], [⟨[], [97], [98]⟩]⟩ none hline (by decide) (by decide) hfgets hpass
    rfl).mp ⟨by decide, by decide, by decide⟩⟩

/-- The file `a=b;c#d`: the `#` is cut, and the `;` before it is not. -/
theorem semicolonFirst_not_cut :
    parseIni (fun _ _ => 0) [97, 61, 98, 59, 99, 35, 100] =
        some ⟨0, none, [⟨[], [97], [98, 59, 99]⟩]⟩ ∧
      positionalValue [97, 61, 98, 59, 99, 35, 100] = [98] ∧
      SEMICOLON ∈ [98, 59, 99] := by
  decide

end MyDirectFB

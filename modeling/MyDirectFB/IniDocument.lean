/-
Ini documents and their texts.  A text may have white space around every header,
name and value, and blank lines and comments anywhere; parsing it calls the
callback with the pairs of the document in their order.
-/
import MyDirectFB.Ini

namespace MyDirectFB

/-! ### Documents -/

structure SectionName where
  bytes : List UInt8
  chars : ∀ c ∈ bytes, c ≠ 0 ∧ c ≠ NEWLINE ∧ c ≠ CLOSE_BRACKET
  length_lt : bytes.length < MAX_SECTION_LEN

structure PairName where
  bytes : List UInt8
  ne_nil : bytes ≠ []
  chars : ∀ c ∈ bytes, c ≠ 0 ∧ c ≠ NEWLINE ∧ c ≠ ASSIGN
  trimmed : Trimmed bytes
  start : ∀ c, bytes.head? = some c →
    c ≠ SEMICOLON ∧ c ≠ HASH ∧ c ≠ OPEN_BRACKET

structure PairValue where
  bytes : List UInt8
  chars : ∀ c ∈ bytes, c ≠ 0 ∧ c ≠ NEWLINE ∧ c ≠ HASH ∧ c ≠ SEMICOLON
  trimmed : Trimmed bytes

/-- Pairs without a section, and then sections with their pairs. -/
structure IniDocument where
  pairs : List (PairName × PairValue)
  sections : List (SectionName × List (PairName × PairValue))

/-- What a line of a text says. -/
inductive IniItem where
  | header (name : SectionName)
  | pair (name : PairName) (value : PairValue)

def pairItems (pairs : List (PairName × PairValue)) : List IniItem :=
  pairs.map fun pair => .pair pair.1 pair.2

def pairCalls (section_ : List UInt8) (pairs : List (PairName × PairValue)) :
    List IniCall :=
  pairs.map fun pair => ⟨section_, pair.1.bytes, pair.2.bytes⟩

namespace IniDocument

def items (doc : IniDocument) : List IniItem :=
  pairItems doc.pairs ++
    doc.sections.flatMap fun entry => .header entry.1 :: pairItems entry.2

/-- The triples of section, name and value. -/
def triples (doc : IniDocument) : List IniCall :=
  pairCalls [] doc.pairs ++
    doc.sections.flatMap fun entry => pairCalls entry.1.bytes entry.2

end IniDocument

/-! ### Texts -/

/-- White space inside a line. -/
structure Margin where
  bytes : List UInt8
  chars : ∀ c ∈ bytes, ISSPACE c = true ∧ c ≠ NEWLINE

inductive IniLine where
  | blank (margin : Margin)
  | comment (margin : Margin) (mark : UInt8) (body : List UInt8)
      (isMark : mark = SEMICOLON ∨ mark = HASH) (oneLine : NEWLINE ∉ body)
  | header (before : Margin) (name : SectionName) (after : Margin)
  | pair (before : Margin) (name : PairName) (beforeAssign afterAssign : Margin)
      (value : PairValue) (after : Margin)

namespace IniLine

/-- A line without its newline. -/
def body : IniLine → List UInt8
  | .blank margin => margin.bytes
  | .comment margin mark body _ _ => margin.bytes ++ mark :: body
  | .header before name after =>
      before.bytes ++
        OPEN_BRACKET :: (name.bytes ++ CLOSE_BRACKET :: after.bytes)
  | .pair before name beforeAssign afterAssign value after =>
      before.bytes ++ (name.bytes ++ (beforeAssign.bytes ++
        ASSIGN :: (afterAssign.bytes ++ (value.bytes ++ after.bytes))))

def text (line : IniLine) : List UInt8 :=
  line.body ++ [NEWLINE]

def item : IniLine → Option IniItem
  | .blank _ => none
  | .comment .. => none
  | .header _ name _ => some (.header name)
  | .pair _ name _ _ value _ => some (.pair name value)

end IniLine

/-- The lines are those of the document, with blank lines and comments between
them, and fit into the buffer. -/
structure IniDocument.Written (doc : IniDocument) (lines : List IniLine) :
    Prop where
  items : lines.filterMap IniLine.item = doc.items
  fits : ∀ line ∈ lines, line.text.length < MAX_LINE_LEN

def IniParser.read (s : IniParser) : IniItem → IniParser
  | .header name => { s with section_ := name.bytes }
  | .pair name value =>
      { s with calls := s.calls ++ [⟨s.section_, name.bytes, value.bytes⟩] }

/-! ### Lines in the file and in the buffer -/

namespace Margin

theorem isspace (margin : Margin) : ∀ c ∈ margin.bytes, ISSPACE c = true :=
  fun c hc => (margin.chars c hc).1

theorem isspace_newline (margin : Margin) :
    ∀ c ∈ margin.bytes ++ [NEWLINE], ISSPACE c = true := by
  intro c hc
  rcases List.mem_append.mp hc with hc | hc
  · exact margin.isspace c hc
  · obtain rfl := List.mem_singleton.mp hc
    rfl

theorem not_mem (margin : Margin) {c : UInt8} (hc : ISSPACE c = false) :
    c ∉ margin.bytes := by
  intro hmem
  rw [margin.isspace c hmem] at hc
  exact Bool.noConfusion hc

theorem zero_not_mem (margin : Margin) : 0 ∉ margin.bytes :=
  margin.not_mem rfl

theorem newline_not_mem (margin : Margin) : NEWLINE ∉ margin.bytes :=
  fun hmem => (margin.chars NEWLINE hmem).2 rfl

end Margin

theorem isspace_of_mark {mark : UInt8}
    (hmark : mark = SEMICOLON ∨ mark = HASH) : ISSPACE mark = false := by
  rcases hmark with rfl | rfl <;> rfl

theorem newline_ne_of_not_isspace {c : UInt8} (hc : ISSPACE c = false) :
    NEWLINE ≠ c := by
  rintro rfl
  exact Bool.noConfusion hc

theorem IniLine.newline_not_mem_body (line : IniLine) :
    NEWLINE ∉ line.body := by
  cases line with
  | blank margin => exact margin.newline_not_mem
  | comment margin mark body isMark oneLine =>
      have hmark := newline_ne_of_not_isspace (isspace_of_mark isMark)
      simp [IniLine.body, margin.newline_not_mem, hmark, oneLine]
  | header before name after =>
      have hname : NEWLINE ∉ name.bytes :=
        fun hmem => (name.chars NEWLINE hmem).2.1 rfl
      have hopen : NEWLINE ≠ OPEN_BRACKET := by decide
      have hclose : NEWLINE ≠ CLOSE_BRACKET := by decide
      simp [body, before.newline_not_mem, after.newline_not_mem, hname, hopen,
        hclose]
  | pair before name beforeAssign afterAssign value after =>
      have hname : NEWLINE ∉ name.bytes :=
        fun hmem => (name.chars NEWLINE hmem).2.1 rfl
      have hvalue : NEWLINE ∉ value.bytes :=
        fun hmem => (value.chars NEWLINE hmem).2.1 rfl
      have hassign : NEWLINE ≠ ASSIGN := by decide
      simp [body, Margin.newline_not_mem, hname, hvalue, hassign]

theorem fgetsLine_append {body : List UInt8} (hbody : NEWLINE ∉ body)
    {room : Nat} (hroom : body.length < room) (rest : List UInt8) :
    fgetsLine room (body ++ NEWLINE :: rest) = (body ++ [NEWLINE], rest) := by
  induction body generalizing room with
  | nil =>
      obtain ⟨room, rfl⟩ := Nat.exists_eq_add_of_lt hroom
      simp [fgetsLine]
  | cons c body ih =>
      obtain ⟨room, rfl⟩ := Nat.exists_eq_succ_of_ne_zero (by omega : room ≠ 0)
      simp only [List.mem_cons, not_or] at hbody
      have hrest := ih hbody.2 (Nat.lt_of_succ_lt_succ hroom)
      simp [fgetsLine, Ne.symm hbody.1, hrest]

theorem fgets_text (line : IniLine) (hfits : line.text.length < MAX_LINE_LEN)
    (rest : List UInt8) :
    fgets MAX_LINE_LEN (line.text ++ rest) = some (line.text, rest) := by
  have hroom : line.body.length < MAX_LINE_LEN - 1 := by
    simp only [IniLine.text, List.length_append, List.length_singleton] at hfits
    omega
  have hline := fgetsLine_append line.newline_not_mem_body hroom rest
  simp [fgets, IniLine.text, hline]

/-! ### A line -/

theorem ofMemory_bytes {str : List UInt8} (hstr : 0 ∉ str) :
    (CString.ofMemory (str ++ [0])).bytes = str := by
  rw [CString.ofMemory_append ⟨str, hstr⟩]

theorem removeComment_eq_self {value : List UInt8} (hhash : HASH ∉ value)
    (hsemicolon : SEMICOLON ∉ value) : removeComment value = value := by
  simp [removeComment, strchr_of_not_mem hhash, strchr_of_not_mem hsemicolon]

/-- A margin and the end of a line do not hide what is between them. -/
theorem Margin.ltrim_rtrim (margin : Margin) {c : UInt8}
    (hc : ISSPACE c = false) (rest : List UInt8) :
    ltrim (rtrim (margin.bytes ++ c :: rest)) = c :: rtrim rest := by
  rw [rtrim_stop margin.bytes hc, ltrim_append margin.isspace, ltrim_cons hc]

namespace IniParser

variable {cb : IniCB} {s : IniParser} {start : List UInt8}

theorem line_blank (hstart : ltrim (rtrim start) = []) :
    s.line cb start = some (s, none) := by
  simp [line, hstart]

theorem line_comment {mark : UInt8} {rest : List UInt8}
    (hmark : mark = SEMICOLON ∨ mark = HASH)
    (hstart : ltrim (rtrim start) = mark :: rest) :
    s.line cb start = some (s, none) := by
  simp [line, hstart, hmark]

theorem line_header {name after : List UInt8} (hname : CLOSE_BRACKET ∉ name)
    (hstart : ltrim (rtrim start) =
      OPEN_BRACKET :: (name ++ CLOSE_BRACKET :: after)) :
    s.line cb start =
      some ({ s with section_ := name.take (MAX_SECTION_LEN - 1) }, none) := by
  have hmark : ¬(OPEN_BRACKET = SEMICOLON ∨ OPEN_BRACKET = HASH) := by decide
  simp [line, hstart, hmark, strchr_append hname after]

/-- The call of a line that gives a value. -/
def callOf (s : IniParser) (before after : List UInt8) : IniCall :=
  ⟨s.section_, rtrim before, rtrim (removeComment (ltrim after))⟩

theorem line_pair {before after : List UInt8} (hassign : ASSIGN ∉ before)
    (hhead : ∃ c, before.head? = some c ∧
      c ≠ SEMICOLON ∧ c ≠ HASH ∧ c ≠ OPEN_BRACKET)
    (hcb : 0 ≤ cb s.calls (s.callOf before after))
    (hstart : ltrim (rtrim start) = before ++ ASSIGN :: after) :
    s.line cb start =
      some ({ s with calls := s.calls ++ [s.callOf before after] }, none) := by
  obtain ⟨c, hc, hsemicolon, hhash, hopen⟩ := hhead
  obtain ⟨rest, rfl⟩ := List.head?_eq_some_iff.mp hc
  have hstrchr := strchr_append hassign after
  rw [List.cons_append] at hstart hstrchr
  have hok : ¬cb s.calls (s.callOf (c :: rest) after) < 0 :=
    Int.not_lt.mpr hcb
  simp only [callOf] at hok
  simp [line, hstart, hsemicolon, hhash, hopen, hstrchr, hok, callOf]

end IniParser

theorem SectionName.take (name : SectionName) :
    name.bytes.take (MAX_SECTION_LEN - 1) = name.bytes :=
  List.take_of_length_le (Nat.le_sub_one_of_lt name.length_lt)

theorem PairValue.removeComment (value : PairValue) :
    removeComment value.bytes = value.bytes := by
  apply removeComment_eq_self
  · exact fun hmem => (value.chars HASH hmem).2.2.1 rfl
  · exact fun hmem => (value.chars SEMICOLON hmem).2.2.2 rfl

/-- The text of a pair between its margins, as the parser cuts it. -/
theorem IniParser.callOf_pair (s : IniParser) (name : PairName)
    (beforeAssign afterAssign : Margin) (value : PairValue) (after : Margin) :
    s.callOf (name.bytes ++ beforeAssign.bytes)
        (rtrim (afterAssign.bytes ++
          (value.bytes ++ (after.bytes ++ [NEWLINE])))) =
      ⟨s.section_, name.bytes, value.bytes⟩ := by
  have hname : rtrim (name.bytes ++ beforeAssign.bytes) = name.bytes := by
    rw [rtrim_append _ beforeAssign.isspace, rtrim_eq_self name.trimmed.last]
  have hvalue := value.trimmed.ltrim_rtrim afterAssign.isspace
    after.isspace_newline
  rw [IniParser.callOf, hname, hvalue, value.removeComment,
    rtrim_eq_self value.trimmed.last]

theorem ltrim_rtrim_pair (before : Margin) (name : PairName)
    (beforeAssign : Margin) (rest : List UInt8) :
    ltrim (rtrim (before.bytes ++ (name.bytes ++ (beforeAssign.bytes ++
        ASSIGN :: rest)))) =
      (name.bytes ++ beforeAssign.bytes) ++ ASSIGN :: rtrim rest := by
  have hstop := rtrim_stop (before.bytes ++ (name.bytes ++ beforeAssign.bytes))
    (by decide : ISSPACE ASSIGN = false) rest
  simp only [List.append_assoc] at hstop
  rw [hstop, ltrim_append before.isspace, ltrim_eq_self, List.append_assoc]
  intro c hc
  apply name.trimmed.head c
  obtain ⟨d, tail, hname⟩ := List.exists_cons_of_ne_nil name.ne_nil
  simpa [hname] using hc

section Lines

variable (cb : IniCB) (s : IniParser)

theorem IniLine.line_blank (margin : Margin) :
    s.line cb (CString.ofMemory ((IniLine.blank margin).text ++ [0])).bytes =
      some (s, none) := by
  have hzero : 0 ∉ margin.bytes ++ [NEWLINE] := by
    simp [margin.zero_not_mem, NEWLINE]
  rw [IniLine.text, IniLine.body, ofMemory_bytes hzero]
  apply IniParser.line_blank
  rw [rtrim_blank margin.isspace_newline]
  rfl

/-- A NUL may end the string of a comment early, but not before its mark. -/
theorem IniLine.line_comment (margin : Margin) {mark : UInt8}
    (body : List UInt8) (hmark : mark = SEMICOLON ∨ mark = HASH)
    (hbody : NEWLINE ∉ body) :
    s.line cb (CString.ofMemory
        ((IniLine.comment margin mark body hmark hbody).text ++ [0])).bytes =
      some (s, none) := by
  have hmargin : ∀ c ∈ margin.bytes, decide (c ≠ 0) = true := by
    intro c hc
    simpa using fun h : c = 0 => margin.zero_not_mem (h ▸ hc)
  have hne : decide (mark ≠ 0) = true := by
    rcases hmark with rfl | rfl <;> rfl
  have hstring : (CString.ofMemory
      ((IniLine.comment margin mark body hmark hbody).text ++ [0])).bytes =
        margin.bytes ++
          mark :: (body ++ [NEWLINE, 0]).takeWhile (· ≠ 0) := by
    rw [CString.ofMemory, IniLine.text, IniLine.body]
    simp only [List.append_assoc, List.cons_append, List.nil_append]
    rw [List.takeWhile_append_of_pos hmargin, List.takeWhile_cons, if_pos hne]
  rw [hstring]
  exact IniParser.line_comment hmark
    (margin.ltrim_rtrim (isspace_of_mark hmark) _)

theorem IniLine.line_header (before : Margin) (name : SectionName)
    (after : Margin) :
    s.line cb (CString.ofMemory
        ((IniLine.header before name after).text ++ [0])).bytes =
      some (s.read (.header name), none) := by
  have hname : CLOSE_BRACKET ∉ name.bytes :=
    fun hmem => (name.chars CLOSE_BRACKET hmem).2.2 rfl
  have hzero : 0 ∉ (IniLine.header before name after).text := by
    have hbytes : 0 ∉ name.bytes := fun hmem => (name.chars 0 hmem).1 rfl
    simp [IniLine.text, IniLine.body, Margin.zero_not_mem, hbytes, NEWLINE,
      OPEN_BRACKET, CLOSE_BRACKET]
  have hstart := before.ltrim_rtrim
    (by decide : ISSPACE OPEN_BRACKET = false)
    (name.bytes ++ CLOSE_BRACKET :: (after.bytes ++ [NEWLINE]))
  rw [rtrim_stop name.bytes (by decide : ISSPACE CLOSE_BRACKET = false)] at hstart
  rw [ofMemory_bytes hzero, IniParser.read, ← name.take]
  apply IniParser.line_header hname
  simpa [IniLine.text, IniLine.body] using hstart

theorem IniLine.line_pair (hcb : ∀ calls call, 0 ≤ cb calls call)
    (before : Margin) (name : PairName) (beforeAssign afterAssign : Margin)
    (value : PairValue) (after : Margin) :
    s.line cb (CString.ofMemory ((IniLine.pair before name beforeAssign
        afterAssign value after).text ++ [0])).bytes =
      some (s.read (.pair name value), none) := by
  have hassign : ASSIGN ∉ name.bytes ++ beforeAssign.bytes := by
    have hname : ASSIGN ∉ name.bytes :=
      fun hmem => (name.chars ASSIGN hmem).2.2 rfl
    have hmargin := beforeAssign.not_mem (by decide : ISSPACE ASSIGN = false)
    simp [hname, hmargin]
  have hhead : ∃ c, (name.bytes ++ beforeAssign.bytes).head? = some c ∧
      c ≠ SEMICOLON ∧ c ≠ HASH ∧ c ≠ OPEN_BRACKET := by
    obtain ⟨c, tail, hname⟩ := List.exists_cons_of_ne_nil name.ne_nil
    exact ⟨c, by simp [hname], name.start c (by simp [hname])⟩
  have hzero : 0 ∉ (IniLine.pair before name beforeAssign afterAssign value
      after).text := by
    have hname : 0 ∉ name.bytes := fun hmem => (name.chars 0 hmem).1 rfl
    have hvalue : 0 ∉ value.bytes := fun hmem => (value.chars 0 hmem).1 rfl
    simp [IniLine.text, IniLine.body, Margin.zero_not_mem, hname, hvalue,
      NEWLINE, ASSIGN]
  have hstart := ltrim_rtrim_pair before name beforeAssign
    (afterAssign.bytes ++ (value.bytes ++ (after.bytes ++ [NEWLINE])))
  rw [ofMemory_bytes hzero, IniParser.read,
    ← s.callOf_pair name beforeAssign afterAssign value after]
  apply IniParser.line_pair hassign hhead (hcb _ _)
  simpa [IniLine.text, IniLine.body] using hstart

end Lines

/-- The parser reads what a line says. -/
theorem IniLine.line_text {cb : IniCB} (hcb : ∀ calls call, 0 ≤ cb calls call)
    (s : IniParser) (line : IniLine) :
    s.line cb (CString.ofMemory (line.text ++ [0])).bytes =
      some (line.item.elim s s.read, none) := by
  cases line with
  | blank margin => exact line_blank cb s margin
  | comment margin mark body isMark oneLine =>
      exact line_comment cb s margin body isMark oneLine
  | header before name after => exact line_header cb s before name after
  | pair before name beforeAssign afterAssign value after =>
      exact line_pair cb s hcb before name beforeAssign afterAssign value after

/-! ### The file -/

/-- The loop reads what the lines that are left say. -/
theorem IniParser.loop_lines {cb : IniCB}
    (hcb : ∀ calls call, 0 ≤ cb calls call) {lines : List IniLine}
    (hfits : ∀ line ∈ lines, line.text.length < MAX_LINE_LEN) {fuel : Nat}
    (hfuel : lines.length < fuel) (lineno : Nat) (s : IniParser) :
    IniParser.loop cb fuel lineno s (lines.flatMap IniLine.text) =
      some ⟨0, none,
        ((lines.filterMap IniLine.item).foldl IniParser.read s).calls⟩ := by
  induction lines generalizing fuel lineno s with
  | nil =>
      obtain ⟨fuel, rfl⟩ := Nat.exists_eq_succ_of_ne_zero (Nat.ne_zero_of_lt hfuel)
      simp [IniParser.loop, fgets]
  | cons line lines ih =>
      obtain ⟨fuel, rfl⟩ := Nat.exists_eq_succ_of_ne_zero (Nat.ne_zero_of_lt hfuel)
      simp only [List.mem_cons, forall_eq_or_imp] at hfits
      have hrest := ih hfits.2 (Nat.lt_of_succ_lt_succ hfuel) (lineno + 1)
        (line.item.elim s s.read)
      rw [List.flatMap_cons, IniParser.loop, fgets_text line hfits.1]
      simp only [IniLine.line_text hcb, hrest]
      cases hitem : line.item <;> simp [hitem]

theorem foldl_pairItems (s : IniParser)
    (pairs : List (PairName × PairValue)) :
    (pairItems pairs).foldl IniParser.read s =
      { s with calls := s.calls ++ pairCalls s.section_ pairs } := by
  induction pairs generalizing s with
  | nil => simp [pairItems, pairCalls]
  | cons pair pairs ih =>
      simp only [pairItems, pairCalls] at ih
      simp [pairItems, pairCalls, IniParser.read, ih]

theorem foldl_sectionItems (s : IniParser)
    (sections : List (SectionName × List (PairName × PairValue))) :
    ((sections.flatMap fun entry =>
        .header entry.1 :: pairItems entry.2).foldl IniParser.read s).calls =
      s.calls ++
        sections.flatMap fun entry => pairCalls entry.1.bytes entry.2 := by
  induction sections generalizing s with
  | nil => simp
  | cons entry sections ih =>
      rw [List.flatMap_cons, List.foldl_append, List.foldl_cons,
        foldl_pairItems, ih, List.flatMap_cons]
      simp [IniParser.read]

theorem IniDocument.calls_items (doc : IniDocument) :
    (doc.items.foldl IniParser.read ⟨[], []⟩).calls = doc.triples := by
  rw [IniDocument.items, List.foldl_append, foldl_pairItems,
    foldl_sectionItems]
  simp [IniDocument.triples]

theorem length_le_flatMap_text (lines : List IniLine) :
    lines.length ≤ (lines.flatMap IniLine.text).length := by
  induction lines with
  | nil => simp
  | cons line lines ih =>
      simp only [List.flatMap_cons, List.length_append, List.length_cons,
        IniLine.text]
      omega

/-- A text of a document is parsed without an error, and the callback is called
with exactly its triples, in order. -/
theorem parseIni_document {cb : IniCB} (hcb : ∀ calls call, 0 ≤ cb calls call)
    {doc : IniDocument} {lines : List IniLine} (hlines : doc.Written lines) :
    parseIni cb (lines.flatMap IniLine.text) = some ⟨0, none, doc.triples⟩ := by
  have hfuel := Nat.lt_succ_of_le (length_le_flatMap_text lines)
  have hloop := IniParser.loop_lines hcb hlines.fits hfuel 0 ⟨[], []⟩
  rw [hlines.items, doc.calls_items] at hloop
  exact hloop

/-- The name `n` and the section `[s]`. -/
def sampleName : PairName where
  bytes := [110]
  ne_nil := List.cons_ne_nil 110 []
  chars := by simp [NEWLINE, ASSIGN]
  trimmed := ⟨by simp [ISSPACE], by simp [ISSPACE]⟩
  start := by simp [SEMICOLON, HASH, OPEN_BRACKET]

def sampleSection : SectionName where
  bytes := [115]
  chars := by simp [NEWLINE, CLOSE_BRACKET]
  length_lt := by decide

/-- The value `x=y`. -/
def sampleValue : PairValue where
  bytes := [120, 61, 121]
  chars := by simp [NEWLINE, HASH, SEMICOLON]
  trimmed := ⟨by simp [ISSPACE], by simp [ISSPACE]⟩

def emptyValue : PairValue where
  bytes := []
  chars := by simp
  trimmed := ⟨by simp, by simp⟩

def sampleDocument : IniDocument where
  pairs := [(sampleName, emptyValue)]
  sections := [(sampleSection, [(sampleName, sampleValue)])]

def noMargin : Margin := ⟨[], by simp⟩

def spaceMargin : Margin := ⟨[32], by simp [ISSPACE, NEWLINE]⟩

def sampleLines : List IniLine :=
  [.pair noMargin sampleName noMargin spaceMargin emptyValue noMargin,
    .blank noMargin,
    .header spaceMargin sampleSection spaceMargin,
    .comment spaceMargin SEMICOLON [91] (Or.inl rfl) (by simp [NEWLINE]),
    .pair spaceMargin sampleName spaceMargin spaceMargin sampleValue noMargin]

theorem sampleDocument_written : sampleDocument.Written sampleLines where
  items := rfl
  fits := by decide

/-- The lines `n= `, ` [s] `, ` ;[` and ` n = x=y` with an empty line. -/
theorem parseIni_document_sample :
    parseIni (fun _ _ => 0)
        [110, 61, 32, 10, 10, 32, 91, 115, 93, 32, 10, 32, 59, 91, 10,
          32, 110, 32, 61, 32, 120, 61, 121, 10] =
      some ⟨0, none, [⟨[], [110], []⟩, ⟨[115], [110], [120, 61, 121]⟩]⟩ :=
  parseIni_document (fun _ _ => Int.le_refl 0) sampleDocument_written

end MyDirectFB

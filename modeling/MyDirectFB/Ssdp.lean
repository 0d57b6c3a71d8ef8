/-
The search requests of SSDP (net/ssdp/ssdp.cpp).  A payload is split into lines,
the last header `ST` gives the target, and a reply is sent for each entry of a table
that the target is.
-/
import MyDirectFB.Lib.Tokens
import MyDirectFB.StringFunctions
import MyDirectFB.Trim

namespace MyDirectFB

namespace SSDP

/-- What ends `parseSSDP` where the language does not say how: the log line, whose
format is the payload, does not return, or there is no line to compare. -/
inductive Fault where
  | log
  | nullLine
deriving Repr, DecidableEq

def MAX_PACKET_SIZE : Nat := 2 * 1024

def SERVER_NAME : List UInt8 := ascii "Linux/4.19.66-v7, UPnP/1.0 MyApp/Device"

def SERVICE_TYPE : List UInt8 := ascii "urn:myocat.iptime.org:my_app:1"

def UUID : List UInt8 := ascii "deadbeef-dead-beef-dead-beefdeadbeef"

def gSupportedServiceTypes : List (List UInt8) :=
  [ascii "ssdp:all", ascii "upnp:rootdevice", SERVICE_TYPE]

/-- The line feed. -/
def LF : UInt8 := 10

/-- `%`. -/
def PERCENT : UInt8 := 37

/-- What `replyMSearch` sends, with the date of `strftime` and the location of the
description. -/
def replyMSearch (date location : CString) (st : List UInt8) : List UInt8 :=
  (ascii "HTTP/1.1 200 OK\r\nCACHE-CONTROL: max-age=120\r\nDATE: " ++ date.bytes ++
    ascii "\r\nEXT:\r\nLOCATION: " ++ location.bytes ++
    ascii "\r\nSERVER: " ++ SERVER_NAME ++ ascii "\r\nST: " ++ st ++
    ascii "\r\nUSN: uuid:" ++ UUID ++ ascii "::" ++ st ++
    ascii "\r\n\r\n").take (MAX_PACKET_SIZE - 1)

/-- `tolower` in the C locale. -/
def tolower (c : UInt8) : UInt8 := if 65 ≤ c ∧ c ≤ 90 then c + 32 else c

/-- `strncasecmp(first, second, n) == 0`. -/
def strncasecmpEq (first second : List UInt8) (n : Nat) : Bool :=
  strncmpEq (first.map tolower) (second.map tolower) n

/-- The loop over the lines behind the first. -/
def searchTarget (st : Option (List UInt8)) (rest : List UInt8) :
    Option (List UInt8) :=
  match _h : Tokens.strtok LF rest with
  | none => st
  | some (line, rest) =>
      if strncasecmpEq line (ascii "ST:") 3 then
        searchTarget (some (trim (line.drop 3))) rest
      else searchTarget st rest
termination_by rest.length
decreasing_by all_goals exact Tokens.strtok_length _h

/-- What is relied on of the log line: it returns when its format, a payload, has no
conversion specification. -/
def PrintsPlain (prints : List UInt8 → Bool) : Prop :=
  ∀ format, PERCENT ∉ format → prints format = true

/-- `parseSSDP`: the replies that are sent.  `prints` says of a format whether the
log line with it returns, which the language settles for those of `PrintsPlain`
only. -/
def parseSSDP (prints : List UInt8 → Bool) (date location : CString)
    (payload : CString) : Except Fault (List (List UInt8)) :=
  if !prints payload.bytes then .error .log
  else
    match Tokens.strtok LF payload.bytes with
    | none => .error .nullLine
    | some (line, rest) =>
        if !strncmpEq line (ascii "M-SEARCH") 8 then .ok []
        else
          let st := (searchTarget none rest).getD (ascii "ssdp:all")
          .ok ((gSupportedServiceTypes.filter (· = st)).map fun _ =>
            replyMSearch date location st)

/-! ### What a payload asks for -/

/-- The lines of a payload that are not empty. -/
def lines (payload : CString) : List (List UInt8) :=
  (payload.bytes.splitOn LF).filter (· ≠ [])

/-- The text begins with the word, in any letter case. -/
def BeginsAnyCase (word text : List UInt8) : Prop :=
  word.map tolower <+: text.map tolower

instance (word text : List UInt8) : Decidable (BeginsAnyCase word text) :=
  inferInstanceAs (Decidable (_ <+: _))

/-- The trimmed text behind `ST:` in the last line that begins with it, or
`ssdp:all`. -/
def effectiveTarget (payload : CString) : List UInt8 :=
  match ((lines payload).filter (BeginsAnyCase (ascii "ST:") ·)).getLast? with
  | some line => trim (line.drop 3)
  | none => ascii "ssdp:all"

/-- The first line begins with `M-SEARCH`, and the target is supported. -/
def IsSearch (payload : CString) : Prop :=
  (∃ line, (lines payload).head? = some line ∧ ascii "M-SEARCH" <+: line) ∧
    effectiveTarget payload ∈ gSupportedServiceTypes

/-- One reply with the target is sent for a search, and none otherwise. -/
def Answers (date location payload : CString) :
    Except Fault (List (List UInt8)) → Prop
  | .error _ => False
  | .ok replies =>
      (IsSearch payload →
        replies = [replyMSearch date location (effectiveTarget payload)]) ∧
      (¬ IsSearch payload → replies = [])

/-! ### Lines -/

theorem tokens_eq_lines (payload : CString) :
    Tokens.tokens LF payload.bytes = lines payload :=
  Tokens.tokens_eq_filter payload.bytes

theorem strncasecmpEq_iff {word line : List UInt8} :
    strncasecmpEq line word word.length = true ↔ BeginsAnyCase word line := by
  have hbegins := strncmpEq_iff_begins (line.map tolower) (word.map tolower)
  rwa [List.length_map] at hbegins

/-- The last header `ST` of the lines that follow, or what there was. -/
theorem searchTarget_eq (st : Option (List UInt8)) (rest : List UInt8) :
    searchTarget st rest =
      (((Tokens.tokens LF rest).filter (BeginsAnyCase (ascii "ST:") ·)).getLast?.map
        fun line => trim (line.drop 3)).or st := by
  induction st, rest using searchTarget.induct with
  | case1 st rest hnone =>
      rw [searchTarget, hnone, Tokens.tokens_of_none hnone]
      rfl
  | case2 st rest line more hsome hst ih =>
      have hbegins := strncasecmpEq_iff.mp hst
      rw [searchTarget, hsome, Tokens.tokens_of_some hsome,
        List.filter_cons_of_pos (by simpa using hbegins), List.getLast?_cons]
      simp only [hst, ↓reduceIte, ih]
      cases ((Tokens.tokens LF more).filter
        (BeginsAnyCase (ascii "ST:") ·)).getLast? <;> rfl
  | case3 st rest line more hsome hst ih =>
      have hbegins := fun h => hst (strncasecmpEq_iff.mpr h)
      rw [searchTarget, hsome, Tokens.tokens_of_some hsome,
        List.filter_cons_of_neg (by simpa using hbegins)]
      simp only [hst, ih]
      rfl

/-- The first line is not looked at for the target. -/
theorem not_beginsAnyCase_of_search {line : List UInt8}
    (hsearch : ascii "M-SEARCH" <+: line) : ¬ BeginsAnyCase (ascii "ST:") line := by
  obtain ⟨rest, rfl⟩ := hsearch
  rintro ⟨more, hmore⟩
  rw [List.map_append] at hmore
  have hhead : some (115 : UInt8) = some 109 := congrArg List.head? hmore
  exact absurd hhead (by decide)

theorem nodup_gSupportedServiceTypes : gSupportedServiceTypes.Nodup := by
  decide

/-- A target is one entry of the table, or none. -/
theorem filter_supported (st : List UInt8) :
    gSupportedServiceTypes.filter (· = st) =
      if st ∈ gSupportedServiceTypes then [st] else [] := by
  rw [List.filter_eq, nodup_gSupportedServiceTypes.count]
  split <;> rfl

section FirstLine

variable {payload : CString} {line rest : List UInt8}

theorem lines_eq_cons (hline : Tokens.strtok LF payload.bytes = some (line, rest)) :
    lines payload = line :: Tokens.tokens LF rest := by
  rw [← tokens_eq_lines, Tokens.tokens_of_some hline]

theorem isSearch_iff (hline : Tokens.strtok LF payload.bytes = some (line, rest)) :
    IsSearch payload ↔ ascii "M-SEARCH" <+: line ∧
      effectiveTarget payload ∈ gSupportedServiceTypes := by
  rw [IsSearch, lines_eq_cons hline]
  simp

/-- The loop finds the target of a search. -/
theorem searchTarget_eq_effectiveTarget
    (hline : Tokens.strtok LF payload.bytes = some (line, rest))
    (hsearch : ascii "M-SEARCH" <+: line) :
    (searchTarget none rest).getD (ascii "ssdp:all") = effectiveTarget payload := by
  have hfirst := not_beginsAnyCase_of_search hsearch
  rw [searchTarget_eq, effectiveTarget, lines_eq_cons hline,
    List.filter_cons_of_neg (by simpa using hfirst)]
  cases ((Tokens.tokens LF rest).filter
    (BeginsAnyCase (ascii "ST:") ·)).getLast? <;> rfl

theorem answers_of_line {date location : CString} {prints : List UInt8 → Bool}
    (hprints : prints payload.bytes = true)
    (hline : Tokens.strtok LF payload.bytes = some (line, rest)) :
    Answers date location payload (parseSSDP prints date location payload) := by
  have hcompare : strncmpEq line (ascii "M-SEARCH") 8 = true ↔
      ascii "M-SEARCH" <+: line := strncmpEq_iff_begins line (ascii "M-SEARCH")
  rw [parseSSDP, hprints, hline]
  by_cases hsearch : ascii "M-SEARCH" <+: line
  · simp only [hcompare.mpr hsearch, Bool.not_true, Bool.false_eq_true, ↓reduceIte,
      searchTarget_eq_effectiveTarget hline hsearch, filter_supported]
    refine ⟨fun his => ?_, fun hnot => ?_⟩
    · rw [if_pos ((isSearch_iff hline).mp his).2]
      rfl
    · rw [if_neg fun hmem => hnot ((isSearch_iff hline).mpr ⟨hsearch, hmem⟩)]
      rfl
  · simp only [mt hcompare.mp hsearch, Bool.not_true, Bool.not_false,
      Bool.false_eq_true, ↓reduceIte]
    exact ⟨fun his => absurd ((isSearch_iff hline).mp his).1 hsearch, fun _ => rfl⟩

end FirstLine

/-- Where the log line returns, a payload is answered exactly if it has a line. -/
theorem answers_iff_of_prints {prints : List UInt8 → Bool} {payload : CString}
    (hprints : prints payload.bytes = true) (date location : CString) :
    Answers date location payload (parseSSDP prints date location payload) ↔
      ∃ c ∈ payload.bytes, c ≠ LF := by
  cases hline : Tokens.strtok LF payload.bytes with
  | none =>
      have hall := Tokens.strtok_eq_none_iff.mp hline
      simpa [parseSSDP, hprints, hline, Answers] using hall
  | some found =>
      have hnone : Tokens.strtok LF payload.bytes ≠ none := by simp [hline]
      rw [ne_eq, Tokens.strtok_eq_none_iff] at hnone
      push Not at hnone
      exact iff_of_true (answers_of_line hprints hline) hnone

/-- So a payload without a conversion specification is left unanswered, against what it
asks for, only if it has no line. -/
theorem answers_iff_of_plain {prints : List UInt8 → Bool} (hprints : PrintsPlain prints)
    {payload : CString} (hplain : PERCENT ∉ payload.bytes) (date location : CString) :
    Answers date location payload (parseSSDP prints date location payload) ↔
      ∃ c ∈ payload.bytes, c ≠ LF :=
  answers_iff_of_prints (hprints payload.bytes hplain) date location

end SSDP

/-- A payload is answered as it should be exactly if the log line with it returns and
it has a character that is not a line feed. -/
theorem parseSSDP_answers_iff (prints : List UInt8 → Bool) (date location : CString)
    (payload : CString) :
    SSDP.Answers date location payload
        (SSDP.parseSSDP prints date location payload) ↔
      prints payload.bytes = true ∧ ∃ c ∈ payload.bytes, c ≠ SSDP.LF := by
  cases hprints : prints payload.bytes with
  | false => simp [SSDP.parseSSDP, hprints, SSDP.Answers]
  | true =>
      rw [SSDP.answers_iff_of_prints hprints]
      exact (and_iff_right rfl).symm

/-- A payload of one line feed has no line. -/
theorem lineFeed_not_answered :
    ¬ SSDP.Answers ⟨[], List.not_mem_nil⟩ ⟨[], List.not_mem_nil⟩ (.ofMemory [10, 0])
      (SSDP.parseSSDP (fun _ => true) ⟨[], List.not_mem_nil⟩ ⟨[], List.not_mem_nil⟩
        (.ofMemory [10, 0])) := by
  have hfault : SSDP.parseSSDP (fun _ => true) ⟨[], List.not_mem_nil⟩
      ⟨[], List.not_mem_nil⟩ (.ofMemory [10, 0]) = .error .nullLine := by decide
  rw [hfault]
  exact id

end MyDirectFB

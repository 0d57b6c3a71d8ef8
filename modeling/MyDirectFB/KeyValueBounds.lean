/-
What the key-value parser reads and writes of its buffer.  Some passes step over
the character they stand at without looking whether it is the NUL.  Behind a
text of up to 2046 bytes there are two zeros, so that the step does no harm; a
longer text is cut at the last byte of the buffer, and the parser leaves the
buffer exactly if the cut is in a place where such a pass comes to it.
-/
import MyDirectFB.KeyValueGrammar

namespace MyDirectFB

open Scan

/-- The variables of `parse_key_value_str` when the loop begins. -/
def KeyValueParser.start (str : CString) : KeyValueParser :=
  ⟨strncpyBuf str, 0, none, none, []⟩

/-- A pointer into the buffer with a NUL at it or behind it. -/
def PointsToString (buf : List UInt8) (position : Nat) : Prop :=
  position < MAX_STR_LEN ∧ 0 ∈ buf.drop position

namespace KeyValueParser

/-- The pointers that a call in this state passes on. -/
def PointersIn (s : KeyValueParser) : Prop :=
  (∀ key, s.key = some key → PointsToString s.buf key) ∧
    ∀ value, s.value = some value → PointsToString s.buf value

/-- The variables when a pass comes to its cut.  There are none if the pass
reads outside the buffer or ends at the NUL behind white space. -/
def arrive (s : KeyValueParser) : Option KeyValueParser :=
  match s.key, s.value with
  | none, _ =>
      let p := skipWhile isspace s.buf s.p
      match s.buf[p]? with
      | none => none
      | some c =>
          if c = 0 then none else some { s with key := some p, p := p + 1 }
  | some _, none =>
      let p := skipWhile inKey s.buf s.p
      match s.buf[p]? with
      | none => none
      | some c =>
          if c = EQUALS then
            let buf := s.buf.set p 0
            match buf[p + 1]? with
            | none => none
            | some quote =>
                let s := { s with buf := buf, value := some (p + 1) }
                if IS_QUOTE quote then
                  some { s with
                    p := skipWhile (fun c => c ≠ 0 && c ≠ quote) buf (p + 2) }
                else some { s with p := p + 1 }
          else some { s with p := p }
  | some _, some _ => some s

/-- A pass goes on with its cut in the state it arrives in, or it ends at the
NUL behind white space and only moves. -/
theorem arrive_cases {s t : KeyValueParser} (hround : s.round = some t) :
    (s.arrive = none ∧ t = { s with p := t.p }) ∨
      ∃ u, s.arrive = some u ∧ u.cut = some t := by
  unfold round at hround
  unfold arrive
  split at hround
  · rename_i hkey
    unfold beginKey at hround
    simp only [hkey] at hround ⊢
    cases hc : s.buf[skipWhile isspace s.buf s.p]? with
    | none =>
        rw [hc] at hround
        cases hround
    | some c =>
        simp only [hc] at hround ⊢
        split at hround
        · rename_i hzero
          cases hround
          exact .inl ⟨if_pos hzero, rfl⟩
        · rename_i hzero
          exact .inr ⟨_, if_neg hzero, hround⟩
  · rename_i position hkey hvalue
    unfold beginValue at hround
    simp only [hkey, hvalue] at hround ⊢
    cases hc : s.buf[skipWhile inKey s.buf s.p]? with
    | none =>
        rw [hc] at hround
        cases hround
    | some c =>
        simp only [hc] at hround ⊢
        split at hround
        · rename_i hequals
          rw [if_pos hequals]
          cases hquote : (s.buf.set (skipWhile inKey s.buf s.p) 0)[
              skipWhile inKey s.buf s.p + 1]? with
          | none =>
              rw [hquote] at hround
              cases hround
          | some quote =>
              simp only [hquote] at hround ⊢
              split at hround
              · rename_i hisQuote
                exact .inr ⟨_, if_pos hisQuote, hround⟩
              · rename_i hnot
                exact .inr ⟨_, if_neg hnot, hround⟩
        · rename_i hequals
          exact .inr ⟨_, if_neg hequals, hround⟩
  · rename_i position start hkey hvalue
    simp only [hkey, hvalue]
    exact .inr ⟨s, rfl, hround⟩

/-! ### The pointers -/

/-- The buffer ends with a NUL and holds the key and the value. -/
structure InBuffer (s : KeyValueParser) : Prop where
  length : s.buf.length = MAX_STR_LEN
  last : s.buf[MAX_STR_LEN - 1]? = some 0
  key : ∀ key, s.key = some key → key < MAX_STR_LEN
  value : ∀ value, s.value = some value → value < MAX_STR_LEN

theorem pointsToString_of_lt {buf : List UInt8} {position : Nat}
    (hlast : buf[MAX_STR_LEN - 1]? = some 0) (hlt : position < MAX_STR_LEN) :
    PointsToString buf position := by
  refine ⟨hlt, List.mem_of_getElem? (i := MAX_STR_LEN - 1 - position) ?_⟩
  rw [List.getElem?_drop, ← hlast]
  congr 1
  omega

theorem InBuffer.pointersIn {s : KeyValueParser} (hs : s.InBuffer) :
    s.PointersIn :=
  ⟨fun key hkey => pointsToString_of_lt hs.last (hs.key key hkey),
    fun value hvalue => pointsToString_of_lt hs.last (hs.value value hvalue)⟩

theorem last_set {buf : List UInt8} (hlast : buf[MAX_STR_LEN - 1]? = some 0)
    (q : Nat) : (buf.set q 0)[MAX_STR_LEN - 1]? = some 0 := by
  obtain ⟨hlt, hget⟩ := List.getElem?_eq_some_iff.mp hlast
  rw [List.getElem?_set]
  split
  · rename_i heq
    subst heq
    simp [hlt]
  · exact hlast

/-- Writing a NUL keeps the buffer. -/
theorem InBuffer.set {s : KeyValueParser} (hs : s.InBuffer) (q : Nat) :
    { s with buf := s.buf.set q 0 }.InBuffer :=
  ⟨by rw [List.length_set, hs.length], last_set hs.last q, hs.key, hs.value⟩

theorem lt_of_getElem? {s : KeyValueParser} (hs : s.InBuffer) {q : Nat}
    {c : UInt8} (hc : s.buf[q]? = some c) : q < MAX_STR_LEN :=
  hs.length ▸ (List.getElem?_eq_some_iff.mp hc).1

theorem InBuffer.arrive {s u : KeyValueParser} (hs : s.InBuffer)
    (harrive : s.arrive = some u) : u.InBuffer := by
  unfold KeyValueParser.arrive at harrive
  split at harrive
  · dsimp only at harrive
    split at harrive
    · cases harrive
    · rename_i c hc
      split at harrive
      · cases harrive
      · cases harrive
        exact ⟨hs.length, hs.last,
          fun key hkey => Option.some.inj hkey ▸ lt_of_getElem? hs hc, hs.value⟩
  · dsimp only at harrive
    split at harrive
    · cases harrive
    · rename_i c hc
      split at harrive
      · split at harrive
        · cases harrive
        · rename_i quote hquote
          have hcut := hs.set (skipWhile inKey s.buf s.p)
          have hlt := lt_of_getElem? hcut hquote
          split at harrive
          · cases harrive
            exact ⟨hcut.length, hcut.last, hs.key,
              fun value hvalue => Option.some.inj hvalue ▸ hlt⟩
          · cases harrive
            exact ⟨hcut.length, hcut.last, hs.key,
              fun value hvalue => Option.some.inj hvalue ▸ hlt⟩
      · cases harrive
        exact ⟨hs.length, hs.last, hs.key, hs.value⟩
  · cases harrive
    exact hs

theorem call_buf (s : KeyValueParser) : s.call.buf = s.buf := by
  unfold call
  split <;> rfl

theorem InBuffer.cut {u t : KeyValueParser} (hu : u.InBuffer)
    (hcut : u.cut = some t) : t.InBuffer := by
  unfold KeyValueParser.cut at hcut
  split at hcut
  · cases hcut
  · split at hcut
    · cases hcut
      have hset := hu.set u.p
      refine ⟨?_, ?_, fun key hkey => ?_, fun value hvalue => ?_⟩
      · rw [call_buf]
        exact hset.length
      · rw [call_buf]
        exact hset.last
      · cases hkey
      · cases hvalue
    · cases hcut
      exact ⟨hu.length, hu.last, hu.key, hu.value⟩

theorem InBuffer.round {s t : KeyValueParser} (hs : s.InBuffer)
    (hround : s.round = some t) : t.InBuffer := by
  rcases arrive_cases hround with ⟨-, ht⟩ | ⟨u, harrive, hcut⟩
  · rw [ht]
    exact ⟨hs.length, hs.last, hs.key, hs.value⟩
  · exact (hs.arrive harrive).cut hcut

theorem InBuffer.rounds {s t : KeyValueParser} (hs : s.InBuffer)
    (hrounds : Rounds s t) : t.InBuffer := by
  induction hrounds with
  | refl => exact hs
  | tail _ hround ih => exact ih.round hround.2

end KeyValueParser

theorem length_strncpyBuf (str : CString) :
    (strncpyBuf str).length = MAX_STR_LEN := by
  simp [strncpyBuf]

theorem strncpyBuf_last (str : CString) :
    (strncpyBuf str)[MAX_STR_LEN - 1]? = some 0 := by
  have hlt : MAX_STR_LEN - 1 < (strncpyBuf str).length := by
    rw [length_strncpyBuf]
    decide
  rw [List.getElem?_eq_getElem hlt]
  simp [strncpyBuf]

/-- A string that fills the buffer is cut at its last byte. -/
theorem strncpyBuf_of_le {str : CString} (hlength : 2047 ≤ str.bytes.length) :
    strncpyBuf str = str.bytes.take 2047 ++ [0] := by
  have hfull : ((str.bytes ++ List.replicate MAX_STR_LEN 0).take
      MAX_STR_LEN).length = MAX_STR_LEN := by
    simp
  rw [strncpyBuf, List.set_eq_take_append_cons_drop, hfull,
    if_pos (by decide), List.drop_of_length_le (by rw [hfull]; decide),
    List.take_take, show min (MAX_STR_LEN - 1) MAX_STR_LEN = 2047 from rfl,
    List.take_append_of_le_length hlength]

namespace KeyValueParser

theorem start_inBuffer (str : CString) : (start str).InBuffer :=
  ⟨length_strncpyBuf str, strncpyBuf_last str, fun key hkey => (by cases hkey),
    fun value hvalue => (by cases hvalue)⟩

end KeyValueParser

/-! ### Places of a text -/

/-- Where a text can end: in white space, behind the first, the second or a
later character of a key, behind `=`, in a quoted value or in any other. -/
inductive Place where
  | blank
  | keyFirst
  | keySecond
  | keyMore
  | equals
  | quoted (quote : UInt8)
  | value
deriving Repr, DecidableEq

namespace Place

/-- The place behind one more character.  The second character of a key is not
looked at, except for white space. -/
def next (place : Place) (c : UInt8) : Place :=
  match place with
  | blank => if isspace c then blank else keyFirst
  | keyFirst => if isspace c then blank else keySecond
  | keySecond | keyMore =>
      if isspace c then blank else if c = EQUALS then equals else keyMore
  | equals =>
      if isspace c then blank else if IS_QUOTE c then quoted c else value
  | quoted quote => if c = quote then value else quoted quote
  | value => if isspace c then blank else value

/-- The place at the end of a text that begins at `place`. -/
def after (place : Place) (text : List UInt8) : Place :=
  text.foldl next place

/-- The places where a pass of the parser begins, and not one that a pass comes
through. -/
def settled : Place → Bool
  | blank | keySecond | value => true
  | keyFirst | keyMore | equals | quoted _ => false

@[simp] theorem after_nil (place : Place) : place.after [] = place := rfl

@[simp] theorem after_cons (place : Place) (c : UInt8) (text : List UInt8) :
    place.after (c :: text) = (place.next c).after text := rfl

theorem after_append (place : Place) (front back : List UInt8) :
    place.after (front ++ back) = (place.after front).after back :=
  List.foldl_append

theorem after_blank {text : List UInt8} (htext : Blank text) :
    blank.after text = blank := by
  induction text with
  | nil => rfl
  | cons c text ih =>
      have hc : isspace c = true := htext c List.mem_cons_self
      rw [after_cons, next, if_pos hc]
      exact ih fun d hd => htext d (List.mem_cons_of_mem _ hd)

theorem after_keyMore {text : List UInt8}
    (htext : ∀ c ∈ text, KeyValueParser.inKey c = true) :
    keyMore.after text = keyMore := by
  induction text with
  | nil => rfl
  | cons c text ih =>
      have hc := htext c List.mem_cons_self
      simp only [KeyValueParser.inKey, Bool.and_eq_true, decide_eq_true_eq,
        Bool.not_eq_true'] at hc
      rw [after_cons, next, if_neg (by simp [hc.2]), if_neg hc.1.2]
      exact ih fun d hd => htext d (List.mem_cons_of_mem _ hd)

theorem after_keySecond {c : UInt8} {text : List UInt8}
    (htext : ∀ d ∈ c :: text, KeyValueParser.inKey d = true) :
    keySecond.after (c :: text) = keyMore :=
  after_keyMore htext

/-- What stops the scan of a key is white space or `=`. -/
theorem after_key_stop {keyRest : List UInt8} {stop : UInt8}
    (hkey : ∀ c ∈ keyRest, KeyValueParser.inKey c = true)
    (hstop : KeyValueParser.inKey stop = false) (hzero : stop ≠ 0)
    (later : List UInt8) :
    keySecond.after (keyRest ++ stop :: later) =
      (if isspace stop then blank else equals).after later := by
  have hnext : keyMore.next stop = if isspace stop then blank else equals := by
    rw [next]
    split
    · rfl
    · rename_i hspace
      rw [if_pos]
      simpa [KeyValueParser.inKey, hzero, hspace] using hstop
  cases keyRest with
  | nil => exact congrArg (Place.after · later) hnext
  | cons c keyRest =>
      rw [after_append, after_keySecond hkey, after_cons, hnext]

theorem after_quoted {quote : UInt8} {text : List UInt8}
    (htext : quote ∉ text) : (quoted quote).after text = quoted quote := by
  induction text with
  | nil => rfl
  | cons c text ih =>
      simp only [List.mem_cons, not_or] at htext
      rw [after_cons, next, if_neg (Ne.symm htext.1)]
      exact ih htext.2

end Place

namespace KeyValueParser

/-- The pointers there are when a pass begins at a place. -/
inductive Standing : Place → Option Nat → Option Nat → Prop
  | blank : Standing .blank none none
  | keySecond (key : Nat) : Standing .keySecond (some key) none
  | value (key value : Nat) : Standing .value (some key) (some value)

/-- What a pass does to the text that is left: it comes to a later place of it,
or it steps over the NUL, which only happens if the text does not end in a
settled place. -/
def PassesOn (place : Place) (text rest : List UInt8) (s : KeyValueParser) :
    Prop :=
  (∃ place' text' before key value calls, Standing place' key value ∧
    text'.length < text.length ∧ 0 ∉ text' ∧
    place'.after text' = place.after text ∧
    Round s (reading before (text' ++ 0 :: rest) key value calls)) ∨
  ((place.after text).settled = false ∧
    ∃ before key value calls, Round s (reading before rest key value calls))

variable {before text rest : List UInt8} {calls : List KeyValueCall}

theorem current_of_ne_nil {key value : Option Nat} (htext : 0 ∉ text)
    (hne : text ≠ []) :
    ∃ d, (reading before (text ++ 0 :: rest) key value calls).buf[
      (reading before (text ++ 0 :: rest) key value calls).p]? = some d ∧
        d ≠ 0 := by
  cases text with
  | nil => exact absurd rfl hne
  | cons c text =>
      simp only [List.mem_cons, not_or] at htext
      exact ⟨c, by simp [reading], Ne.symm htext.1⟩

/-- A pass in a value. -/
theorem passesOn_value (key value : Nat) (htext : 0 ∉ text) (hne : text ≠ []) :
    PassesOn .value text rest
      (reading before (text ++ 0 :: rest) (some key) (some value) calls) := by
  have hcurrent := @current_of_ne_nil before text rest calls (some key)
    (some value) htext hne
  cases text with
  | nil => exact absurd rfl hne
  | cons c text =>
      have hlater : 0 ∉ text := fun hmem => htext (List.mem_cons_of_mem _ hmem)
      by_cases hc : isspace c = true
      · refine .inl ⟨.blank, text, _, _, _, _, .blank, Nat.lt_succ_self _,
          hlater, ?_, hcurrent, cut_space hc⟩
        rw [Place.after_cons, Place.next, if_pos hc]
      · refine .inl ⟨.value, text, _, _, _, _, .value key value,
          Nat.lt_succ_self _, hlater, ?_, hcurrent, cut_go (by simpa using hc)⟩
        rw [Place.after_cons, Place.next, if_neg hc]

/-- A pass without a key. -/
theorem passesOn_blank (htext : 0 ∉ text) (hne : text ≠ []) :
    PassesOn .blank text rest
      (reading before (text ++ 0 :: rest) none none calls) := by
  have hcurrent := @current_of_ne_nil before text rest calls none none htext hne
  obtain ⟨blank, hblank, rfl | ⟨c, later, hc, rfl⟩⟩ := exists_stop isspace text
  · refine .inl ⟨.blank, [], _, _, _, _, .blank,
      List.length_pos_iff.mpr hne, by simp, ?_, hcurrent, beginKey_end hblank⟩
    rw [Place.after_blank hblank, Place.after_nil]
  · have hzero : c ≠ 0 := by
      rintro rfl
      exact htext (by simp)
    have hbegin := @beginKey_go before (later ++ 0 :: rest) calls c blank hblank
      hzero hc
    have hplace : Place.blank.after (blank ++ c :: later) =
        Place.keyFirst.after later := by
      rw [Place.after_append, Place.after_blank hblank, Place.after_cons,
        Place.next, if_neg (by simp [hc])]
    rw [List.append_assoc] at hcurrent ⊢
    cases later with
    | nil =>
        exact .inr ⟨by rw [hplace]; rfl, _, _, _, _, hcurrent,
          hbegin.trans (cut_go isspace_zero)⟩
    | cons d later =>
        have hlater : 0 ∉ later := fun hmem => htext (by simp [hmem])
        by_cases hd : isspace d = true
        · refine .inl ⟨.blank, later, _, _, _, _, .blank, ?_, hlater, ?_,
            hcurrent, hbegin.trans (cut_space hd)⟩
          · simp only [List.length_append, List.length_cons]
            omega
          · rw [hplace, Place.after_cons, Place.next, if_pos hd]
        · refine .inl ⟨.keySecond, later, _, _, _, _, .keySecond _, ?_, hlater,
            ?_, hcurrent, hbegin.trans (cut_go (by simpa using hd))⟩
          · simp only [List.length_append, List.length_cons]
            omega
          · rw [hplace, Place.after_cons, Place.next, if_neg hd]

section

variable {keyRest later : List UInt8} {c : UInt8}
  (hkey : ∀ c ∈ keyRest, c ≠ 0 ∧ c ≠ EQUALS ∧ isspace c = false)

include hkey in
theorem not_mem_equals {equalsRest : List UInt8} (htext : 0 ∉ equalsRest) :
    0 ∉ keyRest ++ EQUALS :: equalsRest := by
  intro hmem
  rcases List.mem_append.mp hmem with hin | hin
  · exact (hkey 0 hin).1 rfl
  · rcases List.mem_cons.mp hin with hequals | hrest
    · exact absurd hequals (by decide)
    · exact htext hrest

include hkey in
/-- The pass that finds `=` and an opening quote. -/
theorem passesOn_quoted (key : Nat) (hquote : IS_QUOTE c = true) (htext : 0 ∉ c :: later)
    (hplace : Place.keySecond.after (keyRest ++ EQUALS :: c :: later) =
      Place.equals.after (c :: later)) :
    PassesOn .keySecond (keyRest ++ EQUALS :: c :: later) rest
      (reading before (keyRest ++ EQUALS :: c :: later ++ 0 :: rest) (some key) none
        calls) := by
  have hcurrent := @current_of_ne_nil before _ rest calls (some key) none
    (not_mem_equals hkey htext) (by simp)
  have hlater : 0 ∉ later := fun hmem => htext (List.mem_cons_of_mem _ hmem)
  have hspace := (quote_chars hquote).2
  have hquoted : Place.equals.after (c :: later) = (Place.quoted c).after later := by
    rw [Place.after_cons, Place.next, if_neg (by simp [hspace]), if_pos hquote]
  rw [PassesOn, hplace, hquoted]
  rw [List.append_assoc, List.cons_append, List.cons_append] at hcurrent ⊢
  obtain ⟨body, hbody, hsplit⟩ := exists_stop (· ≠ c) later
  simp only [decide_eq_true_eq, decide_eq_false_iff_not, ne_eq, not_not]
    at hbody hsplit
  rcases hsplit with rfl | ⟨stop, tail, hstop, rfl⟩
  · have hchars (d : UInt8) (hd : d ∈ later) : d ≠ 0 ∧ d ≠ c :=
      ⟨fun h => hlater (h ▸ hd), hbody d hd⟩
    refine .inr ⟨?_, _, _, _, _, hcurrent,
      (beginValue_quoted hkey hquote hchars (.inl rfl)).trans (cut_go isspace_zero)⟩
    rw [Place.after_quoted fun hmem => hbody c hmem rfl]
    rfl
  · subst stop
    have hchars (d : UInt8) (hd : d ∈ body) : d ≠ 0 ∧ d ≠ c :=
      ⟨fun h => hlater (List.mem_append_left _ (h ▸ hd)), hbody d hd⟩
    have htail : 0 ∉ tail := fun hmem => hlater
      (List.mem_append_right _ (List.mem_cons_of_mem _ hmem))
    have hclose := @beginValue_quoted before (tail ++ 0 :: rest)
      (some key) calls keyRest body c c hkey hquote hchars (.inr rfl)
    have hassoc : body ++ c :: (tail ++ 0 :: rest) =
        body ++ c :: tail ++ 0 :: rest := by simp
    rw [cut_go (quote_chars hquote).2, hassoc] at hclose
    refine .inl ⟨.value, tail, _, _, _, _, .value _ _, ?_, htail, ?_, hcurrent,
      hclose⟩
    · simp only [List.length_append, List.length_cons]
      omega
    · rw [Place.after_append, Place.after_quoted fun hmem => hbody c hmem rfl,
        Place.after_cons, Place.next, if_pos rfl]

include hkey in
/-- The pass that finds `=` and the first character of a value without quotes. -/
theorem passesOn_plain (key : Nat) (hquote : IS_QUOTE c = false) (htext : 0 ∉ c :: later)
    (hplace : Place.keySecond.after (keyRest ++ EQUALS :: c :: later) =
      Place.equals.after (c :: later)) :
    PassesOn .keySecond (keyRest ++ EQUALS :: c :: later) rest
      (reading before (keyRest ++ EQUALS :: c :: later ++ 0 :: rest) (some key) none
        calls) := by
  have hcurrent := @current_of_ne_nil before _ rest calls (some key) none
    (not_mem_equals hkey htext) (by simp)
  have hlater : 0 ∉ later := fun hmem => htext (List.mem_cons_of_mem _ hmem)
  have hshorter : later.length < (keyRest ++ EQUALS :: c :: later).length := by
    simp only [List.length_append, List.length_cons]
    omega
  have hplain := @beginValue_plain before (later ++ 0 :: rest) (some key) calls c
    keyRest hkey hquote
  rw [PassesOn, hplace]
  rw [List.append_assoc, List.cons_append, List.cons_append] at hcurrent ⊢
  by_cases hc : isspace c = true
  · refine .inl ⟨.blank, later, _, _, _, _, .blank, hshorter, hlater, ?_, hcurrent,
      hplain.trans (cut_space hc)⟩
    rw [Place.after_cons, Place.next, if_pos hc]
  · refine .inl ⟨.value, later, _, _, _, _, .value _ _, hshorter, hlater, ?_,
      hcurrent, hplain.trans (cut_go (by simpa using hc))⟩
    rw [Place.after_cons, Place.next, if_neg hc, if_neg (by simp [hquote])]

include hkey in
/-- The pass that finds `=`.  `equalsRest` is the text behind it. -/
theorem passesOn_equals {equalsRest : List UInt8} (key : Nat) (htext : 0 ∉ equalsRest)
    (hplace : Place.keySecond.after (keyRest ++ EQUALS :: equalsRest) =
      Place.equals.after equalsRest) :
    PassesOn .keySecond (keyRest ++ EQUALS :: equalsRest) rest
      (reading before (keyRest ++ EQUALS :: equalsRest ++ 0 :: rest) (some key)
        none calls) := by
  cases equalsRest with
  | nil =>
      have hcurrent := @current_of_ne_nil before _ rest calls (some key) none
        (not_mem_equals hkey htext) (by simp)
      rw [PassesOn, hplace]
      rw [List.append_assoc, List.cons_append] at hcurrent ⊢
      exact .inr ⟨rfl, _, _, _, _, hcurrent,
        (beginValue_plain hkey rfl).trans (cut_go isspace_zero)⟩
  | cons c later =>
      cases hquote : IS_QUOTE c with
      | true => exact passesOn_quoted hkey key hquote htext hplace
      | false => exact passesOn_plain hkey key hquote htext hplace

end

/-- A pass with a key and without a value. -/
theorem passesOn_keySecond (key : Nat) (htext : 0 ∉ text) (hne : text ≠ []) :
    PassesOn .keySecond text rest
      (reading before (text ++ 0 :: rest) (some key) none calls) := by
  have hcurrent := @current_of_ne_nil before text rest calls (some key) none
    htext hne
  obtain ⟨keyRest, hkeyRest, hsplit⟩ := exists_stop inKey text
  have hkey (c : UInt8) (hc : c ∈ keyRest) :
      c ≠ 0 ∧ c ≠ EQUALS ∧ isspace c = false := by
    have hin := hkeyRest c hc
    simp only [inKey, Bool.and_eq_true, decide_eq_true_eq,
      Bool.not_eq_true'] at hin
    exact ⟨hin.1.1, hin.1.2, hin.2⟩
  rcases hsplit with rfl | ⟨d, later, hd, rfl⟩
  · cases text with
    | nil => exact absurd rfl hne
    | cons c text =>
        refine .inr ⟨?_, _, _, _, _, hcurrent,
          (beginValue_stop hkey rfl (by decide)).trans (cut_go isspace_zero)⟩
        rw [Place.after_keySecond hkeyRest]
        rfl
  · have hlater : 0 ∉ later := fun hmem => htext
      (List.mem_append_right _ (List.mem_cons_of_mem _ hmem))
    have hzero : d ≠ 0 := by
      rintro rfl
      exact htext (by simp)
    by_cases hspace : isspace d = true
    · have hassoc : keyRest ++ d :: later ++ 0 :: rest =
          keyRest ++ d :: (later ++ 0 :: rest) := by simp
      rw [hassoc] at hcurrent ⊢
      refine .inl ⟨.blank, later, _, _, _, _, .blank, ?_, hlater, ?_, hcurrent,
        (beginValue_stop hkey hd ?_).trans (cut_space hspace)⟩
      · simp only [List.length_append, List.length_cons]
        omega
      · rw [Place.after_key_stop hkeyRest hd hzero, if_pos hspace]
      · rintro rfl
        exact absurd hspace (by decide)
    · obtain rfl : d = EQUALS := by
        simpa [inKey, hzero, hspace] using hd
      exact passesOn_equals hkey key hlater
        (by rw [Place.after_key_stop hkeyRest hd hzero, if_neg hspace])

theorem passesOn {place : Place} {key value : Option Nat}
    (hstanding : Standing place key value) (htext : 0 ∉ text)
    (hne : text ≠ []) :
    PassesOn place text rest
      (reading before (text ++ 0 :: rest) key value calls) := by
  cases hstanding with
  | blank => exact passesOn_blank htext hne
  | keySecond key => exact passesOn_keySecond key htext hne
  | value key value => exact passesOn_value key value htext hne

/-- The passes over a whole text: they come to the NUL if the text ends in a
settled place, and otherwise they step over it. -/
theorem rounds_text (n : Nat) {place : Place} {key value : Option Nat}
    (hstanding : Standing place key value) (hn : text.length = n)
    (htext : 0 ∉ text) :
    ∃ before' key' value' calls',
      Rounds (reading before (text ++ 0 :: rest) key value calls)
        (reading before'
          (if (place.after text).settled then 0 :: rest else rest) key' value'
          calls') := by
  induction n using Nat.strong_induction_on generalizing text place key value
    before calls with
  | h n ih =>
      by_cases hne : text = []
      · subst hne
        have hsettled : place.settled = true := by cases hstanding <;> rfl
        rw [Place.after_nil, if_pos hsettled]
        exact ⟨_, _, _, _, .refl⟩
      · rcases @passesOn before text rest calls place key value hstanding htext
          hne with ⟨place', text', next, key', value', calls', hstanding',
            hlength, htext', hplace, hround⟩ |
          ⟨hplace, next, key', value', calls', hround⟩
        · obtain ⟨before', key'', value'', calls'', hrounds⟩ :=
            @ih text'.length (hn ▸ hlength) next text' calls' place' key' value'
              hstanding' rfl htext'
          rw [hplace] at hrounds
          exact ⟨_, _, _, _, .head hround hrounds⟩
        · rw [hplace]
          exact ⟨_, _, _, _, .single hround⟩

/-- From a state whose next character is outside the buffer the loop does not
return. -/
theorem loop_outside {s t : KeyValueParser} (hrounds : Rounds s t)
    (houtside : t.buf[t.p]? = none) (fuel : Nat) : loop fuel s = none := by
  rw [loop_eq]
  exact CursorLoop.loop_outside hrounds houtside fuel

end KeyValueParser

open KeyValueParser

/-- A text that is read to its end inside the buffer: there is room for two
zeros behind it, or what the buffer holds of it ends in a settled place. -/
def FitsParser (str : CString) : Prop :=
  str.bytes.length < 2047 ∨
    (Place.blank.after (str.bytes.take 2047)).settled = true

/-- The parser stays in its buffer: it returns, so that no pass has read
outside, and the pointers it passes to the callback, in a pass and behind the
loop, are those of strings in the buffer. -/
structure StaysInBuffer (str : CString) : Prop where
  returns : ∃ calls, parseKeyValueStr str = some calls
  inPass : ∀ s u c, Rounds (start str) s → s.arrive = some u →
    u.buf[u.p]? = some c → isspace c = true →
      { u with buf := u.buf.set u.p 0 }.PointersIn
  atEnd : ∀ s, Rounds (start str) s → s.buf[s.p]? = some 0 → s.PointersIn

theorem not_mem_take {str : CString} (n : Nat) : 0 ∉ str.bytes.take n :=
  fun hmem => str.noNul (List.mem_of_mem_take hmem)

/-- The loop comes to a NUL in the buffer, or to the end of the buffer. -/
theorem rounds_start (str : CString) :
    ∃ t, Rounds (start str) t ∧
      (FitsParser str ∧ t.buf[t.p]? = some 0 ∨
        ¬ FitsParser str ∧ t.buf[t.p]? = none) := by
  have hzero := @not_mem_take str 2047
  by_cases hlength : str.bytes.length < 2047
  · obtain ⟨-, more, hbuf⟩ := strncpyBuf_eq hlength
    have hstart : start str = reading [] (str.bytes.take 2047 ++ 0 :: 0 :: more)
        none none [] := by
      rw [List.take_of_length_le (Nat.le_of_lt hlength)]
      simp [start, reading, hbuf]
    obtain ⟨before, key, value, calls, hrounds⟩ :=
      @rounds_text [] _ (0 :: more) [] _ _ none none .blank rfl hzero
    rw [hstart]
    refine ⟨_, hrounds, .inl ⟨.inl hlength, ?_⟩⟩
    split <;> simp [reading]
  · have hbuf := strncpyBuf_of_le (Nat.le_of_not_lt hlength)
    have hstart : start str = reading [] (str.bytes.take 2047 ++ 0 :: [])
        none none [] := by
      simp [start, reading, hbuf]
    obtain ⟨before, key, value, calls, hrounds⟩ :=
      @rounds_text [] _ [] [] _ _ none none .blank rfl hzero
    rw [hstart]
    refine ⟨_, hrounds, ?_⟩
    by_cases hsettled :
        (Place.blank.after (str.bytes.take 2047)).settled = true
    · refine .inl ⟨.inr hsettled, ?_⟩
      simp [reading, hsettled]
    · refine .inr ⟨fun hfits => hfits.elim hlength hsettled, ?_⟩
      simp [reading, hsettled]

theorem parseKeyValueStr_returns_iff (str : CString) :
    (∃ calls, parseKeyValueStr str = some calls) ↔ FitsParser str := by
  obtain ⟨t, hrounds, ⟨hfits, hend⟩ | ⟨hfits, houtside⟩⟩ := rounds_start str
  · have hloop := loop_of_rounds hrounds hend
      (show _ < 0 + (MAX_STR_LEN + 1) by
        rw [start, length_strncpyBuf]
        omega)
    rw [start] at hloop
    simp only [parseKeyValueStr, hloop, Option.map_some, hfits, iff_true]
    exact ⟨_, rfl⟩
  · have hloop := loop_outside hrounds houtside (MAX_STR_LEN + 1)
    rw [start] at hloop
    simp [parseKeyValueStr, hloop, hfits]

/-- The parser stays in its buffer exactly for the texts that fit. -/
theorem staysInBuffer_iff (str : CString) :
    StaysInBuffer str ↔ FitsParser str := by
  constructor
  · intro hstays
    exact (parseKeyValueStr_returns_iff str).mp hstays.returns
  · intro hfits
    refine ⟨(parseKeyValueStr_returns_iff str).mpr hfits, ?_, ?_⟩
    · intro s u c hrounds harrive _ _
      exact ((((start_inBuffer str).rounds hrounds).arrive harrive).set
        u.p).pointersIn
    · intro s hrounds _
      exact ((start_inBuffer str).rounds hrounds).pointersIn

/-- A bare key of 2047 characters. -/
def longKey : CString :=
  ⟨List.replicate 2047 97, by decide +kernel⟩

theorem longKey_not_fitsParser : ¬ FitsParser longKey := by
  have hplace : Place.blank.after (longKey.bytes.take 2047) = .keyMore := by
    have hbytes : longKey.bytes =
        List.replicate 3 97 ++ List.replicate 2044 97 := by
      rw [List.replicate_append_replicate, longKey]
    rw [List.take_of_length_le (by rw [longKey, List.length_replicate]), hbytes,
      Place.after_append]
    refine Place.after_keyMore fun c hc => ?_
    rw [List.eq_of_mem_replicate hc]
    rfl
  rintro (hlength | hsettled)
  · rw [longKey, List.length_replicate] at hlength
    omega
  · rw [hplace] at hsettled
    cases hsettled

/-- The scan of the key stops at the NUL in the last byte, and the pass steps
over it. -/
theorem longKey_leaves_buffer :
    ¬ StaysInBuffer longKey ∧
      ∃ t, Rounds (start longKey) t ∧ t.buf.length = MAX_STR_LEN ∧
        t.buf[t.p]? = none := by
  refine ⟨fun hstays => longKey_not_fitsParser
    ((parseKeyValueStr_returns_iff longKey).mp hstays.returns), ?_⟩
  obtain ⟨t, hrounds, ⟨hfits, -⟩ | ⟨-, houtside⟩⟩ := rounds_start longKey
  · exact absurd hfits longKey_not_fitsParser
  · have hlength := ((start_inBuffer longKey).rounds hrounds).length
    exact ⟨t, hrounds, hlength, houtside⟩

end MyDirectFB

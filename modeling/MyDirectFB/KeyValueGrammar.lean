/-
The grammar of the key-value parser: items `key`, `key=value` and `key='value'`
between white space.  A text of the grammar is read as it should be exactly if
no item gives a value to a key of one character: the pass that begins a key
skips the character after it without looking at it.
-/
import MyDirectFB.KeyValue
import MyDirectFB.Lib.CursorLoop

namespace MyDirectFB

open Scan

/-- The white space around items. -/
def Blank (bytes : List UInt8) : Prop :=
  ∀ c ∈ bytes, isspace c = true

structure KeyText where
  bytes : List UInt8
  ne_nil : bytes ≠ []
  chars : ∀ c ∈ bytes, c ≠ 0 ∧ c ≠ EQUALS ∧ isspace c = false

inductive ValueText where
  | plain (bytes : List UInt8) (chars : ∀ c ∈ bytes, c ≠ 0 ∧ isspace c = false)
      (start : ∀ c, bytes.head? = some c → IS_QUOTE c = false)
  | quoted (quote : UInt8) (body : List UInt8) (isQuote : IS_QUOTE quote = true)
      (chars : ∀ c ∈ body, c ≠ 0 ∧ c ≠ quote)

def ValueText.text : ValueText → List UInt8
  | .plain bytes _ _ => bytes
  | .quoted quote body _ _ => quote :: (body ++ [quote])

structure KeyValueItem where
  key : KeyText
  value : Option ValueText

def KeyValueItem.text (item : KeyValueItem) : List UInt8 :=
  item.key.bytes ++
    match item.value with
    | none => []
    | some value => EQUALS :: value.text

/-- The call an item should lead to. -/
def KeyValueItem.call (item : KeyValueItem) (index : Nat) : KeyValueCall :=
  ⟨index, item.key.bytes, item.value.map ValueText.text⟩

/-- The calls that items should lead to, counted from `index`. -/
def callsFrom (index : Nat) : List KeyValueItem → List KeyValueCall
  | [] => []
  | item :: rest => item.call index :: callsFrom (index + 1) rest

/-- Items that are each followed by white space. -/
def itemsText (items : List (KeyValueItem × List UInt8)) : List UInt8 :=
  items.flatMap fun entry => entry.1.text ++ entry.2

/-- A text of the grammar: one or more items with white space between them, and
possibly before the first and after the last. -/
structure KeyValueText where
  lead : List UInt8
  front : List (KeyValueItem × List UInt8)
  last : KeyValueItem
  trail : List UInt8
  lead_blank : Blank lead
  front_blank : ∀ entry ∈ front, Blank entry.2 ∧ entry.2 ≠ []
  trail_blank : Blank trail

namespace KeyValueText

def text (doc : KeyValueText) : List UInt8 :=
  doc.lead ++ (itemsText doc.front ++ (doc.last.text ++ doc.trail))

def items (doc : KeyValueText) : List KeyValueItem :=
  doc.front.map Prod.fst ++ [doc.last]

end KeyValueText

/-- A key with a value has more than one character. -/
def KeyValueItem.Readable (item : KeyValueItem) : Prop :=
  item.value ≠ none → 2 ≤ item.key.bytes.length

/-! ### Passes -/

theorem stringAt_append (before : List UInt8) {str : List UInt8}
    (hstr : 0 ∉ str) (rest : List UInt8) :
    stringAt (before ++ (str ++ 0 :: rest)) before.length = str := by
  rw [stringAt, List.drop_left, CString.ofMemory_append ⟨str, hstr⟩ rest]

namespace KeyValueParser

/-- The parser with `before` behind it and `after` still to be read. -/
def reading (before after : List UInt8) (key value : Option Nat)
    (calls : List KeyValueCall) : KeyValueParser :=
  ⟨before ++ after, before.length, key, value, calls⟩

variable {before after rest : List UInt8} {key value : Option Nat}
  {calls : List KeyValueCall} {c : UInt8}

theorem cut_go (hc : isspace c = false) :
    (reading before (c :: rest) key value calls).cut =
      some (reading (before ++ [c]) rest key value calls) := by
  simp [cut, reading, hc]

theorem cut_space {position : Nat} (hc : isspace c = true) :
    (reading before (c :: rest) (some position) value calls).cut =
      some (reading (before ++ [0]) rest none none
        (reading before (0 :: rest) (some position) value calls).call.calls) := by
  simp [cut, reading, hc, call]

theorem beginKey_go {blank : List UInt8} (hblank : Blank blank) (hzero : c ≠ 0)
    (hc : isspace c = false) :
    (reading before (blank ++ c :: rest) none none calls).beginKey =
      (reading ((before ++ blank) ++ [c]) rest
        (some (before ++ blank).length) none calls).cut := by
  have hskip := skipWhile_stop before hblank hc rest
  simp only [beginKey, reading, hskip]
  simp [hzero, Nat.add_assoc]

theorem beginKey_end {blank : List UInt8} (hblank : Blank blank) :
    (reading before (blank ++ 0 :: rest) none none calls).beginKey =
      some (reading (before ++ blank) (0 :: rest) none none calls) := by
  have hskip := skipWhile_stop before hblank isspace_zero rest
  simp only [beginKey, reading, hskip]
  simp

theorem inKey_of_chars {c : UInt8}
    (hc : c ≠ 0 ∧ c ≠ EQUALS ∧ isspace c = false) : inKey c = true := by
  simp [inKey, hc.1, hc.2.1, hc.2.2]

theorem beginValue_stop {keyRest : List UInt8}
    (hkey : ∀ c ∈ keyRest, c ≠ 0 ∧ c ≠ EQUALS ∧ isspace c = false)
    (hstop : inKey c = false) (hequals : c ≠ EQUALS) :
    (reading before (keyRest ++ c :: rest) key none calls).beginValue =
      (reading (before ++ keyRest) (c :: rest) key none calls).cut := by
  have hskip := skipWhile_stop before
    (fun c hc => inKey_of_chars (hkey c hc)) hstop rest
  simp only [beginValue, reading, hskip]
  simp [hequals]

/-- The pass that finds `=`, up to the scan for the closing quote. -/
theorem beginValue_equals {keyRest : List UInt8}
    (hkey : ∀ c ∈ keyRest, c ≠ 0 ∧ c ≠ EQUALS ∧ isspace c = false) :
    (reading before (keyRest ++ EQUALS :: c :: rest) key none
        calls).beginValue =
      if IS_QUOTE c then
        cut { reading (before ++ (keyRest ++ [0])) (c :: rest) key
            (some (before ++ (keyRest ++ [0])).length) calls with
          p := skipWhile (fun d => d ≠ 0 && d ≠ c)
            (before ++ (keyRest ++ [0]) ++ c :: rest)
            ((before ++ (keyRest ++ [0])).length + 1) }
      else
        (reading (before ++ (keyRest ++ [0])) (c :: rest) key
          (some (before ++ (keyRest ++ [0])).length) calls).cut := by
  have hskip := skipWhile_stop before
    (fun c hc => inKey_of_chars (hkey c hc)) (show inKey EQUALS = false from rfl)
    (c :: rest)
  have hequals : (before ++ (keyRest ++ EQUALS :: c :: rest))[
      (before ++ keyRest).length]? = some EQUALS := by simp
  have hset : (before ++ (keyRest ++ EQUALS :: c :: rest)).set
      (before ++ keyRest).length 0 = before ++ (keyRest ++ [0]) ++ c :: rest := by
    simp
  have hlength : (before ++ keyRest).length + 1 =
      (before ++ (keyRest ++ [0])).length := by simp [Nat.add_assoc]
  have hnext : (before ++ keyRest).length + 2 =
      (before ++ (keyRest ++ [0])).length + 1 := congrArg (· + 1) hlength
  have hquote : (before ++ (keyRest ++ [0]) ++ c :: rest)[
      (before ++ (keyRest ++ [0])).length]? = some c := by simp
  simp only [beginValue, reading, hskip, hequals, hset, ↓reduceIte, hlength,
    hnext, hquote]

theorem beginValue_plain {keyRest : List UInt8}
    (hkey : ∀ c ∈ keyRest, c ≠ 0 ∧ c ≠ EQUALS ∧ isspace c = false)
    (hquote : IS_QUOTE c = false) :
    (reading before (keyRest ++ EQUALS :: c :: rest) key none
        calls).beginValue =
      (reading (before ++ (keyRest ++ [0])) (c :: rest) key
        (some (before ++ (keyRest ++ [0])).length) calls).cut := by
  rw [beginValue_equals hkey, hquote]
  rfl

/-- A value that begins with a quote is read to the next such quote, or to the
NUL. -/
theorem beginValue_quoted {keyRest body : List UInt8} {quote stop : UInt8}
    (hkey : ∀ c ∈ keyRest, c ≠ 0 ∧ c ≠ EQUALS ∧ isspace c = false)
    (hquote : IS_QUOTE quote = true) (hbody : ∀ c ∈ body, c ≠ 0 ∧ c ≠ quote)
    (hstop : stop = 0 ∨ stop = quote) :
    (reading before (keyRest ++ EQUALS :: quote :: (body ++ stop :: rest)) key
        none calls).beginValue =
      (reading (before ++ (keyRest ++ [0]) ++ quote :: body) (stop :: rest) key
        (some (before ++ (keyRest ++ [0])).length) calls).cut := by
  have hinBody (c : UInt8) (hc : c ∈ body) :
      (c ≠ 0 && c ≠ quote) = true := by simp [hbody c hc]
  have hclose := skipWhile_stop (before ++ (keyRest ++ [0]) ++ [quote]) hinBody
    (show (stop ≠ 0 && stop ≠ quote) = false by
      rcases hstop with rfl | rfl <;> simp) rest
  have hlength : (before ++ (keyRest ++ [0]) ++ [quote]).length =
      (before ++ (keyRest ++ [0])).length + 1 := by simp [Nat.add_assoc]
  have hbuf : before ++ (keyRest ++ [0]) ++ [quote] ++ (body ++ stop :: rest) =
      before ++ (keyRest ++ [0]) ++ quote :: (body ++ stop :: rest) := by simp
  rw [hlength, hbuf] at hclose
  rw [beginValue_equals hkey, hquote, if_pos rfl, hclose]
  simp [reading]

/-! ### Runs of the loop -/

/-- The loop makes one pass. -/
def Round (s t : KeyValueParser) : Prop :=
  (∃ c, s.buf[s.p]? = some c ∧ c ≠ 0) ∧ s.round = some t

abbrev Rounds : KeyValueParser → KeyValueParser → Prop :=
  Relation.ReflTransGen Round

/-- The loop stops, and the calls made in the end are `calls`. -/
def Ends (s : KeyValueParser) (calls : List KeyValueCall) : Prop :=
  s.buf[s.p]? = some 0 ∧ s.call.calls = calls

/-- What comes of an item that is followed by `c` and `rest`: after white space
the parser goes on without a key, and after the NUL it ends. -/
def Done (c : UInt8) (rest : List UInt8) (calls : List KeyValueCall)
    (s : KeyValueParser) : Prop :=
  (isspace c = true →
    ∃ before, Rounds s (reading before rest none none calls)) ∧
  (c = 0 → rest.head? = some 0 → ∃ t, Rounds s t ∧ t.Ends calls)

theorem Done.of_rounds {s t : KeyValueParser} (hrounds : Rounds s t)
    (ht : t.Done c rest calls) : s.Done c rest calls := by
  refine ⟨fun hc => ?_, fun hc hrest => ?_⟩
  · obtain ⟨before, hnext⟩ := ht.1 hc
    exact ⟨before, hrounds.trans hnext⟩
  · obtain ⟨u, hu, hends⟩ := ht.2 hc hrest
    exact ⟨u, hrounds.trans hu, hends⟩

/-- A pass that comes to its cut at the end of the item. -/
theorem done_of_cut {s : KeyValueParser} {position : Nat}
    (hs : ∃ c, s.buf[s.p]? = some c ∧ c ≠ 0)
    (hround : s.round =
      (reading before (c :: rest) (some position) value calls).cut) :
    s.Done c rest
      (reading before (0 :: rest) (some position) value calls).call.calls := by
  refine ⟨fun hc => ?_, fun hc hrest => ?_⟩
  · exact ⟨_, .single ⟨hs, hround.trans (cut_space hc)⟩⟩
  · subst hc
    refine ⟨_, .single ⟨hs, hround.trans (cut_go isspace_zero)⟩, ?_, ?_⟩
    · cases rest with
      | nil => simp at hrest
      | cons next rest =>
          obtain rfl : next = 0 := by simpa using hrest
          simp [reading]
    · simp [reading, call]

/-- A parser that stands at the end of the item. -/
theorem done_of_standing {position : Nat}
    (hround : isspace c = true →
      (reading before (c :: rest) (some position) value calls).round =
        (reading before (c :: rest) (some position) value calls).cut) :
    (reading before (c :: rest) (some position) value calls).Done c rest
      (reading before (0 :: rest) (some position) value calls).call.calls := by
  refine ⟨fun hc => ?_, fun hc hrest => ?_⟩
  · have hs : c ≠ 0 := by
      rintro rfl
      simp [isspace_zero] at hc
    exact ⟨_, .single ⟨⟨c, by simp [reading], hs⟩,
      (hround hc).trans (cut_space hc)⟩⟩
  · subst hc
    exact ⟨_, .refl, by simp [reading], rfl⟩

theorem call_key {keyBytes : List UInt8} (hkey : 0 ∉ keyBytes) :
    (reading (before ++ keyBytes) (0 :: rest) (some before.length) none
        calls).call.calls = calls ++ [⟨calls.length, keyBytes, none⟩] := by
  have hstring := stringAt_append before hkey rest
  simp [call, reading, hstring]

theorem call_value {keyBytes valueBytes : List UInt8} (hkey : 0 ∉ keyBytes)
    (hvalue : 0 ∉ valueBytes) :
    (reading (before ++ (keyBytes ++ [0]) ++ valueBytes) (0 :: rest)
        (some before.length) (some (before ++ (keyBytes ++ [0])).length)
        calls).call.calls =
      calls ++ [⟨calls.length, keyBytes, some valueBytes⟩] := by
  have hstring := stringAt_append before hkey (valueBytes ++ 0 :: rest)
  have hvalueString := stringAt_append (before ++ (keyBytes ++ [0])) hvalue rest
  have hbuf : before ++ (keyBytes ++ [0]) ++ (valueBytes ++ 0 :: rest) =
      before ++ (keyBytes ++ 0 :: (valueBytes ++ 0 :: rest)) := by simp
  rw [hbuf] at hvalueString
  have hall : before ++ (keyBytes ++ [0]) ++ valueBytes ++ 0 :: rest =
      before ++ (keyBytes ++ 0 :: (valueBytes ++ 0 :: rest)) := by simp
  simp only [call, reading, hall, hstring, hvalueString, Option.map_some]

/-- White space is followed by a pass as long as there is something left. -/
theorem current_ne_zero {blank : List UInt8} (hblank : Blank blank)
    (hc : c ≠ 0) :
    ∃ d, (reading before (blank ++ c :: rest) key value calls).buf[
      (reading before (blank ++ c :: rest) key value calls).p]? = some d ∧
        d ≠ 0 := by
  cases blank with
  | nil => exact ⟨c, by simp [reading], hc⟩
  | cons d blank =>
      refine ⟨d, by simp [reading], ?_⟩
      rintro rfl
      have hspace := hblank 0 List.mem_cons_self
      simp [isspace_zero] at hspace

/-- Beginning a key of more than one character. -/
theorem rounds_key {blank keyRest : List UInt8} {a d : UInt8}
    (hblank : Blank blank)
    (hkey : ∀ c ∈ a :: d :: keyRest, c ≠ 0 ∧ c ≠ EQUALS ∧ isspace c = false) :
    Rounds (reading before (blank ++ (a :: d :: keyRest ++ rest)) none none calls)
      (reading ((before ++ blank) ++ [a, d]) (keyRest ++ rest)
        (some (before ++ blank).length) none calls) := by
  have ha := hkey a List.mem_cons_self
  have hd := hkey d (List.mem_cons_of_mem _ List.mem_cons_self)
  refine .single ⟨current_ne_zero hblank ha.1, ?_⟩
  change (reading before (blank ++ a :: d :: (keyRest ++ rest)) none none
    calls).beginKey = _
  rw [beginKey_go hblank ha.1 ha.2.2, cut_go hd.2.2]
  simp

/-- Running over the characters of a value. -/
theorem rounds_value {valueRest : List UInt8} {position start : Nat}
    (hvalue : ∀ c ∈ valueRest, c ≠ 0 ∧ isspace c = false) :
    Rounds (reading before (valueRest ++ rest) (some position) (some start) calls)
      (reading (before ++ valueRest) rest (some position) (some start) calls) := by
  induction valueRest generalizing before with
  | nil =>
      rw [List.append_nil]
      exact .refl
  | cons c valueRest ih =>
      obtain ⟨hzero, hc⟩ := hvalue c List.mem_cons_self
      have hround : Round
          (reading before (c :: (valueRest ++ rest)) (some position) (some start)
            calls)
          (reading (before ++ [c]) (valueRest ++ rest) (some position)
            (some start) calls) :=
        ⟨⟨c, by simp [reading], hzero⟩, cut_go hc⟩
      have hrest := @ih (before ++ [c])
        fun d hd => hvalue d (List.mem_cons_of_mem _ hd)
      rw [List.append_assoc] at hrest
      exact .head hround hrest

theorem quote_chars {quote : UInt8} (hquote : IS_QUOTE quote = true) :
    quote ≠ 0 ∧ isspace quote = false := by
  simp only [IS_QUOTE, Bool.or_eq_true, decide_eq_true_eq] at hquote
  rcases hquote with rfl | rfl <;> decide

theorem not_quote_of_stop (hc : isspace c = true ∨ c = 0) :
    IS_QUOTE c = false := by
  by_contra hquote
  obtain ⟨hzero, hspace⟩ := quote_chars (by simpa using hquote)
  rcases hc with hc | hc
  · simp [hspace] at hc
  · exact hzero hc

theorem not_inKey_of_stop (hc : isspace c = true ∨ c = 0) :
    inKey c = false ∧ c ≠ EQUALS := by
  rcases hc with hc | rfl
  · refine ⟨by simp [inKey, hc], ?_⟩
    rintro rfl
    exact absurd hc (by decide)
  · decide

/-- A parser that stands at the end of a value. -/
theorem done_of_value {key value : List UInt8} (hkey : 0 ∉ key)
    (hvalue : 0 ∉ value) :
    (reading (before ++ (key ++ [0]) ++ value) (c :: rest) (some before.length)
        (some (before ++ (key ++ [0])).length) calls).Done c rest
      (calls ++ [⟨calls.length, key, some value⟩]) := by
  rw [← @call_value before rest calls key value hkey hvalue]
  exact done_of_standing fun _ => rfl

theorem zero_not_mem_key {front keyRest : List UInt8} (hfront : 0 ∉ front)
    (hkeyRest : ∀ c ∈ keyRest, c ≠ 0 ∧ c ≠ EQUALS ∧ isspace c = false) :
    0 ∉ front ++ keyRest := by
  simp only [List.mem_append, not_or]
  exact ⟨hfront, fun hmem => (hkeyRest 0 hmem).1 rfl⟩

theorem current_keyRest {front keyRest : List UInt8}
    (hkeyRest : ∀ c ∈ keyRest, c ≠ 0 ∧ c ≠ EQUALS ∧ isspace c = false)
    (more : List UInt8) :
    ∃ d, (reading (before ++ front) (keyRest ++ EQUALS :: more)
      (some before.length) none calls).buf[(reading (before ++ front)
        (keyRest ++ EQUALS :: more) (some before.length) none calls).p]? =
          some d ∧ d ≠ 0 := by
  cases keyRest with
  | nil => exact ⟨EQUALS, by simp [reading], by decide⟩
  | cons d keyRest =>
      exact ⟨d, by simp [reading], (hkeyRest d List.mem_cons_self).1⟩

theorem append_keyRest (front keyRest : List UInt8) :
    before ++ front ++ (keyRest ++ [0]) =
      before ++ ((front ++ keyRest) ++ [0]) := by
  simp

theorem plain_done {front keyRest bytes : List UInt8} (hfront : 0 ∉ front)
    (hkeyRest : ∀ c ∈ keyRest, c ≠ 0 ∧ c ≠ EQUALS ∧ isspace c = false)
    (hchars : ∀ c ∈ bytes, c ≠ 0 ∧ isspace c = false)
    (hstart : ∀ c, bytes.head? = some c → IS_QUOTE c = false)
    (hc : isspace c = true ∨ c = 0) :
    (reading (before ++ front) (keyRest ++ EQUALS :: (bytes ++ c :: rest))
        (some before.length) none calls).Done c rest
      (calls ++ [⟨calls.length, front ++ keyRest, some bytes⟩]) := by
  have hkey := zero_not_mem_key hfront hkeyRest
  have hzero : 0 ∉ bytes := fun hmem => (hchars 0 hmem).1 rfl
  cases bytes with
  | nil =>
      -- an empty value: the pass that finds `=` stands at the end already
      have hround := @beginValue_plain (before ++ front) rest
        (some before.length) calls c keyRest hkeyRest (not_quote_of_stop hc)
      have hdone := done_of_cut (current_keyRest hkeyRest (c :: rest)) hround
      have hcalls := @call_value before rest calls _ [] hkey hzero
      rw [List.append_nil] at hcalls
      rw [append_keyRest, hcalls] at hdone
      exact hdone
  | cons first bytes =>
      have hgo := @cut_go (before ++ front ++ (keyRest ++ [0]))
        (bytes ++ c :: rest) (some before.length)
        (some (before ++ front ++ (keyRest ++ [0])).length) calls first
        (hchars first List.mem_cons_self).2
      have hround := (beginValue_plain hkeyRest (hstart first rfl)).trans hgo
      have hrounds := @rounds_value
        (before ++ front ++ (keyRest ++ [0]) ++ [first]) (c :: rest) calls
        bytes before.length (before ++ front ++ (keyRest ++ [0])).length
        fun d hd => hchars d (List.mem_cons_of_mem _ hd)
      rw [List.append_assoc _ [first] bytes, append_keyRest] at hrounds
      refine Done.of_rounds (.single ⟨current_keyRest hkeyRest _, hround⟩) ?_
      rw [append_keyRest]
      exact (done_of_value hkey hzero).of_rounds hrounds

/-- A value that begins with a quote, with the same quote in it again. -/
theorem quoted_done {front keyRest body more : List UInt8} {quote : UInt8}
    (hfront : 0 ∉ front)
    (hkeyRest : ∀ c ∈ keyRest, c ≠ 0 ∧ c ≠ EQUALS ∧ isspace c = false)
    (hquote : IS_QUOTE quote = true)
    (hchars : ∀ c ∈ body, c ≠ 0 ∧ c ≠ quote)
    (hmore : ∀ c ∈ more, c ≠ 0 ∧ isspace c = false) :
    (reading (before ++ front)
        (keyRest ++ EQUALS :: quote :: (body ++ quote :: (more ++ c :: rest)))
        (some before.length) none calls).Done c rest
      (calls ++ [⟨calls.length, front ++ keyRest,
        some (quote :: (body ++ quote :: more))⟩]) := by
  have hkey := zero_not_mem_key hfront hkeyRest
  have hzero : 0 ∉ quote :: (body ++ quote :: more) := by
    have hne := (quote_chars hquote).1
    have hbody : 0 ∉ body := fun hmem => (hchars 0 hmem).1 rfl
    have hmoreZero : 0 ∉ more := fun hmem => (hmore 0 hmem).1 rfl
    simp [hne.symm, hbody, hmoreZero]
  have hgo := @cut_go (before ++ front ++ (keyRest ++ [0]) ++ quote :: body)
    (more ++ c :: rest) (some before.length)
    (some (before ++ front ++ (keyRest ++ [0])).length) calls quote
    (quote_chars hquote).2
  have hround := (beginValue_quoted hkeyRest hquote hchars (.inr rfl)).trans hgo
  have hrounds := @rounds_value
    (before ++ front ++ (keyRest ++ [0]) ++ quote :: body ++ [quote]) (c :: rest)
    calls more before.length (before ++ front ++ (keyRest ++ [0])).length hmore
  refine Done.of_rounds (.single ⟨current_keyRest hkeyRest _, hround⟩)
    (Done.of_rounds hrounds ?_)
  have hdone := @done_of_value before rest calls c _ _ hkey hzero
  rw [append_keyRest]
  simpa using hdone

/-- A value that begins with a quote that is not closed runs to the NUL. -/
theorem unclosed_done {front keyRest body : List UInt8} {quote : UInt8}
    (hfront : 0 ∉ front)
    (hkeyRest : ∀ c ∈ keyRest, c ≠ 0 ∧ c ≠ EQUALS ∧ isspace c = false)
    (hquote : IS_QUOTE quote = true)
    (hchars : ∀ c ∈ body, c ≠ 0 ∧ c ≠ quote) :
    (reading (before ++ front)
        (keyRest ++ EQUALS :: quote :: (body ++ 0 :: rest))
        (some before.length) none calls).Done 0 rest
      (calls ++ [⟨calls.length, front ++ keyRest, some (quote :: body)⟩]) := by
  have hkey := zero_not_mem_key hfront hkeyRest
  have hzero : 0 ∉ quote :: body := by
    have hbody : 0 ∉ body := fun hmem => (hchars 0 hmem).1 rfl
    simp [(quote_chars hquote).1.symm, hbody]
  have hround := @beginValue_quoted (before ++ front) rest (some before.length)
    calls keyRest body quote 0 hkeyRest hquote hchars (.inl rfl)
  have hdone := done_of_cut (current_keyRest hkeyRest _) hround
  rw [append_keyRest, call_value hkey hzero] at hdone
  exact hdone

/-- The rest of a key, `=` and a value.  `front` is the part of the key that is
already read. -/
theorem value_done {front keyRest : List UInt8} (hfront : 0 ∉ front)
    (hkeyRest : ∀ c ∈ keyRest, c ≠ 0 ∧ c ≠ EQUALS ∧ isspace c = false)
    (value : ValueText) (hc : isspace c = true ∨ c = 0) :
    (reading (before ++ front) (keyRest ++ EQUALS :: (value.text ++ c :: rest))
        (some before.length) none calls).Done c rest
      (calls ++ [⟨calls.length, front ++ keyRest, some value.text⟩]) := by
  cases value with
  | plain bytes chars start =>
      exact plain_done hfront hkeyRest chars start hc
  | quoted quote body isQuote chars =>
      have htext : keyRest ++ EQUALS ::
            ((ValueText.quoted quote body isQuote chars).text ++ c :: rest) =
          keyRest ++ EQUALS :: quote :: (body ++ quote :: c :: rest) := by
        simp [ValueText.text]
      rw [htext]
      exact @quoted_done before rest calls c front keyRest body [] quote hfront
        hkeyRest isQuote chars fun c hc => absurd hc List.not_mem_nil

/-- The rest of a key without a value. -/
theorem key_done {front keyRest : List UInt8} (hfront : 0 ∉ front)
    (hkeyRest : ∀ c ∈ keyRest, c ≠ 0 ∧ c ≠ EQUALS ∧ isspace c = false)
    (hc : isspace c = true ∨ c = 0) :
    (reading (before ++ front) (keyRest ++ c :: rest) (some before.length) none
        calls).Done c rest
      (calls ++ [⟨calls.length, front ++ keyRest, none⟩]) := by
  have hkey := zero_not_mem_key hfront hkeyRest
  obtain ⟨hstop, hequals⟩ := not_inKey_of_stop hc
  rw [← @call_key before rest calls _ hkey, ← List.append_assoc]
  cases keyRest with
  | nil =>
      rw [List.append_nil]
      refine done_of_standing fun _ => ?_
      have hround := @beginValue_stop (before ++ front) rest (some before.length)
        calls c [] hkeyRest hstop hequals
      rw [List.append_nil] at hround
      exact hround
  | cons d keyRest =>
      refine done_of_cut ⟨d, by simp [reading], ?_⟩
        (beginValue_stop hkeyRest hstop hequals)
      exact (hkeyRest d List.mem_cons_self).1

/-- What comes of an item. -/
theorem item_done {item : KeyValueItem} (hitem : item.Readable)
    {blank : List UInt8} (hblank : Blank blank)
    (hc : isspace c = true ∨ c = 0) :
    (reading before (blank ++ (item.text ++ c :: rest)) none none calls).Done c
      rest (calls ++ [item.call calls.length]) := by
  obtain ⟨⟨bytes, hne, chars⟩, value⟩ := item
  have hzero : 0 ∉ bytes := fun hmem => (chars 0 hmem).1 rfl
  rcases bytes with _ | ⟨a, _ | ⟨d, keyRest⟩⟩
  · exact absurd rfl hne
  · -- a key of one character has no value
    obtain rfl : value = none := by
      by_contra hvalue
      have hlength := hitem hvalue
      simp at hlength
    obtain ⟨ha, -, hspace⟩ := chars a List.mem_cons_self
    rw [KeyValueItem.call, Option.map_none, ← @call_key (before ++ blank) rest
      calls [a] hzero]
    exact done_of_cut (current_ne_zero hblank ha) (beginKey_go hblank ha hspace)
  · have hkeyRest : ∀ c ∈ keyRest, c ≠ 0 ∧ c ≠ EQUALS ∧ isspace c = false :=
      fun c hc => chars c (List.mem_cons_of_mem _ (List.mem_cons_of_mem _ hc))
    have hfront : 0 ∉ [a, d] := fun hmem =>
      hzero (List.mem_append_left keyRest hmem)
    cases value with
    | some value =>
        have hrounds := @rounds_key before
          (EQUALS :: (value.text ++ c :: rest)) calls blank keyRest a d hblank
          chars
        have hdone := @value_done (before ++ blank) rest calls c [a, d] keyRest
          hfront hkeyRest value hc
        have hresult := hdone.of_rounds hrounds
        simpa [KeyValueItem.text, KeyValueItem.call] using hresult
    | none =>
        have hrounds := @rounds_key before (c :: rest) calls blank keyRest a d
          hblank chars
        have hdone := @key_done (before ++ blank) rest calls c [a, d] keyRest
          hfront hkeyRest hc
        have hresult := hdone.of_rounds hrounds
        simpa [KeyValueItem.text, KeyValueItem.call] using hresult

/-! ### A whole text -/

theorem items_done (entries : List (KeyValueItem × List UInt8))
    (hreadable : ∀ entry ∈ entries, entry.1.Readable)
    (hblanks : ∀ entry ∈ entries, Blank entry.2 ∧ entry.2 ≠ [])
    (before : List UInt8) {blank : List UInt8} (hblank : Blank blank)
    (rest : List UInt8) (calls : List KeyValueCall) :
    ∃ before' blank', Blank blank' ∧
      Rounds (reading before (blank ++ (itemsText entries ++ rest)) none none
          calls)
        (reading before' (blank' ++ rest) none none
          (calls ++ callsFrom calls.length (entries.map Prod.fst))) := by
  induction entries generalizing before blank calls with
  | nil =>
      refine ⟨before, blank, hblank, ?_⟩
      rw [List.map_nil, callsFrom, List.append_nil]
      exact .refl
  | cons entry entries ih =>
      obtain ⟨item, separator⟩ := entry
      obtain ⟨hseparator, hne⟩ := hblanks _ List.mem_cons_self
      cases separator with
      | nil => exact absurd rfl hne
      | cons c separator =>
          have hc : isspace c = true := hseparator c List.mem_cons_self
          have hdone := @item_done before
            (separator ++ (itemsText entries ++ rest)) calls c item
            (hreadable _ List.mem_cons_self) blank hblank (.inl hc)
          obtain ⟨next, hnext⟩ := hdone.1 hc
          obtain ⟨before', blank', hblank', hrest⟩ := ih
            (fun entry hentry => hreadable entry (List.mem_cons_of_mem _ hentry))
            (fun entry hentry => hblanks entry (List.mem_cons_of_mem _ hentry))
            next (fun d hd => hseparator d (List.mem_cons_of_mem _ hd))
            (calls ++ [item.call calls.length])
          refine ⟨before', blank', hblank', ?_⟩
          have hall := hnext.trans hrest
          simpa [itemsText, callsFrom, List.append_assoc] using hall

theorem last_done {item : KeyValueItem} (hitem : item.Readable)
    (before : List UInt8) {blank trail : List UInt8} (hblank : Blank blank)
    (htrail : Blank trail) (rest : List UInt8) (calls : List KeyValueCall) :
    ∃ t, Rounds (reading before
        (blank ++ (item.text ++ (trail ++ 0 :: 0 :: rest))) none none calls) t ∧
      t.Ends (calls ++ [item.call calls.length]) := by
  cases trail with
  | nil => exact (item_done hitem hblank (.inr rfl)).2 rfl rfl
  | cons c trail =>
      have hc : isspace c = true := htrail c List.mem_cons_self
      obtain ⟨next, hnext⟩ := (@item_done before (trail ++ 0 :: 0 :: rest) calls
        c item hitem blank hblank (.inl hc)).1 hc
      cases trail with
      | nil => exact ⟨_, hnext, by simp [reading], rfl⟩
      | cons d trail =>
          have hblankTrail : Blank (d :: trail) := fun e he =>
            htrail e (List.mem_cons_of_mem _ he)
          have hd : d ≠ 0 := by
            rintro rfl
            have hspace := hblankTrail 0 List.mem_cons_self
            simp [isspace_zero] at hspace
          refine ⟨_, hnext.tail ⟨⟨d, by simp [reading], hd⟩,
            beginKey_end hblankTrail⟩, by simp [reading], rfl⟩

/-- What the end of a pass can do: go on, or cut the buffer and call. -/
theorem cut_cases {s t : KeyValueParser} {position : Nat}
    (hkey : s.key = some position) (hcut : s.cut = some t) :
    t = { s with p := s.p + 1 } ∨
      t.p = s.p + 1 ∧ t.buf = s.buf.set s.p 0 ∧
        ∃ value, t.calls = s.calls ++
          [⟨s.calls.length, stringAt (s.buf.set s.p 0) position, value⟩] := by
  unfold cut at hcut
  split at hcut
  · cases hcut
  · split at hcut
    · cases hcut
      refine .inr ⟨rfl, ?_, ?_⟩
      · simp [call, hkey]
      · exact ⟨s.value.map (stringAt (s.buf.set s.p 0)), by
          simp only [call, hkey]⟩
    · exact .inl (Option.some.inj hcut).symm

/-- What a pass can do: move to the end of the text, or come to its cut at or
behind its position, with a key and possibly the buffer cut at `=`. -/
theorem round_cases {s t : KeyValueParser} (hround : s.round = some t) :
    (t = { s with p := skipWhile isspace s.buf s.p } ∧ s.key = none ∧
      s.buf[t.p]? = some 0) ∨
    ∃ (u : KeyValueParser) (position : Nat), u.cut = some t ∧ s.p ≤ u.p ∧
      u.calls = s.calls ∧ u.key = some position ∧
      (s.key = some position ∨ s.key = none) ∧
      (u.buf = s.buf ∨ ∃ q, s.p ≤ q ∧ u.buf = s.buf.set q 0) := by
  have hspace := le_skipWhile isspace s.buf s.p
  have hscan := le_skipWhile inKey s.buf s.p
  unfold round at hround
  split at hround
  · rename_i hkey
    unfold beginKey at hround
    simp only at hround
    split at hround
    · cases hround
    · rename_i c hc
      split at hround
      · rename_i hzero
        cases hround
        exact .inl ⟨rfl, hkey, by simpa [hzero] using hc⟩
      · exact .inr ⟨_, _, hround, by simp only; omega, rfl, rfl, .inr hkey,
          .inl rfl⟩
  · rename_i position hkey hvalue
    unfold beginValue at hround
    simp only at hround
    split at hround
    · cases hround
    · split at hround
      · split at hround
        · cases hround
        · rename_i quote hquote
          have hclose := le_skipWhile (fun c => c ≠ 0 && c ≠ quote)
            (s.buf.set (skipWhile inKey s.buf s.p) 0)
            (skipWhile inKey s.buf s.p + 2)
          split at hround
          · exact .inr ⟨_, position, hround, by simp only; omega, rfl, hkey,
              .inl hkey, .inr ⟨_, hscan, rfl⟩⟩
          · exact .inr ⟨_, position, hround, by simp only; omega, rfl, hkey,
              .inl hkey, .inr ⟨_, hscan, rfl⟩⟩
      · exact .inr ⟨_, position, hround, hscan, rfl, hkey, .inl hkey, .inl rfl⟩
  · rename_i position start hkey hvalue
    exact .inr ⟨s, position, hround, Nat.le_refl _, rfl, hkey, .inl hkey,
      .inl rfl⟩

/-- Every pass moves on in the buffer. -/
theorem Round.advances {s t : KeyValueParser} (hround : Round s t) :
    s.p < t.p ∧ t.buf.length = s.buf.length := by
  obtain ⟨⟨c, hc, hzero⟩, hnext⟩ := hround
  rcases round_cases hnext with ⟨rfl, -, hend⟩ |
    ⟨u, position, hcut, hle, -, hkey, -, hbuf⟩
  · refine ⟨Nat.lt_of_le_of_ne (le_skipWhile _ _ _) fun heq => ?_, rfl⟩
    change s.p = skipWhile isspace s.buf s.p at heq
    rw [← heq, hc] at hend
    exact hzero (Option.some.inj hend)
  · have hlength : u.buf.length = s.buf.length := by
      rcases hbuf with hbuf | ⟨q, -, hbuf⟩ <;> simp [hbuf]
    rcases cut_cases hkey hcut with rfl | ⟨hp, hset, -⟩
    · exact ⟨Nat.lt_succ_of_le hle, hlength⟩
    · exact ⟨by omega, by rw [hset, List.length_set, hlength]⟩

theorem loop_eq (fuel : Nat) (s : KeyValueParser) :
    loop fuel s = CursorLoop.loop (fun s => s.buf[s.p]?) round fuel s := by
  induction fuel generalizing s with
  | zero => rfl
  | succ fuel ih =>
      have hrest : loop fuel =
          CursorLoop.loop (fun s => s.buf[s.p]?) round fuel := funext ih
      cases hbuf : s.buf[s.p]? with
      | none => simp only [loop, CursorLoop.loop, hbuf]
      | some c => simp only [loop, CursorLoop.loop, hbuf, hrest]

/-- The loop makes the passes there are, if it may make enough of them. -/
theorem loop_of_rounds {s t : KeyValueParser} (hrounds : Rounds s t)
    (hstop : t.buf[t.p]? = some 0) {fuel : Nat}
    (hfuel : s.buf.length < s.p + fuel) : loop fuel s = some t := by
  rw [loop_eq]
  have hlt (s : KeyValueParser) (c : UInt8) (hc : s.buf[s.p]? = some c) :
      s.p < s.buf.length := (List.getElem?_eq_some_iff.mp hc).1
  refine CursorLoop.loop_of_rounds (fun s => s.buf.length - s.p)
    (fun s c hc => Nat.sub_pos_of_lt (hlt s c hc)) ?_ hrounds hstop (by omega)
  intro s t hround
  obtain ⟨hp, hlength⟩ := Round.advances hround
  obtain ⟨c, hc, -⟩ := hround.1
  have hs := hlt s c hc
  omega

/-- The loop goes through the passes there are. -/
theorem loop_after_rounds {s t r : KeyValueParser} (hrounds : Rounds s t)
    {fuel : Nat} (hloop : loop fuel s = some r) :
    ∃ fuel', loop fuel' t = some r := by
  simp only [loop_eq] at hloop ⊢
  exact CursorLoop.loop_after_rounds hrounds hloop

/-! ### A value for a key of one character -/

/-- The key begins with `a=`, and the parser is past it. -/
def Stuck (a : UInt8) (s : KeyValueParser) : Prop :=
  a ≠ 0 ∧ ∃ position more, s.key = some position ∧ position + 2 ≤ s.p ∧
    s.buf.drop position = a :: EQUALS :: more

theorem drop_set_of_le {buf more : List UInt8} {a : UInt8} {position q : Nat}
    (hbuf : buf.drop position = a :: EQUALS :: more) (hle : position + 2 ≤ q) :
    ∃ more', (buf.set q 0).drop position = a :: EQUALS :: more' := by
  obtain ⟨i, hi⟩ : ∃ i, q - position = i + 2 := ⟨q - position - 2, by omega⟩
  refine ⟨more.set i 0, ?_⟩
  rw [List.drop_set, if_neg (by omega), hbuf, hi]
  rfl

theorem stringAt_ne {buf more : List UInt8} {a : UInt8} {position : Nat}
    (hzero : a ≠ 0) (hbuf : buf.drop position = a :: EQUALS :: more) :
    stringAt buf position ≠ [a] := by
  rw [stringAt, hbuf]
  simp [CString.ofMemory, hzero, EQUALS]

/-- A stuck parser stays stuck until it makes its call, and the call has not the
key `a`. -/
theorem Stuck.round {a : UInt8} {s t : KeyValueParser} (hs : s.Stuck a)
    (hround : s.round = some t) :
    t.Stuck a ∧ t.calls = s.calls ∨
      ∃ wrong, wrong.key ≠ [a] ∧ t.calls = s.calls ++ [wrong] := by
  obtain ⟨hzero, position, more, hkey, hle, hbuf⟩ := hs
  rcases round_cases hround with ⟨-, hnone, -⟩ |
    ⟨u, position', hcut, hp, hcalls, hu, hsame, hset⟩
  · simp [hkey] at hnone
  · obtain rfl : position = position' := by
      rcases hsame with hsame | hsame
      · exact Option.some.inj (hkey.symm.trans hsame)
      · simp [hkey] at hsame
    obtain ⟨more', hmore⟩ : ∃ more',
        u.buf.drop position = a :: EQUALS :: more' := by
      rcases hset with hset | ⟨q, hq, hset⟩
      · exact ⟨more, by rw [hset, hbuf]⟩
      · rw [hset]
        exact drop_set_of_le hbuf (by omega)
    rcases cut_cases hu hcut with rfl | ⟨-, -, value, hcalled⟩
    · exact .inl ⟨⟨hzero, position, more', hu, by simp only; omega, hmore⟩,
        hcalls⟩
    · obtain ⟨more'', hcutBuf⟩ := drop_set_of_le hmore
        (show position + 2 ≤ u.p by omega)
      exact .inr ⟨_, stringAt_ne hzero hcutBuf, by rw [hcalled, hcalls]⟩

theorem round_extends_calls {s t : KeyValueParser} (hround : s.round = some t) :
    s.calls <+: t.calls := by
  rcases round_cases hround with ⟨rfl, -, -⟩ |
    ⟨u, position, hcut, -, hcalls, hu, -, -⟩
  · exact List.prefix_rfl
  · rw [← hcalls]
    rcases cut_cases hu hcut with rfl | ⟨-, -, value, hcalled⟩
    · exact List.prefix_rfl
    · exact ⟨_, hcalled.symm⟩

theorem loop_extends_calls {fuel : Nat} {s r : KeyValueParser}
    (hloop : loop fuel s = some r) : s.calls <+: r.call.calls := by
  induction fuel generalizing s with
  | zero => cases hloop
  | succ fuel ih =>
      rw [loop] at hloop
      split at hloop
      · cases hloop
      · split at hloop
        · obtain rfl := Option.some.inj hloop
          unfold call
          split
          · exact List.prefix_rfl
          · exact List.prefix_append _ _
        · obtain ⟨t, hround, hrest⟩ := Option.bind_eq_some_iff.mp hloop
          exact (round_extends_calls hround).trans (ih hrest)

/-- The next call of a stuck parser has not the key `a`. -/
theorem Stuck.loop {a : UInt8} {fuel : Nat} {s r : KeyValueParser}
    (hs : s.Stuck a) (hloop : KeyValueParser.loop fuel s = some r) :
    ∃ wrong, wrong.key ≠ [a] ∧ r.call.calls[s.calls.length]? = some wrong := by
  induction fuel generalizing s with
  | zero => cases hloop
  | succ fuel ih =>
      rw [KeyValueParser.loop] at hloop
      split at hloop
      · cases hloop
      · split at hloop
        · obtain rfl := Option.some.inj hloop
          obtain ⟨hzero, position, more, hkey, -, hbuf⟩ := hs
          exact ⟨⟨s.calls.length, stringAt s.buf position,
            s.value.map (stringAt s.buf)⟩, stringAt_ne hzero hbuf,
            by simp [call, hkey]⟩
        · obtain ⟨t, hround, hrest⟩ := Option.bind_eq_some_iff.mp hloop
          rcases hs.round hround with ⟨ht, hcalls⟩ | ⟨wrong, hwrong, hcalls⟩
          · rw [← hcalls]
            exact ih ht hrest
          · obtain ⟨later, hlater⟩ := loop_extends_calls hrest
            refine ⟨wrong, hwrong, ?_⟩
            rw [← hlater, hcalls]
            simp

/-- The pass that begins a key of one character skips the `=` behind it. -/
theorem stuck_of_not_readable {item : KeyValueItem} (hitem : ¬ item.Readable)
    (before : List UInt8) {blank : List UInt8} (hblank : Blank blank)
    (rest : List UInt8) (calls : List KeyValueCall) :
    ∃ a t, item.key.bytes = [a] ∧ t.Stuck a ∧ t.calls = calls ∧
      Rounds (reading before (blank ++ (item.text ++ rest)) none none calls)
        t := by
  obtain ⟨⟨bytes, hne, chars⟩, value⟩ := item
  simp only [KeyValueItem.Readable, Classical.not_imp, Nat.not_le] at hitem
  obtain ⟨hvalue, hlength⟩ := hitem
  rcases bytes with _ | ⟨a, _ | ⟨d, keyRest⟩⟩
  · exact absurd rfl hne
  · cases value with
    | none => exact absurd rfl hvalue
    | some value =>
        obtain ⟨ha, -, hspace⟩ := chars a List.mem_cons_self
        let t := reading ((before ++ blank) ++ [a] ++ [EQUALS])
          (value.text ++ rest) (some (before ++ blank).length) none calls
        have hround : Round
            (reading before (blank ++ a :: EQUALS :: (value.text ++ rest)) none
              none calls) t :=
          ⟨current_ne_zero hblank ha,
            (beginKey_go hblank ha hspace).trans (cut_go rfl)⟩
        refine ⟨a, t, rfl, ⟨ha, (before ++ blank).length, value.text ++ rest, rfl,
          ?_, ?_⟩, rfl, ?_⟩
        · simp [t, reading]
          omega
        · change List.drop _ (before ++ blank ++ [a] ++ [EQUALS] ++ _) = _
          rw [List.append_assoc, List.append_assoc, List.drop_left]
          rfl
        · simpa [KeyValueItem.text] using Relation.ReflTransGen.single hround
  · simp only [List.length_cons] at hlength
    omega

theorem exists_stuck (entries : List (KeyValueItem × List UInt8))
    (hblanks : ∀ entry ∈ entries, Blank entry.2 ∧ entry.2 ≠ [])
    (last : KeyValueItem)
    (hbad : ¬ ∀ item ∈ entries.map Prod.fst ++ [last], item.Readable)
    (before : List UInt8) {blank : List UInt8} (hblank : Blank blank)
    (rest : List UInt8) (calls : List KeyValueCall) :
    ∃ i item a t, (entries.map Prod.fst ++ [last])[i]? = some item ∧
      item.key.bytes = [a] ∧ t.Stuck a ∧ t.calls.length = calls.length + i ∧
      Rounds (reading before
        (blank ++ (itemsText entries ++ (last.text ++ rest))) none none calls)
        t := by
  induction entries generalizing before blank calls with
  | nil =>
      have hlast : ¬ last.Readable := by simpa using hbad
      obtain ⟨a, t, hkey, ht, hcalls, hrounds⟩ :=
        stuck_of_not_readable hlast before hblank rest calls
      exact ⟨0, last, a, t, rfl, hkey, ht, by rw [hcalls]; rfl, hrounds⟩
  | cons entry entries ih =>
      obtain ⟨item, separator⟩ := entry
      by_cases hitem : item.Readable
      · obtain ⟨hseparator, hne⟩ := hblanks _ List.mem_cons_self
        cases separator with
        | nil => exact absurd rfl hne
        | cons c separator =>
            have hc : isspace c = true := hseparator c List.mem_cons_self
            obtain ⟨next, hnext⟩ := (@item_done before
              (separator ++ (itemsText entries ++ (last.text ++ rest))) calls c
              item hitem blank hblank (.inl hc)).1 hc
            have hbad' : ¬ ∀ item ∈ entries.map Prod.fst ++ [last],
                item.Readable := by
              intro hall
              apply hbad
              intro other hother
              rcases List.mem_cons.mp hother with rfl | hmem
              · exact hitem
              · exact hall other hmem
            obtain ⟨i, bad, a, t, hget, hkey, ht, hlength, hrounds⟩ := ih
              (fun entry hentry =>
                hblanks entry (List.mem_cons_of_mem _ hentry)) hbad' next
              (fun d hd => hseparator d (List.mem_cons_of_mem _ hd))
              (calls ++ [item.call calls.length])
            refine ⟨i + 1, bad, a, t, hget, hkey, ht, ?_, ?_⟩
            · rw [hlength, List.length_append, List.length_singleton]
              omega
            · simpa [itemsText, List.append_assoc] using hnext.trans hrounds
      · obtain ⟨a, t, hkey, ht, hcalls, hrounds⟩ := stuck_of_not_readable hitem
          before hblank (separator ++ (itemsText entries ++ (last.text ++ rest)))
          calls
        refine ⟨0, item, a, t, rfl, hkey, ht, by rw [hcalls]; rfl, ?_⟩
        simpa [itemsText, List.append_assoc] using hrounds

end KeyValueParser

theorem callsFrom_append_singleton (index : Nat) (items : List KeyValueItem)
    (last : KeyValueItem) :
    callsFrom index (items ++ [last]) =
      callsFrom index items ++ [last.call (index + items.length)] := by
  induction items generalizing index with
  | nil => rfl
  | cons item items ih =>
      simp only [List.cons_append, callsFrom, ih, List.length_cons]
      rw [Nat.add_right_comm, Nat.add_assoc]

theorem length_callsFrom (index : Nat) (items : List KeyValueItem) :
    (callsFrom index items).length = items.length := by
  induction items generalizing index with
  | nil => rfl
  | cons item items ih => simp [callsFrom, ih]

theorem getElem?_callsFrom (index i : Nat) (items : List KeyValueItem) :
    (callsFrom index items)[i]? = items[i]?.map (·.call (index + i)) := by
  induction items generalizing index i with
  | nil => simp [callsFrom]
  | cons item items ih =>
      cases i with
      | zero => simp [callsFrom]
      | succ i =>
          simp only [callsFrom, List.getElem?_cons_succ, ih]
          rw [Nat.add_right_comm, Nat.add_assoc]

/-- A short string is followed by zeros to the end of the buffer. -/
theorem strncpyBuf_eq {str : CString} (hlength : str.bytes.length < 2047) :
    (strncpyBuf str).length = MAX_STR_LEN ∧
      ∃ rest, strncpyBuf str = str.bytes ++ 0 :: 0 :: rest := by
  have hset : strncpyBuf str =
      str.bytes ++ List.replicate (MAX_STR_LEN - str.bytes.length) 0 := by
    rw [strncpyBuf, CString.take_padded (by unfold MAX_STR_LEN; omega) le_rfl,
      List.set_append_right _ _ (by unfold MAX_STR_LEN; omega),
      List.set_replicate_self]
  obtain ⟨n, hn⟩ : ∃ n, MAX_STR_LEN - str.bytes.length = n + 2 :=
    ⟨MAX_STR_LEN - str.bytes.length - 2, by unfold MAX_STR_LEN; omega⟩
  rw [hset]
  refine ⟨?_, List.replicate n 0, ?_⟩
  · rw [List.length_append, List.length_replicate]
    unfold MAX_STR_LEN
    omega
  · rw [hn, List.replicate_succ, List.replicate_succ]

/-- What holds of the calls of a run over a short string and the NULs behind it
holds of the calls that are made. -/
theorem parseKeyValueStr_of_rounds {str : CString}
    (hlength : str.bytes.length < 2046) {P : List KeyValueCall → Prop}
    (hrun : ∀ rest, ∃ t calls, KeyValueParser.Rounds
      (.reading [] (str.bytes ++ 0 :: 0 :: rest) none none []) t ∧
        t.Ends calls ∧ P calls) :
    ∃ calls, parseKeyValueStr str = some calls ∧ P calls := by
  obtain ⟨hbuf, rest, hrest⟩ := strncpyBuf_eq (Nat.lt_succ_of_lt hlength)
  obtain ⟨t, calls, hrounds, ⟨hend, hcalls⟩, hP⟩ := hrun rest
  have hloop := KeyValueParser.loop_of_rounds hrounds hend
    (show _ < 0 + (MAX_STR_LEN + 1) by
      rw [KeyValueParser.reading, List.nil_append, ← hrest, hbuf]
      exact Nat.lt_of_lt_of_eq (Nat.lt_succ_self _) (Nat.zero_add _).symm)
  have hstart : (⟨strncpyBuf str, 0, none, none, []⟩ : KeyValueParser) =
      .reading [] (str.bytes ++ 0 :: 0 :: rest) none none [] := by
    rw [hrest]
    rfl
  exact ⟨calls, by rw [parseKeyValueStr, hstart, hloop, Option.map_some, hcalls],
    hP⟩

open KeyValueParser in
/-- A text of the grammar that is short enough leads to one call for each item,
with the key and the value of the item, exactly if no key of one character has a
value. -/
theorem parseKeyValueStr_iff (doc : KeyValueText) (str : CString)
    (htext : str.bytes = doc.text) (hlength : doc.text.length < 2046) :
    parseKeyValueStr str = some (callsFrom 0 doc.items) ↔
      ∀ item ∈ doc.items, item.Readable := by
  constructor
  · intro hparse
    obtain ⟨-, rest, hrest⟩ :=
      strncpyBuf_eq (Nat.lt_succ_of_lt (htext ▸ hlength))
    have hstart : (⟨strncpyBuf str, 0, none, none, []⟩ : KeyValueParser) =
        reading [] (doc.lead ++ (itemsText doc.front ++
          (doc.last.text ++ (doc.trail ++ 0 :: 0 :: rest)))) none none [] := by
      simp [reading, hrest, htext, KeyValueText.text]
    by_contra hbad
    obtain ⟨r, hloop, hcalls⟩ := Option.map_eq_some_iff.mp hparse
    obtain ⟨i, item, a, t, hget, hkey, ht, hi, hrounds⟩ := exists_stuck doc.front
      doc.front_blank doc.last hbad [] doc.lead_blank
      (doc.trail ++ 0 :: 0 :: rest) []
    rw [← hstart] at hrounds
    obtain ⟨fuel, hafter⟩ := loop_after_rounds hrounds hloop
    obtain ⟨wrong, hwrong, hcall⟩ := ht.loop hafter
    rw [hcalls, getElem?_callsFrom, hi] at hcall
    have hitems : doc.items[i]? = some item := hget
    simp only [List.length_nil, Nat.zero_add, hitems, Option.map_some,
      Option.some.injEq] at hcall
    exact hwrong (hcall ▸ hkey)
  · intro hreadable
    suffices hcalls : ∃ calls, parseKeyValueStr str = some calls ∧
        calls = callsFrom 0 doc.items by
      obtain ⟨calls, hparse, rfl⟩ := hcalls
      exact hparse
    refine parseKeyValueStr_of_rounds (htext ▸ hlength) fun rest => ?_
    obtain ⟨before, blank, hblank, hfront⟩ := items_done doc.front
      (fun entry hentry => hreadable entry.1 (List.mem_append_left _
        (List.mem_map_of_mem hentry))) doc.front_blank [] doc.lead_blank
      (doc.last.text ++ (doc.trail ++ 0 :: 0 :: rest)) []
    obtain ⟨t, hlast, hends⟩ := last_done
      (hreadable doc.last (List.mem_append_right _ (by simp))) before hblank
      doc.trail_blank rest ([] ++ callsFrom 0 (doc.front.map Prod.fst))
    refine ⟨t, _, ?_, hends, ?_⟩
    · simpa [htext, KeyValueText.text] using hfront.trans hlast
    · rw [KeyValueText.items, callsFrom_append_singleton]
      simp [length_callsFrom]

/-- The text `ab='1' c`. -/
def quotedAndBare : KeyValueText where
  lead := []
  front := [(⟨⟨[97, 98], by simp, by simp [EQUALS, isspace]⟩,
    some (.quoted 39 [49] rfl (by simp))⟩, [32])]
  last := ⟨⟨[99], by simp, by simp [EQUALS, isspace]⟩, none⟩
  trail := []
  lead_blank := fun c hc => by cases hc
  front_blank := fun entry hentry => by
    obtain rfl := List.mem_singleton.mp hentry
    exact ⟨fun c hc => List.mem_singleton.mp hc ▸ rfl, by simp⟩
  trail_blank := fun c hc => by cases hc

theorem parseKeyValueStr_iff_quotedAndBare :
    parseKeyValueStr ⟨[97, 98, 61, 39, 49, 39, 32, 99], by decide⟩ =
      some [⟨0, [97, 98], some [39, 49, 39]⟩, ⟨1, [99], none⟩] := by
  refine (parseKeyValueStr_iff quotedAndBare _ rfl (by decide)).mpr ?_
  intro item hitem hvalue
  simp only [KeyValueText.items, quotedAndBare, List.map_cons, List.map_nil,
    List.cons_append, List.nil_append, List.mem_cons, List.not_mem_nil,
    or_false] at hitem
  rcases hitem with rfl | rfl
  · decide
  · exact absurd rfl hvalue

/-- The text `a=1`. -/
def shortKey : KeyValueText where
  lead := []
  front := []
  last := ⟨⟨[97], by simp, by simp [EQUALS, isspace]⟩,
    some (.plain [49] (by simp [isspace]) (fun c hc => by cases hc; rfl))⟩
  trail := []
  lead_blank := fun c hc => by cases hc
  front_blank := fun entry hentry => by cases hentry
  trail_blank := fun c hc => by cases hc

/-- All of `a=1` is taken for a key. -/
theorem shortKey_misread :
    (⟨[97, 61, 49], by decide⟩ : CString).bytes = shortKey.text ∧
      parseKeyValueStr ⟨[97, 61, 49], by decide⟩ =
        some [⟨0, [97, 61, 49], none⟩] ∧
      parseKeyValueStr ⟨[97, 61, 49], by decide⟩ ≠
        some (callsFrom 0 shortKey.items) := by
  have hparse : parseKeyValueStr ⟨[97, 61, 49], by decide⟩ =
      some [⟨0, [97, 61, 49], none⟩] := by decide +kernel
  refine ⟨rfl, hparse, ?_⟩
  rw [hparse]
  decide

end MyDirectFB

/-
The grammar of command lines: arguments, plain or between quotes, with white
space between them.  The arguments are split as they should be exactly if the
last one is not a plain character at the very end of the line: the pass that
finds the start of an argument steps over it, and the loop stops at the NUL
behind it.
-/
import MyDirectFB.Popen2
import MyDirectFB.KeyValueGrammar

namespace MyDirectFB

open Scan

inductive ArgText where
  | plain (bytes : List UInt8) (ne_nil : bytes ≠ [])
      (chars : ∀ c ∈ bytes, c ≠ 0 ∧ isspace c = false)
      (start : ∀ c, bytes.head? = some c → IS_QUOTE c = false)
  | quoted (quote : UInt8) (body : List UInt8) (isQuote : IS_QUOTE quote = true)
      (chars : ∀ c ∈ body, c ≠ 0 ∧ c ≠ quote)

namespace ArgText

def text : ArgText → List UInt8
  | plain bytes _ _ _ => bytes
  | quoted quote body _ _ => quote :: (body ++ [quote])

/-- The argument itself, without quotes. -/
def arg : ArgText → List UInt8
  | plain bytes _ _ _ => bytes
  | quoted _ body _ _ => body

end ArgText

/-- Arguments that are each followed by white space. -/
def argsText (args : List (ArgText × List UInt8)) : List UInt8 :=
  args.flatMap fun entry => entry.1.text ++ entry.2

/-- A command line: one or more arguments with white space between them, and
possibly before the first and after the last. -/
structure CommandLine where
  lead : List UInt8
  front : List (ArgText × List UInt8)
  last : ArgText
  trail : List UInt8
  lead_blank : Blank lead
  front_blank : ∀ entry ∈ front, Blank entry.2 ∧ entry.2 ≠ []
  trail_blank : Blank trail

namespace CommandLine

def text (line : CommandLine) : List UInt8 :=
  line.lead ++ (argsText line.front ++ (line.last.text ++ line.trail))

def args (line : CommandLine) : List (List UInt8) :=
  line.front.map (fun entry => entry.1.arg) ++ [line.last.arg]

/-- The last argument has more than one character, counting its quotes, or is
followed by white space. -/
def LastRead (line : CommandLine) : Prop :=
  line.last.text.length ≠ 1 ∨ line.trail ≠ []

end CommandLine

theorem ne_zero_of_isspace {c : UInt8} (hc : isspace c = true) : c ≠ 0 := by
  rintro rfl
  exact Bool.noConfusion hc

theorem Blank.zero_not_mem {blank : List UInt8} (hblank : Blank blank) :
    0 ∉ blank :=
  fun hmem => ne_zero_of_isspace (hblank 0 hmem) rfl

namespace ArgMaker

/-! ### Passes -/

/-- The splitter with `before` behind it and `after` still to be read. -/
def reading (before after : List UInt8) (start : Option Nat)
    (argv : List (List UInt8)) : ArgMaker :=
  ⟨before ++ after, before.length, start, argv⟩

abbrev Rounds : ArgMaker → ArgMaker → Prop :=
  CursorLoop.Rounds current round

variable {before after rest : List UInt8} {argv : List (List UInt8)}
  {c stop : UInt8}

theorem current_reading {start : Option Nat} :
    (reading before (c :: rest) start argv).current = some c := by
  simp [current, reading]

/-- The pass that finds the start of an argument steps over its first byte. -/
theorem round_start {blank : List UInt8} (hblank : Blank blank) (hzero : c ≠ 0)
    (hc : isspace c = false) :
    (reading before (blank ++ c :: rest) none argv).round =
      some (reading ((before ++ blank) ++ [c]) rest
        (some (before ++ blank).length) argv) := by
  have hskip := skipWhile_stop before hblank hc rest
  simp only [round, reading, hskip]
  simp [hzero, Nat.add_assoc]

theorem round_end {blank : List UInt8} (hblank : Blank blank) :
    (reading before (blank ++ 0 :: rest) none argv).round =
      some (reading (before ++ blank) (0 :: rest) none argv) := by
  have hskip := skipWhile_stop before hblank isspace_zero rest
  simp only [round, reading, hskip]
  simp

/-- The scan of an argument that stops before the NUL. -/
theorem endArg_cut {inArg : UInt8 → Bool} {argRest : List UInt8}
    (harg : ∀ d ∈ argRest, d ≠ 0 ∧ inArg d = true) (hzero : stop ≠ 0)
    (hstop : inArg stop = false) (start : Option Nat) (position cut : Nat) :
    (reading before (argRest ++ stop :: rest) start argv).endArg inArg position
        cut =
      some (reading (before ++ argRest ++ [0]) rest none
        (argv ++ [stringAt (before ++ argRest ++ 0 :: rest) cut])) := by
  have hrun (d : UInt8) (hd : d ∈ argRest) : (d ≠ 0 && inArg d) = true := by
    simp [harg d hd]
  have hskip := skipWhile_stop before hrun
    (show (stop ≠ 0 && inArg stop) = false by simp [hstop]) rest
  simp only [endArg, reading, hskip]
  simp [hzero, Nat.add_assoc]

/-- The scan of an argument that ends at the NUL. -/
theorem endArg_end {inArg : UInt8 → Bool} {argRest : List UInt8}
    (harg : ∀ d ∈ argRest, d ≠ 0 ∧ inArg d = true) (hbefore : before ≠ [])
    (start : Option Nat) (position cut : Nat) :
    (reading before (argRest ++ 0 :: rest) start argv).endArg inArg position
        cut =
      some (reading (before ++ argRest) (0 :: rest) none
        (argv ++ [stringAt (before ++ argRest ++ 0 :: rest) position])) := by
  have hrun (d : UInt8) (hd : d ∈ argRest) : (d ≠ 0 && inArg d) = true := by
    simp [harg d hd]
  have hstop : ((0 : UInt8) ≠ 0 && inArg 0) = false := by simp
  have hskip := skipWhile_stop before hrun hstop rest
  have hlength : before.length + argRest.length - 1 + 1 =
      before.length + argRest.length := by
    have hpos := List.length_pos_iff.mpr hbefore
    omega
  simp only [endArg, reading, hskip]
  simp [hlength]

/-- The pass that ends a plain argument. -/
theorem round_plain {argRest : List UInt8} (hquote : IS_QUOTE c = false) :
    (reading (before ++ [c]) (argRest ++ rest) (some before.length) argv).round =
      (reading (before ++ [c]) (argRest ++ rest) (some before.length)
        argv).endArg (fun d => !isspace d) before.length before.length := by
  have hget : (before ++ [c] ++ (argRest ++ rest))[before.length]? = some c := by
    simp
  simp only [round, reading, hget, hquote]
  rfl

theorem round_quoted {body : List UInt8} (hquote : IS_QUOTE c = true) :
    (reading (before ++ [c]) (body ++ rest) (some before.length) argv).round =
      (reading (before ++ [c]) (body ++ rest) (some before.length)
        argv).endArg (fun d => c ≠ d) before.length (before.length + 1) := by
  have hget : (before ++ [c] ++ (body ++ rest))[before.length]? = some c := by
    simp
  simp only [round, reading, hget, hquote]
  rfl

theorem zero_not_mem_of_chars {bytes : List UInt8}
    (hchars : ∀ d ∈ bytes, d ≠ 0 ∧ isspace d = false) : 0 ∉ bytes :=
  fun hmem => (hchars 0 hmem).1 rfl

theorem current_ne_zero {front : List UInt8} {start : Option Nat}
    (hfront : 0 ∉ front) (hstop : stop ≠ 0) :
    ∃ d, (reading before (front ++ stop :: rest) start argv).current = some d ∧
      d ≠ 0 := by
  cases front with
  | nil => exact ⟨stop, current_reading, hstop⟩
  | cons d front =>
      refine ⟨d, current_reading, ?_⟩
      rintro rfl
      exact hfront List.mem_cons_self

/-- What is copied of the buffer from behind `before` to a NUL. -/
theorem stringAt_cut {bytes : List UInt8} (hbytes : 0 ∉ bytes) :
    stringAt (before ++ bytes ++ 0 :: rest) before.length = bytes := by
  rw [List.append_assoc]
  exact stringAt_append before hbytes rest

/-- A plain argument that is followed by white space. -/
theorem rounds_plain {blank bytes : List UInt8} (hblank : Blank blank)
    (hne : bytes ≠ []) (hchars : ∀ d ∈ bytes, d ≠ 0 ∧ isspace d = false)
    (hstart : ∀ d, bytes.head? = some d → IS_QUOTE d = false)
    (hstop : isspace stop = true) :
    Rounds (reading before (blank ++ (bytes ++ stop :: rest)) none argv)
      (reading (before ++ blank ++ bytes ++ [0]) rest none (argv ++ [bytes])) := by
  have hzeros := zero_not_mem_of_chars hchars
  cases bytes with
  | nil => exact absurd rfl hne
  | cons c argRest =>
      obtain ⟨hzero, hc⟩ := hchars c List.mem_cons_self
      have hargRest (d : UInt8) (hd : d ∈ argRest) :
          d ≠ 0 ∧ (!isspace d) = true := by
        simpa using hchars d (List.mem_cons_of_mem c hd)
      have hlater : 0 ∉ argRest := fun hmem => (hargRest 0 hmem).1 rfl
      have hfirst := @round_start before (argRest ++ stop :: rest) argv c blank
        hblank hzero hc
      have hsecond := (@round_plain (before ++ blank) (stop :: rest) argv c argRest
        (hstart c rfl)).trans (endArg_cut hargRest (ne_zero_of_isspace hstop)
          (by simp [hstop]) _ _ _)
      have hbehind (more : List UInt8) : before ++ blank ++ [c] ++ argRest ++ more =
          before ++ blank ++ (c :: argRest) ++ more := by simp
      rw [hbehind, hbehind, stringAt_cut hzeros] at hsecond
      exact .tail (.single ⟨current_ne_zero hblank.zero_not_mem hzero, hfirst⟩)
        ⟨current_ne_zero hlater (ne_zero_of_isspace hstop), hsecond⟩

/-- A plain argument of more than one character at the end of the line. -/
theorem rounds_plain_end {blank bytes : List UInt8} (hblank : Blank blank)
    (hlength : 2 ≤ bytes.length)
    (hchars : ∀ d ∈ bytes, d ≠ 0 ∧ isspace d = false)
    (hstart : ∀ d, bytes.head? = some d → IS_QUOTE d = false) :
    Rounds (reading before (blank ++ (bytes ++ 0 :: rest)) none argv)
      (reading (before ++ blank ++ bytes) (0 :: rest) none
        (argv ++ [bytes])) := by
  have hzeros := zero_not_mem_of_chars hchars
  rcases bytes with _ | ⟨c, _ | ⟨d, argRest⟩⟩
  · simp at hlength
  · simp at hlength
  · obtain ⟨hzero, hc⟩ := hchars c List.mem_cons_self
    have hargRest (e : UInt8) (he : e ∈ d :: argRest) :
        e ≠ 0 ∧ (!isspace e) = true := by
      simpa using hchars e (List.mem_cons_of_mem c he)
    have hfirst := @round_start before (d :: argRest ++ 0 :: rest) argv c blank
      hblank hzero hc
    have hsecond := (@round_plain (before ++ blank) (0 :: rest) argv c
      (d :: argRest) (hstart c rfl)).trans (endArg_end hargRest (by simp) _ _ _)
    have hbehind (more : List UInt8) :
        before ++ blank ++ [c] ++ d :: argRest ++ more =
          before ++ blank ++ (c :: d :: argRest) ++ more := by simp
    have hall := hbehind []
    rw [List.append_nil, List.append_nil] at hall
    rw [hbehind, hall, stringAt_cut hzeros] at hsecond
    exact .tail (.single ⟨current_ne_zero hblank.zero_not_mem hzero, hfirst⟩)
      ⟨⟨d, current_reading, (hargRest d List.mem_cons_self).1⟩, hsecond⟩

/-- An argument between quotes. -/
theorem rounds_quoted {blank body : List UInt8} {quote : UInt8}
    (hblank : Blank blank) (hquote : IS_QUOTE quote = true)
    (hbody : ∀ d ∈ body, d ≠ 0 ∧ d ≠ quote) :
    Rounds (reading before (blank ++ (quote :: (body ++ [quote]) ++ rest)) none
        argv)
      (reading (before ++ blank ++ quote :: body ++ [0]) rest none
        (argv ++ [body])) := by
  obtain ⟨hzero, hspace⟩ := KeyValueParser.quote_chars hquote
  have hargRest (d : UInt8) (hd : d ∈ body) :
      d ≠ 0 ∧ decide (quote ≠ d) = true :=
    ⟨(hbody d hd).1, by simpa using (hbody d hd).2.symm⟩
  have hlater : 0 ∉ body := fun hmem => (hbody 0 hmem).1 rfl
  have htext : quote :: (body ++ [quote]) ++ rest =
      quote :: (body ++ quote :: rest) := by simp
  have hfirst := @round_start before (body ++ quote :: rest) argv quote blank
    hblank hzero hspace
  have hsecond := (@round_quoted (before ++ blank) (quote :: rest) argv quote body
    hquote).trans (endArg_cut hargRest hzero (by simp) _ _ _)
  have hlength : (before ++ blank).length + 1 =
      (before ++ blank ++ [quote]).length := by simp [Nat.add_assoc]
  have hbehind : before ++ blank ++ [quote] ++ body ++ [0] =
      before ++ blank ++ quote :: body ++ [0] := by simp
  rw [hlength, stringAt_cut hlater, hbehind] at hsecond
  rw [htext]
  exact .tail (.single ⟨current_ne_zero hblank.zero_not_mem hzero, hfirst⟩)
    ⟨current_ne_zero hlater hzero, hsecond⟩

/-! ### Arguments -/

/-- Arguments that are each followed by white space. -/
theorem args_done (args : List (ArgText × List UInt8))
    (hblanks : ∀ entry ∈ args, Blank entry.2 ∧ entry.2 ≠ [])
    (before : List UInt8) {blank : List UInt8} (hblank : Blank blank)
    (rest : List UInt8) (argv : List (List UInt8)) :
    ∃ before' blank', Blank blank' ∧
      Rounds (reading before (blank ++ (argsText args ++ rest)) none argv)
        (reading before' (blank' ++ rest) none
          (argv ++ args.map fun entry => entry.1.arg)) := by
  induction args generalizing before blank argv with
  | nil =>
      refine ⟨before, blank, hblank, ?_⟩
      rw [List.map_nil, List.append_nil]
      exact .refl
  | cons entry args ih =>
      obtain ⟨arg, separator⟩ := entry
      obtain ⟨hseparator, hne⟩ := hblanks _ List.mem_cons_self
      have hlater : ∀ entry ∈ args, Blank entry.2 ∧ entry.2 ≠ [] :=
        fun entry hentry => hblanks entry (List.mem_cons_of_mem _ hentry)
      have htext : blank ++ (argsText ((arg, separator) :: args) ++ rest) =
          blank ++ (arg.text ++ (separator ++ (argsText args ++ rest))) := by
        simp [argsText]
      rw [htext]
      obtain ⟨next, nextBlank, hnextBlank, hnext⟩ : ∃ next nextBlank,
          Blank nextBlank ∧
            Rounds (reading before (blank ++ (arg.text ++ (separator ++
                (argsText args ++ rest)))) none argv)
              (reading next (nextBlank ++ (argsText args ++ rest)) none
                (argv ++ [arg.arg])) := by
        cases arg with
        | plain bytes hbytes hchars hstart =>
            cases separator with
            | nil => exact absurd rfl hne
            | cons c separator =>
                exact ⟨_, separator,
                  fun d hd => hseparator d (List.mem_cons_of_mem c hd),
                  rounds_plain hblank hbytes hchars hstart
                    (hseparator c List.mem_cons_self)⟩
        | quoted quote body hquote hchars =>
            exact ⟨_, separator, hseparator, rounds_quoted hblank hquote hchars⟩
      obtain ⟨before', blank', hblank', hrest⟩ :=
        ih hlater next hnextBlank (argv ++ [arg.arg])
      refine ⟨before', blank', hblank', ?_⟩
      rw [List.append_assoc, List.singleton_append] at hrest
      exact hnext.trans hrest

/-- The loop stops, and the arguments are `argv`. -/
def Ends (s : ArgMaker) (argv : List (List UInt8)) : Prop :=
  s.current = some 0 ∧ s.argv = argv

theorem blank_done {blank : List UInt8} (hblank : Blank blank) :
    ∃ t, Rounds (reading before (blank ++ 0 :: rest) none argv) t ∧
      t.Ends argv := by
  cases blank with
  | nil => exact ⟨_, .refl, current_reading, rfl⟩
  | cons c blank =>
      have hcurrent := ne_zero_of_isspace (hblank c List.mem_cons_self)
      exact ⟨_, .single ⟨⟨c, current_reading, hcurrent⟩, round_end hblank⟩,
        current_reading, rfl⟩

theorem last_done {last : ArgText} {trail : List UInt8}
    (hread : last.text.length ≠ 1 ∨ trail ≠ []) {blank : List UInt8}
    (hblank : Blank blank) (htrail : Blank trail) (before rest : List UInt8)
    (argv : List (List UInt8)) :
    ∃ t, Rounds (reading before
        (blank ++ (last.text ++ (trail ++ 0 :: rest))) none argv) t ∧
      t.Ends (argv ++ [last.arg]) := by
  cases last with
  | plain bytes hne hchars hstart =>
      cases trail with
      | nil =>
          have hlength : 2 ≤ bytes.length := by
            have hpos := List.length_pos_iff.mpr hne
            have htext : bytes.length ≠ 1 := hread.resolve_right fun h => h rfl
            omega
          exact ⟨_, rounds_plain_end hblank hlength hchars hstart,
            current_reading, rfl⟩
      | cons c trail =>
          have hrounds := @rounds_plain before (trail ++ 0 :: rest) argv c blank
            bytes hblank hne hchars hstart (htrail c List.mem_cons_self)
          obtain ⟨t, ht, hends⟩ := @blank_done
            (before ++ blank ++ bytes ++ [0]) rest (argv ++ [bytes]) trail
            fun d hd => htrail d (List.mem_cons_of_mem c hd)
          exact ⟨t, hrounds.trans ht, hends⟩
  | quoted quote body hquote hchars =>
      have hrounds := @rounds_quoted before (trail ++ 0 :: rest) argv blank body
        quote hblank hquote hchars
      obtain ⟨t, ht, hends⟩ := @blank_done
        (before ++ blank ++ quote :: body ++ [0]) rest (argv ++ [body]) trail
        htrail
      exact ⟨t, hrounds.trans ht, hends⟩

/-- A single character at the end of the line is not found to be an argument. -/
theorem last_dropped {last : ArgText} (hlength : last.text.length = 1)
    {blank : List UInt8} (hblank : Blank blank) (before rest : List UInt8)
    (argv : List (List UInt8)) :
    ∃ t, Rounds (reading before (blank ++ (last.text ++ 0 :: rest)) none argv)
        t ∧ t.Ends argv := by
  cases last with
  | plain bytes hne hchars hstart =>
      obtain ⟨c, rfl⟩ := List.length_eq_one_iff.mp hlength
      obtain ⟨hzero, hc⟩ := hchars c List.mem_cons_self
      exact ⟨_, .single ⟨current_ne_zero hblank.zero_not_mem hzero,
        round_start hblank hzero hc⟩, current_reading, rfl⟩
  | quoted quote body hquote hchars =>
      simp [ArgText.text] at hlength

/-! ### The loop -/

theorem endArg_advances {s t : ArgMaker} {inArg : UInt8 → Bool}
    {start cut : Nat} (hcurrent : ∃ c, s.current = some c ∧ c ≠ 0)
    (hend : s.endArg inArg start cut = some t) :
    s.p < t.p ∧ t.buf.length = s.buf.length := by
  have hle := le_skipWhile (fun c => c ≠ 0 && inArg c) s.buf s.p
  unfold endArg at hend
  dsimp only at hend
  split at hend
  · cases hend
  · rename_i c hc
    split at hend
    · rename_i hzero
      cases hend
      obtain ⟨d, hd, hne⟩ := hcurrent
      have hmoved : s.p ≠ skipWhile (fun c => c ≠ 0 && inArg c) s.buf s.p := by
        intro heq
        rw [current, heq, hc, hzero] at hd
        exact hne (Option.some.inj hd).symm
      exact ⟨by dsimp only; omega, rfl⟩
    · cases hend
      exact ⟨by dsimp only; omega, List.length_set⟩

/-- Every pass moves on in the buffer. -/
theorem round_advances {s t : ArgMaker}
    (hround : CursorLoop.Round current round s t) :
    s.p < t.p ∧ t.buf.length = s.buf.length := by
  obtain ⟨hcurrent, hnext⟩ := hround
  have hle := le_skipWhile isspace s.buf s.p
  unfold round at hnext
  split at hnext
  · dsimp only at hnext
    split at hnext
    · cases hnext
    · rename_i c hc
      split at hnext
      · rename_i hzero
        cases hnext
        obtain ⟨d, hd, hne⟩ := hcurrent
        have hmoved : s.p ≠ skipWhile isspace s.buf s.p := by
          intro heq
          rw [current, heq, hc, hzero] at hd
          exact hne (Option.some.inj hd).symm
        exact ⟨by dsimp only; omega, rfl⟩
      · cases hnext
        exact ⟨by dsimp only; omega, rfl⟩
  · split at hnext
    · cases hnext
    · split at hnext
      · exact endArg_advances hcurrent hnext
      · exact endArg_advances hcurrent hnext

theorem loop_of_rounds {s t : ArgMaker} (hrounds : Rounds s t)
    (hstop : t.current = some 0) {fuel : Nat} (hfuel : s.buf.length ≤ fuel) :
    CursorLoop.loop current round fuel s = some t := by
  have hlt (s : ArgMaker) (c : UInt8) (hc : s.current = some c) :
      s.p < s.buf.length := (List.getElem?_eq_some_iff.mp hc).1
  refine CursorLoop.loop_of_rounds (fun s => s.buf.length - s.p)
    (fun s c hc => Nat.sub_pos_of_lt (hlt s c hc)) ?_ hrounds hstop (by omega)
  intro s t hround
  obtain ⟨hp, hlength⟩ := round_advances hround
  obtain ⟨c, hc, -⟩ := hround.1
  have hs := hlt s c hc
  omega

end ArgMaker

theorem commandBuf_eq {command : CString}
    (hlength : command.bytes.length < 4095) :
    (commandBuf command).length = MAX_CMDLINE ∧
      ∃ rest, commandBuf command = command.bytes ++ 0 :: rest := by
  have htake : (command.bytes ++ List.replicate MAX_CMDLINE 0).take
      (MAX_CMDLINE - 1) = command.bytes ++
        List.replicate (4095 - command.bytes.length) 0 :=
    CString.take_padded (Nat.le_of_lt hlength) (Nat.sub_le _ _)
  obtain ⟨n, hn⟩ : ∃ n, 4095 - command.bytes.length = n + 1 :=
    ⟨4095 - command.bytes.length - 1, by omega⟩
  rw [commandBuf, htake]
  refine ⟨?_, List.replicate n 0 ++ [0], ?_⟩
  · rw [List.length_append, List.length_append, List.length_replicate,
      List.length_singleton]
    unfold MAX_CMDLINE
    omega
  · rw [hn, List.replicate_succ]
    simp

open ArgMaker in
/-- A command line of the grammar that is short enough is split into its
arguments, followed by a null pointer, exactly if the last is not a single
character at the very end. -/
theorem makeArgs_iff (line : CommandLine) (command : CString)
    (htext : command.bytes = line.text) (hlength : line.text.length < 4095) :
    makeArgs (some command) = some (some (line.args.map some ++ [none])) ↔
      line.LastRead := by
  obtain ⟨hbuf, rest, hrest⟩ := commandBuf_eq (htext ▸ hlength)
  have hstart : (⟨commandBuf command, 0, none, []⟩ : ArgMaker) =
      reading [] (line.lead ++ (argsText line.front ++
        (line.last.text ++ (line.trail ++ 0 :: rest)))) none [] := by
    simp [reading, hrest, htext, CommandLine.text]
  obtain ⟨before, blank, hblank, hfront⟩ := args_done line.front
    line.front_blank [] line.lead_blank
    (line.last.text ++ (line.trail ++ 0 :: rest)) []
  have hresult {t : ArgMaker} {argv : List (List UInt8)}
      (hlast : Rounds (reading before (blank ++ (line.last.text ++
        (line.trail ++ 0 :: rest))) none (line.front.map fun entry =>
          entry.1.arg)) t) (hends : t.Ends argv) :
      makeArgs (some command) =
        some (if argv = [] then none else some (argv.map some ++ [none])) := by
    have hloop := loop_of_rounds (hfront.trans hlast) hends.1
      (show _ ≤ MAX_CMDLINE + 1 by
        rw [← hstart, hbuf]
        omega)
    rw [← hstart] at hloop
    rw [makeArgs, hloop, Option.map_some, hends.2]
  by_cases hread : line.LastRead
  · obtain ⟨t, hlast, hends⟩ := last_done hread hblank line.trail_blank before
      rest (line.front.map fun entry => entry.1.arg)
    rw [hresult hlast hends, if_neg (by simp)]
    exact iff_of_true rfl hread
  · have hdrop := hread
    simp only [CommandLine.LastRead, not_or, not_not] at hdrop
    obtain ⟨hone, htrail⟩ := hdrop
    obtain ⟨t, hlast, hends⟩ := last_dropped hone hblank before rest
      (line.front.map fun entry => entry.1.arg)
    have hlast' : Rounds (reading before (blank ++ (line.last.text ++
        (line.trail ++ 0 :: rest))) none (line.front.map fun entry =>
          entry.1.arg)) t := by
      rw [htrail]
      exact hlast
    rw [hresult hlast' hends]
    refine iff_of_false (fun heq => ?_) hread
    split at heq
    · cases heq
    · have hargs := congrArg List.length (Option.some.inj (Option.some.inj heq))
      simp [CommandLine.args] at hargs

theorem not_quote_of_head {c : UInt8} {bytes : List UInt8}
    (hc : IS_QUOTE c = false) :
    ∀ d, (c :: bytes).head? = some d → IS_QUOTE d = false := by
  intro d hd
  obtain rfl := Option.some.inj hd
  exact hc

theorem blank_nil : Blank [] :=
  List.forall_mem_nil _

/-- The argument `ls`. -/
def ls : ArgText :=
  .plain [108, 115] (List.cons_ne_nil _ _) (forall_of_all (by decide))
    (not_quote_of_head rfl)

theorem ls_blank :
    ∀ entry ∈ [(ls, ([32] : List UInt8))], Blank entry.2 ∧ entry.2 ≠ [] :=
  List.forall_mem_singleton.mpr
    ⟨List.forall_mem_singleton.mpr rfl, List.cons_ne_nil _ _⟩

/-- The line `ls` with another argument. -/
def lsLine (last : ArgText) : CommandLine where
  lead := []
  front := [(ls, [32])]
  last := last
  trail := []
  lead_blank := blank_nil
  front_blank := ls_blank
  trail_blank := blank_nil

theorem quotedLast_isQuote : IS_QUOTE 39 = true := rfl

theorem quotedLast_chars :
    ∀ c ∈ ([97, 32, 98] : List UInt8), c ≠ 0 ∧ c ≠ 39 :=
  forall_of_all (by decide)

/-- The line `ls 'a b'`. -/
def quotedLast : CommandLine :=
  lsLine (.quoted 39 [97, 32, 98] quotedLast_isQuote quotedLast_chars)

theorem makeArgs_iff_quotedLast :
    makeArgs (some ⟨[108, 115, 32, 39, 97, 32, 98, 39], by decide⟩) =
      some (some [some [108, 115], some [97, 32, 98], none]) :=
  (makeArgs_iff quotedLast _ rfl (by decide)).mpr (.inl (by decide))

/-- The line `ls x`. -/
def bareLast : CommandLine :=
  lsLine (.plain [120] (List.cons_ne_nil _ _) (forall_of_all (by decide))
    (not_quote_of_head rfl))

/-- The argument `x` is lost. -/
theorem bareLast_dropped :
    (⟨[108, 115, 32, 120], by decide⟩ : CString).bytes = bareLast.text ∧
      makeArgs (some ⟨[108, 115, 32, 120], by decide⟩) =
        some (some [some [108, 115], none]) ∧
      makeArgs (some ⟨[108, 115, 32, 120], by decide⟩) ≠
        some (some (bareLast.args.map some ++ [none])) := by
  have hargs : makeArgs (some ⟨[108, 115, 32, 120], by decide⟩) =
      some (some [some [108, 115], none]) := by decide +kernel
  refine ⟨rfl, hargs, ?_⟩
  rw [hargs]
  decide

end MyDirectFB

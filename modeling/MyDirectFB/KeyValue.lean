/-
The key-value parser of utils/key_value.cpp.  The pointers are positions in
`buf`, which the parser cuts in place.  A pass of its loop that would read past
the buffer has no result.  The callback is not null; what it is given is
recorded, except for `userdat`, which is only passed on.
-/
import MyDirectFB.Lib.CString

namespace MyDirectFB

open Scan

def MAX_STR_LEN : Nat := 2 * 1024

def IS_QUOTE (ch : UInt8) : Bool :=
  ch = 34 || ch = 39

/-- The byte of `=`. -/
def EQUALS : UInt8 := 61

/-- A call of the callback. -/
structure KeyValueCall where
  index : Nat
  key : List UInt8
  value : Option (List UInt8)
deriving Repr, DecidableEq

/-- The variables of `parse_key_value_str`, and the calls it has made.  `index`
is their number. -/
structure KeyValueParser where
  buf : List UInt8
  p : Nat
  key : Option Nat
  value : Option Nat
  calls : List KeyValueCall
deriving Repr, DecidableEq

/-- The C string at a position of the buffer. -/
def stringAt (buf : List UInt8) (position : Nat) : List UInt8 :=
  (CString.ofMemory (buf.drop position)).bytes

namespace KeyValueParser

/-- `cb(index++, key, value, userdat)`, if there is a key. -/
def call (s : KeyValueParser) : KeyValueParser :=
  match s.key with
  | none => s
  | some key =>
      { s with calls := s.calls ++
          [⟨s.calls.length, stringAt s.buf key, s.value.map (stringAt s.buf)⟩] }

/-- The end of a pass: cut the buffer at white space and call, or go on. -/
def cut (s : KeyValueParser) : Option KeyValueParser :=
  match s.buf[s.p]? with
  | none => none
  | some c =>
      if isspace c then
        let called := { s with buf := s.buf.set s.p 0 }.call
        some { called with p := s.p + 1, key := none, value := none }
      else some { s with p := s.p + 1 }

/-- A pass without a key. -/
def beginKey (s : KeyValueParser) : Option KeyValueParser :=
  let p := skipWhile isspace s.buf s.p
  match s.buf[p]? with
  | none => none
  | some c =>
      if c = 0 then some { s with p := p }
      else { s with key := some p, p := p + 1 }.cut

/-- A byte the scan for the end of a key runs over. -/
def inKey (c : UInt8) : Bool :=
  c ≠ 0 && c ≠ EQUALS && !isspace c

/-- A pass with a key and without a value. -/
def beginValue (s : KeyValueParser) : Option KeyValueParser :=
  let p := skipWhile inKey s.buf s.p
  match s.buf[p]? with
  | none => none
  | some c =>
      if c = EQUALS then
        let buf := s.buf.set p 0
        match buf[p + 1]? with
        | none => none
        | some quote =>
            let s := { s with buf := buf, value := some (p + 1) }
            if IS_QUOTE quote then
              { s with
                p := skipWhile (fun c => c ≠ 0 && c ≠ quote) buf (p + 2) }.cut
            else { s with p := p + 1 }.cut
      else { s with p := p }.cut

/-- One pass of the loop. -/
def round (s : KeyValueParser) : Option KeyValueParser :=
  match s.key, s.value with
  | none, _ => s.beginKey
  | some _, none => s.beginValue
  | some _, some _ => s.cut

/-- The loop, with the number of passes it may make. -/
def loop : Nat → KeyValueParser → Option KeyValueParser
  | 0, _ => none
  | fuel + 1, s =>
      match s.buf[s.p]? with
      | none => none
      | some c => if c = 0 then some s else s.round.bind (loop fuel)

end KeyValueParser

/-- `strncpy(buf, str, MAX_STR_LEN)` and the NUL at its end. -/
def strncpyBuf (str : CString) : List UInt8 :=
  ((str.bytes ++ List.replicate MAX_STR_LEN 0).take MAX_STR_LEN).set
    (MAX_STR_LEN - 1) 0

/-- The calls `parse_key_value_str` makes. -/
def parseKeyValueStr (str : CString) : Option (List KeyValueCall) :=
  (KeyValueParser.loop (MAX_STR_LEN + 1)
    ⟨strncpyBuf str, 0, none, none, []⟩).map fun s => s.call.calls

end MyDirectFB

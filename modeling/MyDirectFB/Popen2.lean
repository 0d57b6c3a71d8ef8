/-
The splitting of a command line, after utils/popen2.cpp.  The pointers are
positions in `buf`, which is cut in place.  A pass of the loop that would read
past the buffer has no result.
-/
import MyDirectFB.KeyValue
import MyDirectFB.Lib.CursorLoop

namespace MyDirectFB

open Scan

def MAX_CMDLINE : Nat := 4 * 1024

/-- The variables of `make_args`.  `end` is null between the passes, and `argc` is
the number of the arguments. -/
structure ArgMaker where
  buf : List UInt8
  p : Nat
  start : Option Nat
  argv : List (List UInt8)
deriving Repr, DecidableEq

namespace ArgMaker

/-- The byte at the cursor. -/
def current (s : ArgMaker) : Option UInt8 :=
  s.buf[s.p]?

/-- A pass from the start of an argument to its end, which is at the NUL or at a
byte that is not in `inArg`.  `cut` is where the argument begins if it is cut
there. -/
def endArg (s : ArgMaker) (inArg : UInt8 → Bool) (start cut : Nat) :
    Option ArgMaker :=
  let p := skipWhile (fun c => c ≠ 0 && inArg c) s.buf s.p
  match s.buf[p]? with
  | none => none
  | some c =>
      if c = 0 then
        -- `end = --p`, and `p++` at the end of the pass
        some { s with
          p := p - 1 + 1, start := none, argv := s.argv ++ [stringAt s.buf start] }
      else
        let buf := s.buf.set p 0
        some { s with
          buf := buf, p := p + 1, start := none,
          argv := s.argv ++ [stringAt buf cut] }

/-- One pass of the loop. -/
def round (s : ArgMaker) : Option ArgMaker :=
  match s.start with
  | none =>
      let p := skipWhile isspace s.buf s.p
      match s.buf[p]? with
      | none => none
      | some c =>
          -- the loop is left at the NUL, where it would stop as well
          if c = 0 then some { s with p := p }
          else some { s with start := some p, p := p + 1 }
  | some start =>
      match s.buf[start]? with
      | none => none
      | some quote =>
          if !IS_QUOTE quote then s.endArg (fun c => !isspace c) start start
          else s.endArg (fun c => quote ≠ c) start (start + 1)

end ArgMaker

/-- `strncpy(buf, command, MAX_CMDLINE - 1)` and the NUL at its end. -/
def commandBuf (command : CString) : List UInt8 :=
  (command.bytes ++ List.replicate MAX_CMDLINE 0).take (MAX_CMDLINE - 1) ++ [0]

/-- The array `make_args` returns, with its null pointer at the end, or a null
pointer. -/
def makeArgs (command : Option CString) :
    Option (Option (List (Option (List UInt8)))) :=
  match command with
  | none => some none
  | some command =>
      (CursorLoop.loop ArgMaker.current ArgMaker.round (MAX_CMDLINE + 1)
        ⟨commandBuf command, 0, none, []⟩).map fun s =>
          if s.argv = [] then none else some (s.argv.map some ++ [none])

end MyDirectFB

/-
The ini parser of utils/ini.cpp.  A line is the C string that `fgets` leaves in
the buffer, and the parser cuts it in place; the callback is given pointers into
it, and what is recorded of a call are the strings they point to at the call.
A line whose header has no bracket at its end makes the parser dereference a
null pointer, and it has no result.
-/
import MyDirectFB.StringFunctions
import MyDirectFB.Trim

namespace MyDirectFB

def MAX_LINE_LEN : Nat := 1024

def MAX_SECTION_LEN : Nat := 64

/-- The byte that ends a line. -/
def NEWLINE : UInt8 := 10

def SEMICOLON : UInt8 := 59

def HASH : UInt8 := 35

def COLON : UInt8 := 58

def ASSIGN : UInt8 := 61

def OPEN_BRACKET : UInt8 := 91

def CLOSE_BRACKET : UInt8 := 93

/-- A line of at most `room` bytes, and the rest of the file. -/
def fgetsLine : Nat → List UInt8 → List UInt8 × List UInt8
  | 0, file => ([], file)
  | _ + 1, [] => ([], [])
  | room + 1, c :: rest =>
      if c = NEWLINE then ([c], rest)
      else (c :: (fgetsLine room rest).1, (fgetsLine room rest).2)

/-- `fgets(line, size, file)`: the bytes it stores before a NUL, and the rest of
the file. -/
def fgets (size : Nat) (file : List UInt8) :
    Option (List UInt8 × List UInt8) :=
  if file = [] then none else some (fgetsLine (size - 1) file)

/-- A call of the callback. -/
structure IniCall where
  section_ : List UInt8
  name : List UInt8
  value : List UInt8
deriving Repr, DecidableEq

/-- What `parse_ini` carries from line to line, and the calls it has made. -/
structure IniParser where
  section_ : List UInt8
  calls : List IniCall
deriving Repr, DecidableEq

/-- What the callback returns to a call, which may depend on the calls before
it. -/
abbrev IniCB := List IniCall → IniCall → Int

/-- `value` without the comment at its end. -/
def removeComment (value : List UInt8) : List UInt8 :=
  match (strchr value HASH).or (strchr value SEMICOLON) with
  | none => value
  | some (front, _) => front

/-- A pass of the loop: the parser after the line `start` begins, and the reason
why it is wrong. -/
def IniParser.line (cb : IniCB) (s : IniParser) (start : List UInt8) :
    Option (IniParser × Option String) :=
  match ltrim (rtrim start) with
  | [] => some (s, none)
  | c :: rest =>
      if c = SEMICOLON ∨ c = HASH then some (s, none)
      else if c = OPEN_BRACKET then
        -- A bracket that `strchr` finds is one, so that no header is reported.
        match strchr rest CLOSE_BRACKET with
        | none => none
        | some (name, _) =>
            some ({ s with section_ := name.take (MAX_SECTION_LEN - 1) }, none)
      else
        match (strchr (c :: rest) ASSIGN).or (strchr (c :: rest) COLON) with
        | none => some (s, some "cannot find '=:' for value.")
        | some (before, after) =>
            let call : IniCall :=
              ⟨s.section_, rtrim before, rtrim (removeComment (ltrim after))⟩
            some ({ s with calls := s.calls ++ [call] },
              if cb s.calls call < 0 then some "handler is failed." else none)

/-- The value `parse_ini` returns, the reason it prints if that is not 0, and the
calls it has made. -/
structure IniResult where
  error : Nat
  errmsg : Option String
  calls : List IniCall
deriving Repr, DecidableEq

/-- The loop, with the number of lines it may still read. -/
def IniParser.loop (cb : IniCB) :
    Nat → Nat → IniParser → List UInt8 → Option IniResult
  | 0, _, _, _ => none
  | fuel + 1, lineno, s, file =>
      match fgets MAX_LINE_LEN file with
      | none => some ⟨0, none, s.calls⟩
      | some (line, rest) =>
          match s.line cb (CString.ofMemory (line ++ [0])).bytes with
          | none => none
          | some (s, some errmsg) => some ⟨lineno + 1, some errmsg, s.calls⟩
          | some (s, none) => IniParser.loop cb fuel (lineno + 1) s rest

/-- Every line has a byte, so that the file cannot have more lines than bytes. -/
def parseIni (cb : IniCB) (file : List UInt8) : Option IniResult :=
  IniParser.loop cb (file.length + 1) 0 ⟨[], []⟩ file

end MyDirectFB

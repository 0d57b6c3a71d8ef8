/-
The pins of hw/gpio.cpp, which are directories of attribute files.  A getter
reads the file of its attribute and compares the text with a table of names, and
a setter writes one of them.  What the kernel does with a file is given with each
call: whether the pin is there, whether the file can be opened, and what is read.
-/
import MyDirectFB.Lib.HandleLedger
import MyDirectFB.Lib.LabelledRun
import MyDirectFB.StringFunctions
import Mathlib.Data.Fintype.EquivFin

namespace MyDirectFB

universe u v

/-- `GPIO_Dir_e`. -/
inductive GPIODir where
  | GPIO_DIR_IN
  | GPIO_DIR_OUT
  | GPIO_DIR_UNKNOWN
deriving Repr, DecidableEq

/-- `GPIO_Edge_e`. -/
inductive GPIOEdge where
  | GPIO_EDGE_NONE
  | GPIO_EDGE_RISING
  | GPIO_EDGE_FALLING
  | GPIO_EDGE_BOTH
  | GPIO_EDGE_UNKNOWN
deriving Repr, DecidableEq

namespace GPIO

def GPIO_DIR_STRs : List (GPIODir × List UInt8) :=
  [(.GPIO_DIR_IN, ascii "in"), (.GPIO_DIR_OUT, ascii "out")]

def GPIO_EDGE_STRs : List (GPIOEdge × List UInt8) :=
  [(.GPIO_EDGE_NONE, ascii "none"), (.GPIO_EDGE_RISING, ascii "rising"),
    (.GPIO_EDGE_FALLING, ascii "falling"), (.GPIO_EDGE_BOTH, ascii "both")]

/-- What the kernel does in a call: `_exist` finds the pin, `open` gives a
descriptor, and `read` stores bytes; `none` is a result that is not positive. -/
structure Kernel where
  pinExists : Bool
  opens : Bool
  read : Option (List UInt8)
deriving Repr, DecidableEq

/-- The string in `buf` after `buf[len] = 0`. -/
def readText (bytes : List UInt8) : CString := .ofMemory (bytes ++ [0])

/-- What `read` stores in a call that comes to it. -/
def Kernel.text? (kernel : Kernel) : Option CString :=
  if kernel.pinExists && kernel.opens then kernel.read.map readText else none

/-- The loop over a table of names. -/
def lookup {E : Type u} (names : List (E × List UInt8)) (unknown : E)
    (text : CString) : E :=
  ((names.find? (·.2 = text.bytes)).map Prod.fst).getD unknown

def getOutDir (kernel : Kernel) : GPIODir :=
  (kernel.text?.map (lookup GPIO_DIR_STRs .GPIO_DIR_UNKNOWN)).getD .GPIO_DIR_UNKNOWN

def getEdge (kernel : Kernel) : GPIOEdge :=
  (kernel.text?.map (lookup GPIO_EDGE_STRs .GPIO_EDGE_UNKNOWN)).getD
    .GPIO_EDGE_UNKNOWN

/-- `getValue` and `isActiveLow`, which differ in the file. -/
def readFlag (kernel : Kernel) : Bool :=
  (kernel.text?.map fun text => decide (text.bytes ≠ ascii "0")).getD false

def getValue (kernel : Kernel) : Bool := readFlag kernel

def isActiveLow (kernel : Kernel) : Bool := readFlag kernel

/-- The name that a setter writes. -/
def nameOf {E : Type u} [DecidableEq E] (names : List (E × List UInt8)) (e : E) :
    Option (List UInt8) :=
  (names.find? (·.1 = e)).map Prod.snd

/-! ### What the getters make of a line -/

theorem lookup_of_lineFeed {E : Type u} {names : List (E × List UInt8)} {unknown : E}
    (hnames : ∀ entry ∈ names, 10 ∉ entry.2) {text : CString}
    (htext : 10 ∈ text.bytes) : lookup names unknown text = unknown := by
  have hnone : names.find? (·.2 = text.bytes) = none := by
    refine List.find?_eq_none.mpr fun entry hentry heq => hnames entry hentry ?_
    rw [of_decide_eq_true heq]
    exact htext
  rw [lookup, hnone]
  rfl

/-- Linux ends the text of an attribute file with a line feed, which the getters do
not take off: such a text is none of the names, and it is not `0`. -/
theorem getters_of_lineFeed {kernel : Kernel} {text : CString}
    (hkernel : kernel.text? = some text) (htext : 10 ∈ text.bytes) :
    getOutDir kernel = .GPIO_DIR_UNKNOWN ∧ getEdge kernel = .GPIO_EDGE_UNKNOWN ∧
      getValue kernel = true ∧ isActiveLow kernel = true := by
  have hflag : readFlag kernel = true := by
    have hne : text.bytes ≠ ascii "0" := by
      intro heq
      rw [heq] at htext
      exact absurd htext (by decide)
    simp [readFlag, hkernel, hne]
  refine ⟨?_, ?_, hflag, hflag⟩
  · rw [getOutDir, hkernel]
    exact lookup_of_lineFeed (by decide) htext
  · rw [getEdge, hkernel]
    exact lookup_of_lineFeed (by decide) htext

/-- In a table without repetition the search finds every entry. -/
theorem find?_eq_some_iff_of_nodup {A : Type u} {B : Type v} [DecidableEq B]
    {f : A → B}
    {entries : List A} (hnodup : (entries.map f).Nodup) {b : B} {entry : A} :
    entries.find? (f · = b) = some entry ↔ entry ∈ entries ∧ f entry = b := by
  constructor
  · intro hfind
    have hkey := List.find?_some hfind
    exact ⟨List.mem_of_find?_eq_some hfind, of_decide_eq_true hkey⟩
  · rintro ⟨hmem, rfl⟩
    have hsome : (entries.find? (f · = f entry)).isSome :=
      List.find?_isSome.mpr ⟨entry, hmem, by simp⟩
    obtain ⟨found, hfind⟩ := Option.isSome_iff_exists.mp hsome
    have hkey := List.find?_some hfind
    rw [hfind, List.inj_on_of_nodup_map hnodup
      (List.mem_of_find?_eq_some hfind) hmem (of_decide_eq_true hkey)]

/-- Getters and setters are inverse to each other as long as a file keeps what is
written: a getter gives a value exactly for the text that the setter writes for it. -/
theorem lookup_eq_iff {E : Type u} [DecidableEq E] {names : List (E × List UInt8)}
    (hvalues : (names.map Prod.fst).Nodup) (htexts : (names.map Prod.snd).Nodup)
    {unknown e : E} (he : e ≠ unknown) {text : CString} :
    lookup names unknown text = e ↔ nameOf names e = some text.bytes := by
  unfold lookup nameOf
  constructor
  · intro hlookup
    cases hfind : names.find? (·.2 = text.bytes) with
    | none =>
        rw [hfind] at hlookup
        exact absurd hlookup.symm he
    | some entry =>
        rw [hfind] at hlookup
        obtain ⟨hmem, htext⟩ := (find?_eq_some_iff_of_nodup htexts).mp hfind
        rw [(find?_eq_some_iff_of_nodup hvalues).mpr ⟨hmem, hlookup⟩, ← htext]
        rfl
  · intro hname
    obtain ⟨entry, hfind, htext⟩ := Option.map_eq_some_iff.mp hname
    obtain ⟨hmem, hvalue⟩ := (find?_eq_some_iff_of_nodup hvalues).mp hfind
    rw [(find?_eq_some_iff_of_nodup htexts).mpr ⟨hmem, htext⟩]
    exact hvalue

/-! ### What a call does to the descriptors -/

/-- A call of the system on a descriptor, or the store `buf[index] = 0` behind a
`read`. -/
inductive Syscall (H : Type u) where
  | open (fd : H)
  | read (fd : H)
  | terminate (index : Nat)
  | write (fd : H) (bytes : List UInt8)
  | close (fd : H)
deriving Repr, DecidableEq

variable {H : Type u}

/-- The size of `buf` in the getters. -/
def BUF_SIZE : Nat := 1024

/-- A store is in the buffer. -/
def Syscall.InBuffer : Syscall H → Prop
  | .terminate index => index < BUF_SIZE
  | _ => True

/-- What is written. -/
def Syscall.written? : Syscall H → Option (List UInt8)
  | .write _ bytes => some bytes
  | _ => none

/-- The attribute files are shorter than the buffer. -/
def Kernel.Short (kernel : Kernel) : Prop :=
  ∀ bytes, kernel.read = some bytes → bytes.length < BUF_SIZE

/-- The file of an attribute is opened, unless the pin is missing or `open`
fails. -/
def withFile (kernel : Kernel) (fd : H) (body : List (Syscall H)) :
    List (Syscall H) :=
  if kernel.pinExists && kernel.opens then .open fd :: body else []

def readFile (kernel : Kernel) (fd : H) : List (Syscall H) :=
  withFile kernel fd
    (.read fd :: (kernel.read.toList.map (.terminate ·.length) ++ [.close fd]))

def writeFile (kernel : Kernel) (fd : H) (bytes : List UInt8) : List (Syscall H) :=
  withFile kernel fd [.write fd bytes, .close fd]

/-- A setter that writes a name.  A value that has none is refused behind the
`open`, and in front of the `close`. -/
def writeName {E : Type v} [DecidableEq E] (names : List (E × List UInt8))
    (kernel : Kernel) (fd : H) (e : E) : List (Syscall H) :=
  match nameOf names e with
  | none => withFile kernel fd []
  | some name => writeFile kernel fd name

def setOutDir (kernel : Kernel) (fd : H) (eDIR : GPIODir) : List (Syscall H) :=
  writeName GPIO_DIR_STRs kernel fd eDIR

def setEdge (kernel : Kernel) (fd : H) (edge : GPIOEdge) : List (Syscall H) :=
  writeName GPIO_EDGE_STRs kernel fd edge

def flagText (flag : Bool) : List UInt8 := if flag then ascii "1" else ascii "0"

def setValue (kernel : Kernel) (fd : H) (value : Bool) : List (Syscall H) :=
  writeFile kernel fd (flagText value)

def setActiveLow (kernel : Kernel) (fd : H) (activeLow : Bool) :
    List (Syscall H) :=
  writeFile kernel fd (flagText activeLow)

/-- `GPIO::open`, which exports a pin that is not there; `kernel.opens` is about
the file `export`. -/
def openPin (kernel : Kernel) (fd : H) (num : Int) : List (Syscall H) :=
  if kernel.pinExists then []
  else if kernel.opens then
    [.open fd, .write fd (ascii (toString num)), .close fd]
  else []

inductive Call where
  | openPin (num : Int)
  | getOutDir
  | setOutDir (eDIR : GPIODir)
  | setValue (value : Bool)
  | getValue
  | getEdge
  | setEdge (edge : GPIOEdge)
  | isActiveLow
  | setActiveLow (activeLow : Bool)
deriving Repr, DecidableEq

def Call.syscalls (kernel : Kernel) (fd : H) : Call → List (Syscall H)
  | .openPin num => GPIO.openPin kernel fd num
  | .getOutDir | .getValue | .getEdge | .isActiveLow => readFile kernel fd
  | .setOutDir eDIR => GPIO.setOutDir kernel fd eDIR
  | .setValue value => GPIO.setValue kernel fd value
  | .setEdge edge => GPIO.setEdge kernel fd edge
  | .setActiveLow activeLow => GPIO.setActiveLow kernel fd activeLow

variable [DecidableEq H]

def Syscall.perform (ledger : HandleLedger H) : Syscall H → HandleLedger H
  | .open fd => ledger.acquire fd
  | .close fd => ledger.release fd
  | .read _ | .terminate _ | .write _ _ => ledger

/-- A call with the descriptor that the kernel hands out next. -/
def Call.perform (allocator : HandleAllocator H) (ledger : HandleLedger H)
    (call : Kernel × Call) : HandleLedger H :=
  (call.2.syscalls call.1 (allocator.next ledger)).foldl Syscall.perform ledger

/-- The call opens a file and returns before it closes it. -/
def Call.leaks (call : Kernel × Call) : Bool :=
  call.1.pinExists && call.1.opens &&
    (call.2 = .setOutDir .GPIO_DIR_UNKNOWN || call.2 = .setEdge .GPIO_EDGE_UNKNOWN)

/-- A file that is used and closed leaves no descriptor behind. -/
theorem opened_withFile {ledger : HandleLedger H} {fd : H} (hfd : fd ∉ ledger.opened)
    (kernel : Kernel) {uses : List (Syscall H)}
    (huses : ∀ use ∈ uses, ∀ l, use.perform l = l) :
    ((withFile kernel fd (uses ++ [.close fd])).foldl Syscall.perform ledger).opened =
      ledger.opened := by
  have hstays (l : HandleLedger H) : uses.foldl Syscall.perform l = l := by
    induction uses with
    | nil => rfl
    | cons use rest ih =>
        rw [List.foldl_cons, huses use List.mem_cons_self]
        exact ih fun other hother => huses other (List.mem_cons_of_mem use hother)
  unfold withFile
  split
  · rw [List.foldl_cons, List.foldl_append, hstays]
    exact HandleLedger.opened_acquire_release hfd
  · rfl

theorem opened_readFile {ledger : HandleLedger H} {fd : H} (hfd : fd ∉ ledger.opened)
    (kernel : Kernel) :
    ((readFile kernel fd).foldl Syscall.perform ledger).opened = ledger.opened := by
  have huses : ∀ use ∈ Syscall.read fd :: kernel.read.toList.map (.terminate ·.length),
      ∀ l : HandleLedger H, use.perform l = l := by
    intro use huse l
    rcases List.mem_cons.mp huse with rfl | huse
    · rfl
    · obtain ⟨bytes, -, rfl⟩ := List.mem_map.mp huse
      rfl
  exact opened_withFile hfd kernel huses

theorem opened_writeFile {ledger : HandleLedger H} {fd : H} (hfd : fd ∉ ledger.opened)
    (kernel : Kernel) (bytes : List UInt8) :
    ((writeFile kernel fd bytes).foldl Syscall.perform ledger).opened =
      ledger.opened := by
  have huses : ∀ use ∈ [Syscall.write fd bytes], ∀ l : HandleLedger H,
      use.perform l = l := by
    intro use huse l
    obtain rfl := List.mem_singleton.mp huse
    rfl
  exact opened_withFile hfd kernel huses

theorem opened_writeName {E : Type v} [DecidableEq E]
    {names : List (E × List UInt8)} {ledger : HandleLedger H} {fd : H}
    (hfd : fd ∉ ledger.opened) (kernel : Kernel) (e : E) :
    ((writeName names kernel fd e).foldl Syscall.perform ledger).opened =
      if kernel.pinExists && kernel.opens && (nameOf names e).isNone then
        fd :: ledger.opened
      else ledger.opened := by
  cases hname : nameOf names e with
  | some name =>
      rw [writeName, hname, Option.isNone_some, Bool.and_false]
      exact opened_writeFile hfd kernel name
  | none =>
      simp only [writeName, hname, Option.isNone_none, Bool.and_true, withFile]
      split <;> rfl

/-- A call leaves one descriptor more open if it leaks, and the same ones
otherwise. -/
theorem opened_perform (allocator : HandleAllocator H) (ledger : HandleLedger H)
    (call : Kernel × Call) :
    (Call.perform allocator ledger call).opened =
      if Call.leaks call then allocator.next ledger :: ledger.opened
      else ledger.opened := by
  obtain ⟨kernel, call⟩ := call
  have hfd := allocator.fresh ledger
  unfold Call.perform
  cases call with
  | openPin num =>
      simp only [Call.syscalls, GPIO.openPin, Call.leaks]
      split
      · simp
      · split
        · simpa [Syscall.perform] using HandleLedger.opened_acquire_release hfd
        · simp
  | getOutDir | getValue | getEdge | isActiveLow =>
      rw [if_neg (by simp [Call.leaks])]
      exact opened_readFile hfd kernel
  | setValue flag | setActiveLow flag =>
      rw [if_neg (by simp [Call.leaks])]
      exact opened_writeFile hfd kernel _
  | setOutDir eDIR =>
      refine (opened_writeName hfd kernel eDIR).trans ?_
      cases eDIR <;> simp [Call.leaks, nameOf, GPIO_DIR_STRs]
  | setEdge edge =>
      refine (opened_writeName hfd kernel edge).trans ?_
      cases edge <;> simp [Call.leaks, nameOf, GPIO_EDGE_STRs]

theorem run_opened (allocator : HandleAllocator H) (calls : List (Kernel × Call))
    (ledger : HandleLedger H) :
    ∃ leaked, (calls.foldl (Call.perform allocator) ledger).opened =
        leaked ++ ledger.opened ∧ leaked.length = calls.countP Call.leaks := by
  induction calls generalizing ledger with
  | nil => exact ⟨[], rfl, rfl⟩
  | cons call rest ih =>
      obtain ⟨leaked, hopened, hlength⟩ := ih (Call.perform allocator ledger call)
      rw [opened_perform] at hopened
      rw [List.foldl_cons, hopened, List.countP_cons, ← hlength]
      by_cases hleaks : Call.leaks call = true
      · rw [if_pos hleaks, if_pos hleaks]
        exact ⟨leaked ++ [allocator.next ledger], by simp, by simp⟩
      · rw [if_neg hleaks, if_neg hleaks]
        exact ⟨leaked, rfl, rfl⟩

/-! ### The stores of a call, and what it writes -/

omit [DecidableEq H] in
theorem mem_withFile {kernel : Kernel} {fd : H} {body : List (Syscall H)}
    {syscall : Syscall H} (hmem : syscall ∈ withFile kernel fd body) :
    syscall = .open fd ∨ syscall ∈ body := by
  unfold withFile at hmem
  split at hmem
  · exact List.mem_cons.mp hmem
  · cases hmem

omit [DecidableEq H] in
theorem inBuffer_readFile {kernel : Kernel} (hshort : kernel.Short) (fd : H) :
    ∀ syscall ∈ readFile kernel fd, syscall.InBuffer := by
  intro syscall hmem
  rcases mem_withFile hmem with rfl | hmem
  · trivial
  · rcases List.mem_cons.mp hmem with rfl | hmem
    · trivial
    · rcases List.mem_append.mp hmem with hmem | hmem
      · obtain ⟨bytes, hbytes, rfl⟩ := List.mem_map.mp hmem
        exact hshort bytes (Option.mem_toList.mp hbytes)
      · obtain rfl := List.mem_singleton.mp hmem
        trivial

omit [DecidableEq H] in
theorem inBuffer_writeFile (kernel : Kernel) (fd : H) (bytes : List UInt8) :
    ∀ syscall ∈ writeFile kernel fd bytes, syscall.InBuffer := by
  intro syscall hmem
  rcases mem_withFile hmem with rfl | hmem
  · trivial
  · simp only [List.mem_cons, List.not_mem_nil, or_false] at hmem
    rcases hmem with rfl | rfl <;> trivial

omit [DecidableEq H] in
theorem inBuffer_writeName {E : Type v} [DecidableEq E]
    (names : List (E × List UInt8)) (kernel : Kernel) (fd : H) (e : E) :
    ∀ syscall ∈ writeName names kernel fd e, syscall.InBuffer := by
  unfold writeName
  split
  · intro syscall hmem
    rcases mem_withFile hmem with rfl | hmem
    · trivial
    · cases hmem
  · exact inBuffer_writeFile kernel fd _

omit [DecidableEq H] in
theorem inBuffer_syscalls {kernel : Kernel} (hshort : kernel.Short) (fd : H)
    (call : Call) : ∀ syscall ∈ call.syscalls kernel fd, syscall.InBuffer := by
  cases call with
  | openPin num =>
      intro syscall hmem
      simp only [Call.syscalls, GPIO.openPin] at hmem
      split at hmem
      · cases hmem
      · split at hmem
        · simp only [List.mem_cons, List.not_mem_nil, or_false] at hmem
          rcases hmem with rfl | rfl | rfl <;> trivial
        · cases hmem
  | getOutDir | getValue | getEdge | isActiveLow => exact inBuffer_readFile hshort fd
  | setValue flag | setActiveLow flag => exact inBuffer_writeFile kernel fd _
  | setOutDir eDIR => exact inBuffer_writeName GPIO_DIR_STRs kernel fd eDIR
  | setEdge edge => exact inBuffer_writeName GPIO_EDGE_STRs kernel fd edge

/-- As long as no file fills the buffer, every store is in it, and the calls leak
exactly the descriptors of those that were given a value without a name on a pin that
could be opened. -/
theorem opened_calls (allocator : HandleAllocator H) (calls : List (Kernel × Call))
    (hshort : ∀ call ∈ calls, call.1.Short) (ledger : HandleLedger H) :
    (∃ leaked, (calls.foldl (Call.perform allocator) ledger).opened =
        leaked ++ ledger.opened ∧ leaked.length = calls.countP Call.leaks) ∧
      ∀ call ∈ calls, ∀ fd : H, ∀ syscall ∈ call.2.syscalls call.1 fd,
        syscall.InBuffer :=
  ⟨run_opened allocator calls ledger,
    fun call hcall fd => inBuffer_syscalls (hshort call hcall) fd call.2⟩

/-- An edge that is read and set, and one without a name. -/
def edgeCalls : List (Kernel × Call) :=
  [(⟨true, true, some (ascii "both")⟩, .getEdge),
    (⟨true, true, none⟩, .setEdge .GPIO_EDGE_BOTH),
    (⟨true, true, none⟩, .setEdge .GPIO_EDGE_UNKNOWN)]

theorem edgeCalls_short : ∀ call ∈ edgeCalls, call.1.Short := by
  intro call hcall bytes hbytes
  simp only [edgeCalls, List.mem_cons, List.not_mem_nil, or_false] at hcall
  rcases hcall with rfl | rfl | rfl <;> cases hbytes
  decide

theorem opened_calls_edges :
    ∃ leaked, (edgeCalls.foldl (Call.perform .numbered) ⟨[], []⟩).opened =
      leaked ++ [] ∧ leaked.length = 1 :=
  (opened_calls .numbered edgeCalls edgeCalls_short ⟨[], []⟩).1

end GPIO

end MyDirectFB

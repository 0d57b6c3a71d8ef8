/-
The routing table of the kernel and `NetUtil::get_default_gateway`, which reads it
line by line with `sscanf`.  The heading of the table begins with a word and a
hexadecimal number, but not with two; so it is passed over like a route with another
destination, and the gateway of the first route to 0.0.0.0 is found.
-/
import MyDirectFB.IniLines
import MyDirectFB.Lib.Numeral

namespace MyDirectFB

open Numeral Scan

/-- An address, with its bytes as they are in memory. -/
structure InAddr where
  a : UInt8
  b : UInt8
  c : UInt8
  d : UInt8
deriving Repr, DecidableEq

namespace InAddr

/-- The field `s_addr`, on a machine with the low byte first. -/
def s_addr (addr : InAddr) : Nat :=
  addr.a.toNat + 256 * (addr.b.toNat + 256 * (addr.c.toNat + 256 * addr.d.toNat))

/-- The address after `s_addr` has been set. -/
def ofSAddr (n : Nat) : InAddr :=
  ⟨UInt8.ofNat n, UInt8.ofNat (n / 256), UInt8.ofNat (n / 65536),
    UInt8.ofNat (n / 16777216)⟩

def any : InAddr := ⟨0, 0, 0, 0⟩

theorem s_addr_lt (addr : InAddr) : addr.s_addr < 16 ^ 8 := by
  have ha := addr.a.toNat_lt
  have hb := addr.b.toNat_lt
  have hc := addr.c.toNat_lt
  have hd := addr.d.toNat_lt
  unfold s_addr
  omega

theorem ofSAddr_s_addr (addr : InAddr) : ofSAddr addr.s_addr = addr := by
  have ha := addr.a.toNat_lt
  have hb := addr.b.toNat_lt
  have hc := addr.c.toNat_lt
  have hd := addr.d.toNat_lt
  have hbyte (byte : UInt8) {n : Nat} (hn : n % 256 = byte.toNat) :
      UInt8.ofNat n = byte := by
    rw [← UInt8.toNat_inj, UInt8.toNat_ofNat', ← hn]
  rw [ofSAddr, hbyte addr.a, hbyte addr.b, hbyte addr.c, hbyte addr.d]
  all_goals
    unfold s_addr
    omega

theorem s_addr_eq_zero_iff (addr : InAddr) : addr.s_addr = 0 ↔ addr = any := by
  constructor
  · intro hzero
    rw [← ofSAddr_s_addr addr, hzero]
    rfl
  · rintro rfl
    rfl

end InAddr

/-- `.`. -/
def PERIOD : UInt8 := 46

/-- `inet_ntoa`. -/
def inet_ntoa (addr : InAddr) : List UInt8 :=
  printDecimal addr.a.toNat ++ PERIOD :: (printDecimal addr.b.toNat ++
    PERIOD :: (printDecimal addr.c.toNat ++ PERIOD :: printDecimal addr.d.toNat))

/-! ### Conversions of `sscanf` -/

/-- `%s`: the word behind the white space, and the text behind it. -/
def scanWord (text : List UInt8) : Option (List UInt8 × List UInt8) :=
  match text.dropWhile isspace with
  | [] => none
  | c :: rest =>
      some (c :: rest.takeWhile (!isspace ·), rest.dropWhile (!isspace ·))

def ULONG_MAX : Nat := 18446744073709551615

/-- The number that the digits of `%lx` make, possibly behind `0x`, and the text
behind them. -/
def scanDigits (text : List UInt8) : Option (Nat × List UInt8) :=
  if ascii "0x" <+: text ∨ ascii "0X" <+: text then
    -- the zero is a digit too, when no other follows the `x`
    some (valueOf 16 ((text.drop 2).takeWhile (isDigit 16)),
      (text.drop 2).dropWhile (isDigit 16))
  else
    match text.takeWhile (isDigit 16) with
    | [] => none
    | c :: rest => some (valueOf 16 (c :: rest), text.dropWhile (isDigit 16))

/-- The `unsigned long` of a number with its sign: `ULONG_MAX` when it is too long. -/
def toULong (negative : Bool) (n : Nat) : Nat :=
  if ULONG_MAX < n then ULONG_MAX
  else if negative then (ULONG_MAX + 1 - n) % (ULONG_MAX + 1)
  else n

/-- `%lx`: a number that may have a sign, as an `unsigned long`. -/
def scanHex (text : List UInt8) : Option (Nat × List UInt8) :=
  match text.dropWhile isspace with
  | [] => none
  | c :: rest =>
      let digits := if c = 45 ∨ c = 43 then rest else c :: rest
      (scanDigits digits).map fun found => (toULong (c = 45) found.1, found.2)

namespace NetUtil

/-- A word that is written beyond the end of `iface`. -/
inductive RouteFault where
  | iface
deriving Repr, DecidableEq

/-- The size of `buf`. -/
def ROUTE_BUF_LEN : Nat := 2 * 1024

/-- `sscanf(buf, "%s %lx %lx", iface, &destination, &gateway)`: the three, if all of
them are found. -/
def scanRoute (buf : CString) :
    Except RouteFault (Option (List UInt8 × Nat × Nat)) :=
  match scanWord buf.bytes with
  | none => .ok none
  | some (iface, rest) =>
      if 1024 ≤ iface.length then .error .iface
      else
        .ok do
          let (destination, rest) ← scanHex rest
          let (gateway, _) ← scanHex rest
          return (iface, destination, gateway)

end NetUtil

theorem length_fgetsLine (room : Nat) (file : List UInt8) :
    (fgetsLine room file).2.length ≤ file.length := by
  induction room generalizing file with
  | zero => exact Nat.le_refl _
  | succ room ih =>
      cases file with
      | nil => exact Nat.le_refl _
      | cons c rest =>
          rw [fgetsLine]
          split
          · exact Nat.le_succ _
          · exact Nat.le_succ_of_le (ih rest)

/-- Every line that is read makes the file shorter. -/
theorem length_fgets {file line rest : List UInt8} {size : Nat}
    (hread : fgets (size + 2) file = some (line, rest)) :
    rest.length < file.length := by
  cases file with
  | nil => cases hread
  | cons c file =>
      obtain ⟨-, rfl⟩ := Prod.mk.inj (Option.some.inj hread)
      change (fgetsLine (size + 1) (c :: file)).2.length < (c :: file).length
      rw [fgetsLine]
      split
      · exact Nat.lt_succ_self _
      · exact Nat.lt_succ_of_le (length_fgetsLine _ file)

namespace NetUtil

/-- The loop over the lines: the gateway and the interface of a default route. -/
def routeLoop (file : List UInt8) :
    Except RouteFault (Option (List UInt8 × List UInt8)) :=
  match _hread : fgets ROUTE_BUF_LEN file with
  | none => .ok none
  | some (line, rest) =>
      match scanRoute (.ofMemory (line ++ [0])) with
      | .error fault => .error fault
      | .ok (some (iface, 0, gateway)) =>
          .ok (some (inet_ntoa (.ofSAddr gateway), iface))
      | .ok _ => routeLoop rest
termination_by file.length
decreasing_by all_goals exact length_fgets _hread

/-- `get_default_gateway`, with what is in `/proc/net/route`, if it can be opened;
`none` stands for -1. -/
def get_default_gateway (file : Option (List UInt8)) :
    Except RouteFault (Option (List UInt8 × List UInt8)) :=
  match file with
  | none => .ok none
  | some file => routeLoop file

end NetUtil

/-! ### The table -/

/-- What the kernel knows of a route: the interface, the destination, the gateway, and
the text of the columns behind them. -/
structure Route where
  iface : List UInt8
  destination : InAddr
  gateway : InAddr
  more : List UInt8
  iface_ne_nil : iface ≠ []
  iface_length : iface.length < 16
  iface_chars : ∀ c ∈ iface, c ≠ 0 ∧ isspace c = false
  more_length : more.length < 2000
  more_chars : ∀ c ∈ more, c ≠ 0 ∧ c ≠ NEWLINE

/-- The tab. -/
def HTAB : UInt8 := 9

/-- The columns of a route, and what stands behind them in its line. -/
def Route.columns (route : Route) : List UInt8 :=
  route.iface ++ HTAB :: (printCapitalHex 8 route.destination.s_addr ++
    HTAB :: (printCapitalHex 8 route.gateway.s_addr ++ HTAB :: route.more))

/-- The heading, with the spaces that fill its line. -/
def routeHeading : List UInt8 :=
  (ascii "Iface\tDestination\tGateway \tFlags\tRefCnt\tUse\tMetric\tMask\t\tMTU" ++
    ascii "\tWindow\tIRTT").rightpad 127 32

/-- `/proc/net/route`. -/
def routeTable (routes : List Route) : List UInt8 :=
  routeHeading ++ NEWLINE :: routes.flatMap fun route => route.columns ++ [NEWLINE]

/-! ### Reading a line -/

theorem scanWord_append {word : List UInt8} (hne : word ≠ [])
    (hword : ∀ c ∈ word, isspace c = false) {c : UInt8} (hc : isspace c = true)
    (rest : List UInt8) :
    scanWord (word ++ c :: rest) = some (word, c :: rest) := by
  cases word with
  | nil => exact absurd rfl hne
  | cons first word =>
      have hfirst := hword first List.mem_cons_self
      have hrun (d : UInt8) (hd : d ∈ word) : (!isspace d) = true := by
        rw [hword d (List.mem_cons_of_mem first hd)]
        rfl
      have hstop : (!isspace c) = false := by
        rw [hc]
        rfl
      rw [scanWord, List.cons_append, List.dropWhile_cons_of_neg (by simp [hfirst])]
      simp only [takeWhile_stop hrun hstop, dropWhile_stop hrun hstop]

/-- A number that is not empty and that no `x` follows does not begin with `0x`. -/
theorem not_hexPrefix (first : UInt8) {x c : UInt8} {digits : List UInt8}
    (hdigits : ∀ d ∈ digits, isDigit 16 d = true) (hx : isDigit 16 x = false)
    (hc : c ≠ x) (rest : List UInt8) :
    ¬ [48, x] <+: first :: digits ++ c :: rest := by
  rintro ⟨more, hmore⟩
  have hrest := (List.cons.inj hmore).2
  cases digits with
  | nil => exact hc (List.cons.inj hrest).1.symm
  | cons second digits =>
      have hsecond := hdigits second List.mem_cons_self
      rw [← (List.cons.inj hrest).1, hx] at hsecond
      cases hsecond

theorem scanDigits_append {digits : List UInt8} (hne : digits ≠ [])
    (hdigits : ∀ d ∈ digits, isDigit 16 d = true) {c : UInt8} (hc : isspace c = true)
    (rest : List UInt8) :
    scanDigits (digits ++ c :: rest) = some (valueOf 16 digits, c :: rest) := by
  have hchars : isDigit 16 c = false ∧ c ≠ 120 ∧ c ≠ 88 := by
    refine ⟨?_, ?_, ?_⟩
    · by_contra hdigit
      have hall : ∀ d ∈ [c], isDigit 16 d = true := by simpa using hdigit
      have hspace := (digits_chars (show 16 ≤ 36 by decide) hall c (by simp)).1
      rw [hc] at hspace
      cases hspace
    · rintro rfl
      exact absurd hc (by decide)
    · rintro rfl
      exact absurd hc (by decide)
  cases digits with
  | nil => exact absurd rfl hne
  | cons first digits =>
      have htail (d : UInt8) (hd : d ∈ digits) :=
        hdigits d (List.mem_cons_of_mem first hd)
      have hlower := not_hexPrefix first htail (x := 120) (by decide) hchars.2.1 rest
      have hupper := not_hexPrefix first htail (x := 88) (by decide) hchars.2.2 rest
      have hnone : ¬ (ascii "0x" <+: first :: digits ++ c :: rest ∨
          ascii "0X" <+: first :: digits ++ c :: rest) :=
        not_or.mpr ⟨hlower, hupper⟩
      simp only [scanDigits, if_neg hnone, takeWhile_stop hdigits hchars.1,
        dropWhile_stop hdigits hchars.1]

theorem scanHex_append {digits : List UInt8} (hne : digits ≠ [])
    (hdigits : ∀ d ∈ digits, isDigit 16 d = true)
    (hvalue : valueOf 16 digits ≤ ULONG_MAX) {blank c : UInt8}
    (hblank : isspace blank = true) (hc : isspace c = true) (rest : List UInt8) :
    scanHex (blank :: (digits ++ c :: rest)) =
      some (valueOf 16 digits, c :: rest) := by
  have hscan := scanDigits_append hne hdigits hc rest
  cases digits with
  | nil => exact absurd rfl hne
  | cons first digits =>
      obtain ⟨hspace, hsign⟩ := digits_chars (by decide) hdigits first (by simp)
      have hplus : first ≠ 43 := by
        rintro rfl
        exact hsign (by decide)
      have hminus : first ≠ 45 := by
        rintro rfl
        exact hsign (by decide)
      rw [List.cons_append] at hscan
      rw [scanHex, List.dropWhile_cons_of_pos hblank, List.cons_append,
        List.dropWhile_cons_of_neg (by simp [hspace])]
      simp only [hplus, hminus, or_self, ↓reduceIte, hscan, decide_false,
        Option.map_some, toULong, Nat.not_lt.mpr hvalue, Bool.false_eq_true]

/-- So is the field of an address. -/
theorem scanHex_s_addr (addr : InAddr) {blank c : UInt8}
    (hblank : isspace blank = true) (hc : isspace c = true) (rest : List UInt8) :
    scanHex (blank :: (printCapitalHex 8 addr.s_addr ++ c :: rest)) =
      some (addr.s_addr, c :: rest) := by
  have hlength := length_printCapitalHex addr.s_addr_lt
  have hne : printCapitalHex 8 addr.s_addr ≠ [] := by
    intro hnil
    rw [hnil] at hlength
    cases hlength
  have hbound := addr.s_addr_lt
  rw [scanHex_append hne (isDigit_printCapitalHex 8 _) _ hblank hc rest,
    valueOf_printCapitalHex]
  rw [valueOf_printCapitalHex, ULONG_MAX]
  omega

namespace Route

theorem columns_chars (route : Route) :
    0 ∉ route.columns ∧ NEWLINE ∉ route.columns := by
  have hiface : 0 ∉ route.iface ∧ NEWLINE ∉ route.iface := by
    refine ⟨fun hmem => (route.iface_chars 0 hmem).1 rfl, fun hmem => ?_⟩
    have hspace := (route.iface_chars NEWLINE hmem).2
    exact absurd hspace (by decide)
  have hmore : 0 ∉ route.more ∧ NEWLINE ∉ route.more :=
    ⟨fun hmem => (route.more_chars 0 hmem).1 rfl,
      fun hmem => (route.more_chars NEWLINE hmem).2 rfl⟩
  have hhex (addr : InAddr) : 0 ∉ printCapitalHex 8 addr.s_addr ∧
      NEWLINE ∉ printCapitalHex 8 addr.s_addr := by
    constructor <;> intro hmem <;>
      exact absurd (isDigit_printCapitalHex 8 _ _ hmem) (by decide)
  have htab : HTAB ≠ 0 ∧ HTAB ≠ NEWLINE := by decide
  simp [columns, hiface, hmore, hhex, htab.1.symm, htab.2.symm]

theorem length_columns (route : Route) : route.columns.length < 2047 := by
  have hiface := route.iface_length
  have hmore := route.more_length
  have hhex (addr : InAddr) := length_printCapitalHex addr.s_addr_lt
  simp only [columns, List.length_append, List.length_cons, hhex]
  omega

/-- What `sscanf` finds in the line of a route. -/
theorem scanRoute_columns (route : Route) :
    NetUtil.scanRoute (.ofMemory (route.columns ++ [NEWLINE] ++ [0])) =
      .ok (some (route.iface, route.destination.s_addr, route.gateway.s_addr)) := by
  have hstring := CString.ofMemory_append ⟨route.columns ++ [NEWLINE], by
    simp [route.columns_chars.1, NEWLINE]⟩ []
  have hbytes : (CString.ofMemory (route.columns ++ [NEWLINE] ++ [0])).bytes =
      route.iface ++ HTAB :: (printCapitalHex 8 route.destination.s_addr ++
        HTAB :: (printCapitalHex 8 route.gateway.s_addr ++
          HTAB :: (route.more ++ [NEWLINE]))) := by
    rw [hstring]
    simp [columns]
  have htab : isspace HTAB = true := rfl
  have hshort : ¬ 1024 ≤ route.iface.length := by
    have hlength := route.iface_length
    omega
  rw [NetUtil.scanRoute, hbytes, scanWord_append route.iface_ne_nil
    (fun c hc => (route.iface_chars c hc).2) htab]
  simp only [hshort, ↓reduceIte, scanHex_s_addr _ htab htab, Option.bind_eq_bind,
    Option.bind_some, Option.pure_def]

end Route

/-! ### Reading the table -/

namespace NetUtil

theorem scanRoute_heading :
    scanRoute (.ofMemory (routeHeading ++ [NEWLINE] ++ [0])) = .ok none := by
  decide +kernel

theorem fgets_line {line : List UInt8} (hline : NEWLINE ∉ line)
    (hlength : line.length < 2047) (rest : List UInt8) :
    fgets ROUTE_BUF_LEN (line ++ NEWLINE :: rest) =
      some (line ++ [NEWLINE], rest) := by
  rw [fgets, if_neg (by simp)]
  exact congrArg some (fgetsLine_append hline hlength rest)

/-- A line that is not that of a default route is passed over. -/
theorem routeLoop_skip {line rest : List UInt8} (hline : NEWLINE ∉ line)
    (hlength : line.length < 2047)
    {found : Option (List UInt8 × Nat × Nat)}
    (hscan : scanRoute (.ofMemory (line ++ [NEWLINE] ++ [0])) = .ok found)
    (hfound : ∀ iface gateway, found ≠ some (iface, 0, gateway)) :
    routeLoop (line ++ NEWLINE :: rest) = routeLoop rest := by
  rw [routeLoop, fgets_line hline hlength rest]
  -- with `hfound` only the last branch is left
  simp only [hscan]

theorem routeLoop_default {line rest iface : List UInt8} {gateway : Nat}
    (hline : NEWLINE ∉ line) (hlength : line.length < 2047)
    (hscan : scanRoute (.ofMemory (line ++ [NEWLINE] ++ [0])) =
      .ok (some (iface, 0, gateway))) :
    routeLoop (line ++ NEWLINE :: rest) =
      .ok (some (inet_ntoa (.ofSAddr gateway), iface)) := by
  rw [routeLoop, fgets_line hline hlength rest]
  simp only [hscan]

theorem routeLoop_routes (routes : List Route) :
    routeLoop (routes.flatMap fun route => route.columns ++ [NEWLINE]) =
      .ok ((routes.find? (·.destination = .any)).map fun route =>
        (inet_ntoa route.gateway, route.iface)) := by
  induction routes with
  | nil =>
      rw [List.flatMap_nil, routeLoop]
      rfl
  | cons route routes ih =>
      have hscan := route.scanRoute_columns
      rw [List.flatMap_cons, List.append_assoc, List.singleton_append]
      by_cases hany : route.destination = .any
      · rw [hany] at hscan
        rw [routeLoop_default route.columns_chars.2 route.length_columns hscan,
          List.find?_cons_of_pos (by simpa using hany), InAddr.ofSAddr_s_addr]
        rfl
      · have hother (iface : List UInt8) (gateway : Nat) :
            some (route.iface, route.destination.s_addr, route.gateway.s_addr) ≠
              some (iface, 0, gateway) := by
          intro hsome
          exact hany (route.destination.s_addr_eq_zero_iff.mp
            (Prod.mk.inj (Prod.mk.inj (Option.some.inj hsome)).2).1)
        rw [routeLoop_skip route.columns_chars.2 route.length_columns hscan hother,
          List.find?_cons_of_neg (by simpa using hany), ih]

end NetUtil

/-- From every routing table the gateway and the interface of the first route to
0.0.0.0 are read, or nothing if there is none. -/
theorem get_default_gateway_routeTable (routes : List Route) :
    NetUtil.get_default_gateway (some (routeTable routes)) =
      .ok ((routes.find? (·.destination = .any)).map fun route =>
        (inet_ntoa route.gateway, route.iface)) := by
  rw [NetUtil.get_default_gateway, routeTable]
  have hlength : routeHeading.length < 2047 := by decide +kernel
  rw [NetUtil.routeLoop_skip (by decide +kernel) hlength NetUtil.scanRoute_heading
    (fun _ _ hsome => by cases hsome)]
  exact NetUtil.routeLoop_routes routes

/-- A route of `eth0`. -/
def eth0Route (destination gateway : InAddr) : Route where
  iface := ascii "eth0"
  destination := destination
  gateway := gateway
  more := ascii "0003\t0\t0\t0\t00000000\t0\t0\t0"
  iface_ne_nil := by decide
  iface_length := by decide
  iface_chars := by decide +kernel
  more_length := by decide
  more_chars := by decide +kernel

/-- The default route comes behind the one to the network it is in. -/
theorem get_default_gateway_routeTable_eth0 :
    NetUtil.get_default_gateway (some (routeTable
        [eth0Route ⟨192, 168, 0, 0⟩ .any, eth0Route .any ⟨192, 168, 0, 1⟩])) =
      .ok (some (ascii "192.168.0.1", ascii "eth0")) :=
  (get_default_gateway_routeTable
    [eth0Route ⟨192, 168, 0, 0⟩ .any, eth0Route .any ⟨192, 168, 0, 1⟩]).trans
    (by decide +kernel)

end MyDirectFB

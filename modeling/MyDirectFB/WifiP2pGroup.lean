/-
`WifiP2pGroup` (wifi/wifi_p2p_group.cpp) and the descriptions of P2P groups it is
constructed from.  What the key-value parser finds goes to the fields by key, and
a word without a value by its index.  A description is read back completely
unless it says that the group is persistent: the callback compares with a text
that lacks the closing bracket.
-/
import MyDirectFB.KeyValueGrammar
import MyDirectFB.Lib.Numeral
import MyDirectFB.StringFunctions

namespace MyDirectFB

open Numeral Scan

structure WifiP2pGroup where
  mInterface : List UInt8
  mIsGroupOwner : Bool
  mNetworkName : List UInt8
  mFreq : Int
  mPsk : List UInt8
  mPassphrase : List UInt8
  mOwnerAddress : List UInt8
  mIsPersitent : Bool
deriving Repr, DecidableEq

namespace WifiP2pGroup

/-- `_parse_key_value_callback`, without the log line for an unknown key. -/
def parseKeyValueCallback (group : WifiP2pGroup) (call : KeyValueCall) :
    WifiP2pGroup :=
  match call.value with
  | none =>
      if call.index = 0 then { group with mInterface := call.key }
      else if call.index = 1 then
        { group with mIsGroupOwner := call.key = ascii "GO" }
      else { group with mIsPersitent := call.key = ascii "[PERSISTENT" }
  | some value =>
      if call.key = ascii "ssid" then { group with mNetworkName := value }
      else if call.key = ascii "freq" then
        { group with mFreq := intOfLong (strtol value 10) }
      else if call.key = ascii "psk" then { group with mPsk := value }
      else if call.key = ascii "passphrase" then
        { group with mPassphrase := value }
      else if call.key = ascii "go_dev_addr" then
        { group with mOwnerAddress := value }
      else group

/-- The fields before the text is parsed. -/
def initial : WifiP2pGroup :=
  ⟨[], false, [], 0, [], [], [], false⟩

/-- The constructor. -/
def new (str : CString) : Option WifiP2pGroup :=
  (parseKeyValueStr str).map (List.foldl parseKeyValueCallback initial)

end WifiP2pGroup

/-! ### Descriptions -/

/-- `"`. -/
def QUOTE : UInt8 := 34

/-- What a description says of the key of the network. -/
inductive GroupSecret where
  | absent
  | psk (hex : List UInt8) (digits : ∀ c ∈ hex, isDigit 16 c = true)
  | passphrase (body : List UInt8) (chars : ∀ c ∈ body, c ≠ 0 ∧ c ≠ QUOTE)

namespace GroupSecret

def text : GroupSecret → List UInt8
  | .absent => []
  | .psk hex _ => ascii " psk=" ++ hex
  | .passphrase body _ => ascii " passphrase=" ++ QUOTE :: (body ++ [QUOTE])

/-- The psk of a description, empty if it has none. -/
def pskValue : GroupSecret → List UInt8
  | .psk hex _ => hex
  | _ => []

def passphraseValue : GroupSecret → List UInt8
  | .passphrase body _ => QUOTE :: (body ++ [QUOTE])
  | _ => []

end GroupSecret

/-- A description of a P2P group. -/
structure GroupText where
  lead : Bool
  ifname : List UInt8
  owner : Bool
  ssid : List UInt8
  freq : List UInt8
  secret : GroupSecret
  addr : List UInt8
  persistent : Bool
  ifname_length : 2 ≤ ifname.length
  ifname_chars : ∀ c ∈ ifname, c ≠ 0 ∧ c ≠ EQUALS ∧ isspace c = false
  ssid_chars : ∀ c ∈ ssid, c ≠ 0 ∧ c ≠ QUOTE
  freq_ne_nil : freq ≠ []
  freq_digits : ∀ c ∈ freq, isDigit 10 c = true
  freq_int : valueOf 10 freq ≤ 2147483647
  addr_chars : ∀ c ∈ addr, c ≠ 0 ∧ isspace c = false

namespace GroupText

def role (t : GroupText) : List UInt8 :=
  if t.owner then ascii "GO" else ascii "client"

/-- `<ifname> <client|GO> ssid="<ssid>" freq=<freq> [psk=<psk> or
passphrase="<passphrase>"] go_dev_addr=<addr>`, possibly with a space before it
and ` [PERSISTENT]` behind it. -/
def text (t : GroupText) : List UInt8 :=
  (if t.lead then ascii " " else []) ++ t.ifname ++ ascii " " ++ t.role ++
    ascii " ssid=" ++ QUOTE :: (t.ssid ++ [QUOTE]) ++
    ascii " freq=" ++ t.freq ++ t.secret.text ++
    ascii " go_dev_addr=" ++ t.addr ++
    (if t.persistent then ascii " [PERSISTENT]" else [])

/-- The group that is described. -/
def group (t : GroupText) : WifiP2pGroup where
  mInterface := t.ifname
  mIsGroupOwner := t.owner
  mNetworkName := QUOTE :: (t.ssid ++ [QUOTE])
  mFreq := valueOf 10 t.freq
  mPsk := t.secret.pskValue
  mPassphrase := t.secret.passphraseValue
  mOwnerAddress := t.addr
  mIsPersitent := t.persistent

end GroupText

/-! ### Descriptions as key-value texts -/

theorem chars_of_all_inKey {key : List UInt8}
    (hkey : key.all KeyValueParser.inKey = true) :
    ∀ c ∈ key, c ≠ 0 ∧ c ≠ EQUALS ∧ isspace c = false := by
  intro c hc
  have hc' := List.all_eq_true.mp hkey c hc
  simpa [KeyValueParser.inKey, and_assoc] using hc'

/-- The address behind `go_dev_addr=`: a value that is read to its end before
white space, or one that begins with a quote that is not closed. -/
theorem addr_cases (addr : List UInt8)
    (hchars : ∀ c ∈ addr, c ≠ 0 ∧ isspace c = false) :
    (∀ c, addr.head? = some c → IS_QUOTE c = false) ∨
      (∃ quote body more, IS_QUOTE quote = true ∧
        (∀ c ∈ body, c ≠ 0 ∧ c ≠ quote) ∧
        (∀ c ∈ more, c ≠ 0 ∧ isspace c = false) ∧
        addr = quote :: (body ++ quote :: more)) ∨
      ∃ quote body, IS_QUOTE quote = true ∧
        (∀ c ∈ body, c ≠ 0 ∧ c ≠ quote) ∧ addr = quote :: body := by
  cases addr with
  | nil => exact .inl fun c hc => by cases hc
  | cons quote tail =>
      cases hquote : IS_QUOTE quote with
      | false =>
          refine .inl fun c hc => ?_
          obtain rfl := Option.some.inj hc
          exact hquote
      | true =>
          have htail (c : UInt8) (hc : c ∈ tail) : c ≠ 0 ∧ isspace c = false :=
            hchars c (List.mem_cons_of_mem _ hc)
          obtain ⟨body, hbody, rfl | ⟨stop, more, hstop, rfl⟩⟩ :=
            exists_stop (fun c => decide (c ≠ quote)) tail
          · refine .inr (.inr ⟨quote, tail, rfl.trans hquote, ?_, rfl⟩)
            exact fun c hc => ⟨(htail c hc).1, by simpa using hbody c hc⟩
          · obtain rfl : stop = quote := by simpa using hstop
            refine .inr (.inl ⟨stop, body, more, hquote, ?_, ?_, rfl⟩)
            · exact fun c hc =>
                ⟨(htail c (by simp [hc])).1, by simpa using hbody c hc⟩
            · exact fun c hc => htail c (by simp [hc])

/-- A key as it stands in a description. -/
def groupKey (name : String)
    (hname : ascii name ≠ [] ∧
      (ascii name).all KeyValueParser.inKey = true) : KeyText :=
  ⟨ascii name, hname.1, chars_of_all_inKey hname.2⟩

/-- Digits as a value. -/
def digitsValue {base : Nat} (hbase : base ≤ 36) (digits : List UInt8)
    (hdigits : ∀ c ∈ digits, isDigit base c = true) : ValueText :=
  .plain digits
    (fun c hc => by
      obtain ⟨hspace, hchar⟩ := digits_chars hbase hdigits c hc
      exact ⟨by rintro rfl; exact hchar (by decide), hspace⟩)
    (fun c hc => by
      obtain ⟨-, hchar⟩ := digits_chars hbase hdigits c
        (List.mem_of_mem_head? hc)
      simp only [List.mem_cons, not_or] at hchar
      simp [IS_QUOTE, hchar.2.1, hchar.2.2.1])

namespace GroupSecret

def items : GroupSecret → List KeyValueItem
  | .absent => []
  | .psk hex digits =>
      [⟨groupKey "psk" (by decide),
        some (digitsValue (show 16 ≤ 36 by decide) hex digits)⟩]
  | .passphrase body chars =>
      [⟨groupKey "passphrase" (by decide), some (.quoted QUOTE body rfl chars)⟩]

end GroupSecret

namespace GroupText

/-- The items before the address. -/
def items (t : GroupText) : List KeyValueItem :=
  [⟨⟨t.ifname, fun hnil => by simpa [hnil] using t.ifname_length,
      t.ifname_chars⟩, none⟩,
    ⟨if t.owner then groupKey "GO" (by decide)
      else groupKey "client" (by decide), none⟩,
    ⟨groupKey "ssid" (by decide), some (.quoted QUOTE t.ssid rfl t.ssid_chars)⟩,
    ⟨groupKey "freq" (by decide),
      some (digitsValue (show 10 ≤ 36 by decide) t.freq t.freq_digits)⟩] ++
    t.secret.items

/-- What follows the address. -/
def suffix (t : GroupText) : List UInt8 :=
  if t.persistent then ascii " [PERSISTENT]" else []

theorem text_eq (t : GroupText) :
    t.text = (if t.lead then [32] else []) ++
      (itemsText (t.items.map fun item => (item, [32])) ++
        (ascii "go" ++ (ascii "_dev_addr" ++ EQUALS :: (t.addr ++ t.suffix)))) := by
  have hspace : ascii " " = [32] := by decide
  have hssid : ascii " ssid=" = 32 :: (ascii "ssid" ++ [EQUALS]) := by decide
  have hfreq : ascii " freq=" = 32 :: (ascii "freq" ++ [EQUALS]) := by decide
  have hpsk : ascii " psk=" = 32 :: (ascii "psk" ++ [EQUALS]) := by decide
  have hpassphrase : ascii " passphrase=" =
      32 :: (ascii "passphrase" ++ [EQUALS]) := by decide
  have haddr : ascii " go_dev_addr=" =
      32 :: (ascii "go" ++ (ascii "_dev_addr" ++ [EQUALS])) := by decide
  obtain ⟨lead, ifname, owner, ssid, freq, secret, addr, persistent⟩ := t
  cases owner <;> cases secret <;>
    simp [text, items, itemsText, role, suffix, GroupSecret.text,
      GroupSecret.items, KeyValueItem.text, ValueText.text, digitsValue, groupKey,
      hspace, hssid, hfreq, hpsk, hpassphrase, haddr]

theorem items_readable (t : GroupText) : ∀ item ∈ t.items, item.Readable := by
  intro item hitem hvalue
  rcases List.mem_append.mp hitem with hitem | hitem
  · simp only [List.mem_cons, List.not_mem_nil, or_false] at hitem
    rcases hitem with rfl | rfl | rfl | rfl
    · exact absurd rfl hvalue
    · exact absurd rfl hvalue
    · exact show 2 ≤ (ascii "ssid").length by decide
    · exact show 2 ≤ (ascii "freq").length by decide
  · cases hsecret : t.secret with
    | absent => simp [hsecret, GroupSecret.items] at hitem
    | psk hex digits =>
        obtain rfl := List.mem_singleton.mp (hsecret ▸ hitem)
        exact show 2 ≤ (ascii "psk").length by decide
    | passphrase body chars =>
        obtain rfl := List.mem_singleton.mp (hsecret ▸ hitem)
        exact show 2 ≤ (ascii "passphrase").length by decide

/-- The call for the address. -/
def addrCall (t : GroupText) (value : List UInt8) : KeyValueCall :=
  ⟨t.items.length, ascii "go_dev_addr", some value⟩

/-- The calls before the one for the address set the fields before it. -/
theorem foldl_items (t : GroupText) :
    (callsFrom 0 t.items).foldl WifiP2pGroup.parseKeyValueCallback .initial =
      { t.group with mOwnerAddress := [], mIsPersitent := false } := by
  obtain ⟨lead, ifname, owner, ssid, freq, secret, addr, persistent, hlength,
    hifname, hssid, hfreq, hdigits, hint, haddr⟩ := t
  have hvalue : intOfLong (strtol freq 10) = valueOf 10 freq := by
    rw [strtol_digits (by decide) hdigits (by unfold LONG_MAX; omega)]
    exact intOfLong_of_bounds (by omega) (by omega)
  cases owner <;> cases secret <;>
    simp +decide [items, GroupSecret.items, callsFrom, KeyValueItem.call,
      WifiP2pGroup.parseKeyValueCallback, WifiP2pGroup.initial, group,
      GroupSecret.pskValue, GroupSecret.passphraseValue, digitsValue, groupKey,
      ValueText.text, hvalue]

end GroupText

namespace KeyValueParser

/-- The parser behind `go`, with an address and more text before it. -/
def atAddr (before more : List UInt8) (calls : List KeyValueCall) :
    KeyValueParser :=
  reading (before ++ ascii "go") (ascii "_dev_addr" ++ EQUALS :: more)
    (some before.length) none calls

theorem addr_done {addr : List UInt8}
    (hchars : ∀ c ∈ addr, c ≠ 0 ∧ isspace c = false) :
    (∀ before rest calls c, (isspace c = true ∨ c = 0) →
      (atAddr before (addr ++ c :: rest) calls).Done c rest
        (calls ++ [⟨calls.length, ascii "go_dev_addr", some addr⟩])) ∨
      ∃ quote body, IS_QUOTE quote = true ∧
        (∀ c ∈ body, c ≠ 0 ∧ c ≠ quote) ∧ addr = quote :: body := by
  have hfront : 0 ∉ ascii "go" := by decide
  have hkeyRest : ∀ c ∈ ascii "_dev_addr",
      c ≠ 0 ∧ c ≠ EQUALS ∧ isspace c = false :=
    chars_of_all_inKey (by decide)
  have hkey : ascii "go" ++ ascii "_dev_addr" = ascii "go_dev_addr" := by decide
  rcases addr_cases addr hchars with hstart |
    ⟨quote, body, more, hquote, hbody, hmore, rfl⟩ | hopen
  · refine .inl fun before rest calls c hc => ?_
    have hdone := @plain_done before rest calls c _ _ addr hfront hkeyRest hchars
      hstart hc
    rwa [hkey] at hdone
  · refine .inl fun before rest calls c hc => ?_
    have hdone := @quoted_done before rest calls c _ _ body more quote hfront
      hkeyRest hquote hbody hmore
    rw [hkey] at hdone
    simpa [atAddr] using hdone
  · exact .inr hopen

/-- The run from the address to the end of a text without anything behind it. -/
theorem addr_ends {addr : List UInt8}
    (hchars : ∀ c ∈ addr, c ≠ 0 ∧ isspace c = false)
    (before rest : List UInt8) (calls : List KeyValueCall) :
    ∃ u, Rounds (atAddr before (addr ++ 0 :: 0 :: rest) calls) u ∧
      u.Ends (calls ++ [⟨calls.length, ascii "go_dev_addr", some addr⟩]) := by
  rcases addr_done hchars with hdone | ⟨quote, body, hquote, hbody, rfl⟩
  · exact (hdone before (0 :: rest) calls 0 (.inr rfl)).2 rfl rfl
  · exact (@unclosed_done before (0 :: rest) calls (ascii "go")
      (ascii "_dev_addr") body quote (by decide)
      (chars_of_all_inKey (by decide)) hquote hbody).2 rfl rfl

/-- The run from the address to the end of a text that ends with
`[PERSISTENT]`, which is read for a key or belongs to a quote that is not
closed. -/
theorem addr_ends_persistent {addr : List UInt8}
    (hchars : ∀ c ∈ addr, c ≠ 0 ∧ isspace c = false)
    (before rest : List UInt8) (calls : List KeyValueCall) :
    ∃ u value after,
      Rounds (atAddr before (addr ++ (ascii " [PERSISTENT]" ++ 0 :: 0 :: rest))
        calls) u ∧
      u.Ends (calls ++ ⟨calls.length, ascii "go_dev_addr", some value⟩ :: after) ∧
      (after = [] ∨
        after = [⟨calls.length + 1, ascii "[PERSISTENT]", none⟩]) := by
  have hsuffix : ascii " [PERSISTENT]" = 32 :: ascii "[PERSISTENT]" := by decide
  rcases addr_done hchars with hdone | ⟨quote, body, hquote, hbody, rfl⟩
  · obtain ⟨next, hnext⟩ := (hdone before (ascii "[PERSISTENT]" ++ 0 :: 0 :: rest)
      calls 32 (.inl rfl)).1 rfl
    obtain ⟨u, hu, hends⟩ := @last_done
      ⟨groupKey "[PERSISTENT]" (by decide), none⟩ (fun h => absurd rfl h) next []
      [] (fun c hc => by cases hc) (fun c hc => by cases hc) rest
      (calls ++ [⟨calls.length, ascii "go_dev_addr", some addr⟩])
    refine ⟨u, addr, _, ?_, ?_, .inr rfl⟩
    · rw [hsuffix]
      refine hnext.trans ?_
      simpa [KeyValueItem.text, groupKey] using hu
    · simpa [KeyValueItem.call, groupKey] using hends
  · have hall : ∀ c ∈ body ++ ascii " [PERSISTENT]", c ≠ 0 ∧ c ≠ quote := by
      have hrest : ∀ c ∈ ascii " [PERSISTENT]", c ≠ 0 ∧ IS_QUOTE c = false :=
        forall_of_all (by decide)
      intro c hc
      rcases List.mem_append.mp hc with hc | hc
      · exact hbody c hc
      · refine ⟨(hrest c hc).1, ?_⟩
        rintro rfl
        exact Bool.false_ne_true ((hrest c hc).2.symm.trans hquote)
    obtain ⟨u, hu, hends⟩ := (@unclosed_done before (0 :: rest) calls
      (ascii "go") (ascii "_dev_addr") _ quote (by decide)
      (chars_of_all_inKey (by decide)) hquote hall).2 rfl rfl
    exact ⟨u, _, [], by simpa [atAddr] using hu, hends, .inl rfl⟩

end KeyValueParser

namespace GroupText

open KeyValueParser in
/-- The run from the beginning of a description to its address. -/
theorem rounds_atAddr (t : GroupText) (more : List UInt8) :
    ∃ before, Rounds
      (reading [] ((if t.lead then [32] else []) ++
        (itemsText (t.items.map fun item => (item, [32])) ++
          (ascii "go" ++ (ascii "_dev_addr" ++ EQUALS :: more)))) none none [])
      (atAddr before more (callsFrom 0 t.items)) := by
  have hlead : Blank (if t.lead then [32] else []) := by
    intro c hc
    split at hc
    · obtain rfl := List.mem_singleton.mp hc
      rfl
    · cases hc
  have hentries : ∀ entry ∈ t.items.map fun item => (item, ([32] : List UInt8)),
      entry.1.Readable ∧ Blank entry.2 ∧ entry.2 ≠ [] := by
    intro entry hentry
    obtain ⟨item, hitem, rfl⟩ := List.mem_map.mp hentry
    refine ⟨t.items_readable item hitem, fun c hc => ?_, by simp⟩
    obtain rfl := List.mem_singleton.mp hc
    rfl
  obtain ⟨before, blank, hblank, hrounds⟩ := items_done
    (t.items.map fun item => (item, [32])) (fun e he => (hentries e he).1)
    (fun e he => (hentries e he).2) [] hlead
    (ascii "go" ++ (ascii "_dev_addr" ++ EQUALS :: more)) []
  have hkey := @rounds_key before (EQUALS :: more) (callsFrom 0 t.items) blank
    (ascii "_dev_addr") 103 111 hblank (chars_of_all_inKey (by decide))
  have hmap : (t.items.map fun item => (item, ([32] : List UInt8))).map Prod.fst =
      t.items := by
    rw [List.map_map]
    exact List.map_id _
  rw [hmap] at hrounds
  exact ⟨before ++ blank, hrounds.trans hkey⟩

open KeyValueParser in
/-- The calls for a description.  If it says `[PERSISTENT]`, the address may be
misread, and the last call, if it is made, has the whole word for its key. -/
theorem parse_text (t : GroupText) (str : CString) (htext : str.bytes = t.text)
    (hlength : t.text.length < 2046) :
    ∃ calls, parseKeyValueStr str = some calls ∧
      ∃ value after, calls = callsFrom 0 t.items ++ t.addrCall value :: after ∧
        (after = [] ∨
          after = [⟨t.items.length + 1, ascii "[PERSISTENT]", none⟩]) ∧
        (t.persistent = false → value = t.addr) := by
  refine parseKeyValueStr_of_rounds (htext ▸ hlength) fun rest => ?_
  obtain ⟨before, hitems⟩ :=
    t.rounds_atAddr (t.addr ++ (t.suffix ++ 0 :: 0 :: rest))
  have hstart : str.bytes ++ 0 :: 0 :: rest =
      (if t.lead then [32] else []) ++
        (itemsText (t.items.map fun item => (item, [32])) ++
          (ascii "go" ++ (ascii "_dev_addr" ++
            EQUALS :: (t.addr ++ (t.suffix ++ 0 :: 0 :: rest))))) := by
    simp [htext, t.text_eq]
  rw [hstart]
  have hcount : (callsFrom 0 t.items).length = t.items.length :=
    length_callsFrom 0 t.items
  cases hpersistent : t.persistent with
  | false =>
      have hsuffix : t.suffix = [] := by simp [suffix, hpersistent]
      obtain ⟨u, haddr, hends⟩ :=
        addr_ends t.addr_chars before rest (callsFrom 0 t.items)
      rw [hcount] at hends
      refine ⟨u, _, hitems.trans ?_, hends, t.addr, [], rfl, .inl rfl,
        fun _ => rfl⟩
      rw [hsuffix]
      exact haddr
  | true =>
      have hsuffix : t.suffix = ascii " [PERSISTENT]" := by
        simp [suffix, hpersistent]
      obtain ⟨u, value, after, haddr, hends, hafter⟩ :=
        addr_ends_persistent t.addr_chars before rest (callsFrom 0 t.items)
      rw [hcount] at hends hafter
      refine ⟨u, _, hitems.trans ?_, hends, value, after, rfl, hafter,
        fun h => by cases h⟩
      rw [hsuffix]
      exact haddr

/-- The group that is constructed is the described one, up to what stands behind
the secret. -/
theorem new_text (t : GroupText) (str : CString) (htext : str.bytes = t.text)
    (hlength : t.text.length < 2046) :
    ∃ value, WifiP2pGroup.new str =
        some { t.group with mOwnerAddress := value, mIsPersitent := false } ∧
      (t.persistent = false → value = t.addr) := by
  obtain ⟨calls, hparse, value, after, rfl, hafter, hvalue⟩ :=
    t.parse_text str htext hlength
  refine ⟨value, ?_, hvalue⟩
  rw [WifiP2pGroup.new, hparse, Option.map_some, List.foldl_append, t.foldl_items]
  rcases hafter with rfl | rfl
  · simp +decide [addrCall, WifiP2pGroup.parseKeyValueCallback]
  · have hindex : t.items ≠ [] := by simp [items]
    simp +decide [addrCall, WifiP2pGroup.parseKeyValueCallback, hindex]

end GroupText

/-- A description is read back completely exactly if it does not say that the
group is persistent. -/
theorem newGroup_iff (t : GroupText) (str : CString) (htext : str.bytes = t.text)
    (hlength : t.text.length < 2046) :
    WifiP2pGroup.new str = some t.group ↔ t.persistent = false := by
  obtain ⟨value, hnew, hvalue⟩ := t.new_text str htext hlength
  rw [hnew, Option.some.injEq]
  constructor
  · intro hgroup
    exact (congrArg WifiP2pGroup.mIsPersitent hgroup).symm
  · intro hpersistent
    rw [hvalue hpersistent, ← hpersistent]
    rfl

/-- `p2p-wlan0-0 GO ssid="DIRECT-W8" freq=2437 passphrase="fKG4jMe3"
go_dev_addr=fa:7b:7a:42:02:13`, with or without ` [PERSISTENT]`. -/
def directGroup (persistent : Bool) : GroupText where
  lead := false
  ifname := ascii "p2p-wlan0-0"
  owner := true
  ssid := ascii "DIRECT-W8"
  freq := ascii "2437"
  secret := .passphrase (ascii "fKG4jMe3") (forall_of_all (by decide))
  addr := ascii "fa:7b:7a:42:02:13"
  persistent := persistent
  ifname_length := by decide
  ifname_chars := forall_of_all (by decide)
  ssid_chars := forall_of_all (by decide)
  freq_ne_nil := by decide
  freq_digits := forall_of_all (by decide)
  freq_int := by decide
  addr_chars := forall_of_all (by decide)

theorem newGroup_iff_directGroup :
    WifiP2pGroup.new ⟨(directGroup false).text, by decide⟩ =
      some ⟨ascii "p2p-wlan0-0", true, ascii "\"DIRECT-W8\"", 2437, [],
        ascii "\"fKG4jMe3\"", ascii "fa:7b:7a:42:02:13", false⟩ := by
  have hgroup : (directGroup false).group =
      ⟨ascii "p2p-wlan0-0", true, ascii "\"DIRECT-W8\"", 2437, [],
        ascii "\"fKG4jMe3\"", ascii "fa:7b:7a:42:02:13", false⟩ := by decide
  rw [← hgroup]
  exact (newGroup_iff (directGroup false) _ rfl (by decide)).mpr rfl

/-- A persistent group is taken for one that is not. -/
theorem persistentGroup_misread :
    (directGroup true).group.mIsPersitent = true ∧
      (directGroup true).text.length < 2046 ∧
      (WifiP2pGroup.new ⟨(directGroup true).text, by decide⟩).map
        WifiP2pGroup.mIsPersitent = some false ∧
      WifiP2pGroup.new ⟨(directGroup true).text, by decide⟩ ≠
        some (directGroup true).group := by
  have hflag : (WifiP2pGroup.new ⟨(directGroup true).text, by decide⟩).map
      WifiP2pGroup.mIsPersitent = some false := by decide +kernel
  refine ⟨rfl, by decide, hflag, fun hnew => ?_⟩
  rw [hnew] at hflag
  exact absurd hflag (by decide)

end MyDirectFB

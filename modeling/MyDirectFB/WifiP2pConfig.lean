/-
`WifiP2pConfig` (wifi/wifi_p2p_config.cpp), and requests to negotiate the owner of
a group on their way from wpa_supplicant to a listener: the message becomes an
event with a part of its text, and the configuration is constructed from that.
The callback takes a word without a value for the address of the peer, and knows
one of the parameters.
-/
import MyDirectFB.WifiEventDelivery
import MyDirectFB.WifiExtraData
import MyDirectFB.WifiP2pGroup

namespace MyDirectFB

open Numeral Scan

structure WifiP2pConfig where
  mDeviceAddress : List UInt8
  mGroupOwnerIntent : Int
deriving Repr, DecidableEq

namespace WifiP2pConfig

/-- `_parse_key_value_callback`, without the log lines. -/
def parseKeyValueCallback (config : WifiP2pConfig) (call : KeyValueCall) :
    WifiP2pConfig :=
  match call.value with
  | none => { config with mDeviceAddress := call.key }
  | some value =>
      if call.key = ascii "go_intent" then
        { config with mGroupOwnerIntent := intOfLong (strtol value 10) }
      else config

/-- The fields before the text is parsed. -/
def initial : WifiP2pConfig :=
  ⟨[], -1⟩

/-- The constructor. -/
def new (str : CString) : Option WifiP2pConfig :=
  (parseKeyValueStr str).map (List.foldl parseKeyValueCallback initial)

end WifiP2pConfig

/-! ### Requests -/

/-- A parameter of a request other than the intent. -/
structure RequestParam where
  key : KeyText
  value : ValueText
  readable : 2 ≤ key.bytes.length
  other : key.bytes ≠ ascii "go_intent"

def RequestParam.item (param : RequestParam) : KeyValueItem :=
  ⟨param.key, some param.value⟩

/-- How much the peer wants to be the owner of the group, in digits. -/
structure IntentText where
  digits : List UInt8
  ne_nil : digits ≠ []
  isDigits : ∀ c ∈ digits, isDigit 10 c = true
  int : valueOf 10 digits ≤ 2147483647

theorem ten_le_max_base : 10 ≤ 36 := by decide

theorem goIntent_inKey : ascii "go_intent" ≠ [] ∧
    (ascii "go_intent").all KeyValueParser.inKey = true := by decide

def IntentText.item (intent : IntentText) : KeyValueItem :=
  ⟨groupKey "go_intent" goIntent_inKey,
    some (digitsValue ten_le_max_base intent.digits intent.isDigits)⟩

/-- `<address> dev_passwd_id=<id> go_intent=<intent>`, possibly without the intent
and with any other parameters on either side of it. -/
structure GoNegRequest where
  address : KeyText
  front : List RequestParam
  intent : Option IntentText
  back : List RequestParam

/-- Items that each follow a space. -/
def spacedText (items : List KeyValueItem) : List UInt8 :=
  items.flatMap fun item => SPACE :: item.text

namespace GoNegRequest

def items (request : GoNegRequest) : List KeyValueItem :=
  ⟨request.address, none⟩ :: (request.front.map RequestParam.item ++
    (request.intent.toList.map IntentText.item ++
      request.back.map RequestParam.item))

/-- The configuration that is requested; without an intent it is -1. -/
def config (request : GoNegRequest) : WifiP2pConfig where
  mDeviceAddress := request.address.bytes
  mGroupOwnerIntent :=
    match request.intent with
    | none => -1
    | some intent => valueOf 10 intent.digits

end GoNegRequest

/-! ### Texts without NUL -/

theorem ValueText.zero_not_mem (value : ValueText) : 0 ∉ value.text := by
  cases value with
  | plain bytes chars start => exact fun hmem => (chars 0 hmem).1 rfl
  | quoted quote body isQuote chars =>
      have hquote := (KeyValueParser.quote_chars isQuote).1
      have hbody : 0 ∉ body := fun hmem => (chars 0 hmem).1 rfl
      simp [ValueText.text, hquote.symm, hbody]

theorem KeyValueItem.zero_not_mem (item : KeyValueItem) : 0 ∉ item.text := by
  obtain ⟨key, value⟩ := item
  have hkey : 0 ∉ key.bytes := fun hmem => (key.chars 0 hmem).1 rfl
  cases value with
  | none => simp [KeyValueItem.text, hkey]
  | some value =>
      simp [KeyValueItem.text, hkey, value.zero_not_mem, EQUALS]

theorem zero_not_mem_spacedText (items : List KeyValueItem) :
    0 ∉ spacedText items := by
  simp [spacedText, KeyValueItem.zero_not_mem, SPACE]

/-! ### Reading a request -/

/-- The space before an item is also the one behind the item before it. -/
theorem spacedText_append (front : List KeyValueItem) (more : List UInt8) :
    spacedText front ++ SPACE :: more =
      SPACE :: (itemsText (front.map fun item => (item, [SPACE])) ++ more) := by
  induction front with
  | nil => rfl
  | cons item front ih =>
      simp only [spacedText, itemsText] at ih
      simp [spacedText, itemsText, ih]

theorem blank_space : Blank [SPACE] := by
  intro c hc
  obtain rfl := List.mem_singleton.mp hc
  rfl

open KeyValueParser in
/-- Items that can be read and each follow a space lead to one call each. -/
theorem parseKeyValueStr_spaced {front : List KeyValueItem} {last : KeyValueItem}
    (hreadable : ∀ item ∈ front ++ [last], item.Readable) (str : CString)
    (htext : str.bytes = spacedText (front ++ [last]))
    (hlength : str.bytes.length < 2046) :
    parseKeyValueStr str = some (callsFrom 0 (front ++ [last])) := by
  have hmap : (front.map fun item => (item, [SPACE])).map Prod.fst = front := by
    rw [List.map_map]
    exact List.map_id _
  have hentries : ∀ entry ∈ front.map fun item => (item, [SPACE]),
      entry.1.Readable ∧ Blank entry.2 ∧ entry.2 ≠ [] := by
    intro entry hentry
    obtain ⟨item, hitem, rfl⟩ := List.mem_map.mp hentry
    exact ⟨hreadable item (List.mem_append_left _ hitem), blank_space,
      List.cons_ne_nil _ _⟩
  have hlast := hreadable last (List.mem_append_right _ List.mem_cons_self)
  have hrun : ∀ rest, ∃ t calls,
      Rounds (reading [] (str.bytes ++ 0 :: 0 :: rest) none none []) t ∧
        t.Ends calls ∧ calls = callsFrom 0 (front ++ [last]) := by
    intro rest
    obtain ⟨before, blank, hblank, hfront⟩ := items_done
      (front.map fun item => (item, [SPACE])) (fun e he => (hentries e he).1)
      (fun e he => (hentries e he).2) [] blank_space
      (last.text ++ ([] ++ 0 :: 0 :: rest)) []
    rw [hmap] at hfront
    obtain ⟨t, hend, hends⟩ := last_done hlast before hblank
      (fun c hc => absurd hc List.not_mem_nil) rest (callsFrom 0 front)
    have hstart : str.bytes ++ 0 :: 0 :: rest = [SPACE] ++
        (itemsText (front.map fun item => (item, [SPACE])) ++
          (last.text ++ ([] ++ 0 :: 0 :: rest))) := by
      have hspaces := spacedText_append front (last.text ++ 0 :: 0 :: rest)
      simp only [spacedText] at hspaces
      simp [htext, spacedText, hspaces]
    refine ⟨t, _, ?_, hends, ?_⟩
    · rw [hstart]
      exact hfront.trans hend
    · rw [callsFrom_append_singleton, length_callsFrom, Nat.zero_add]
  obtain ⟨calls, hparse, hcalls⟩ := parseKeyValueStr_of_rounds hlength hrun
  rw [hparse, hcalls]

namespace WifiP2pConfig

variable {config : WifiP2pConfig}

/-- The index of a call does not matter. -/
theorem foldl_callsFrom (index : Nat) (items : List KeyValueItem) :
    (callsFrom index items).foldl parseKeyValueCallback config =
      items.foldl (fun config item =>
        parseKeyValueCallback config (item.call 0)) config := by
  induction items generalizing index config with
  | nil => rfl
  | cons item items ih => exact ih _

/-- A parameter other than the intent changes nothing. -/
theorem foldl_params (params : List RequestParam) :
    (params.map RequestParam.item).foldl (fun config item =>
      parseKeyValueCallback config (item.call 0)) config = config := by
  induction params with
  | nil => rfl
  | cons param params ih =>
      have hother : parseKeyValueCallback config (param.item.call 0) = config :=
        if_neg param.other
      rw [List.map_cons, List.foldl_cons, hother, ih]

theorem parse_intent (intent : IntentText) :
    parseKeyValueCallback config (intent.item.call 0) =
      { config with mGroupOwnerIntent := valueOf 10 intent.digits } := by
  have hvalue : intOfLong (strtol intent.digits 10) = valueOf 10 intent.digits := by
    have hint := intent.int
    rw [strtol_digits (by decide) intent.isDigits (by unfold LONG_MAX; omega)]
    exact intOfLong_of_bounds (by omega) (by omega)
  rw [← hvalue]
  rfl

end WifiP2pConfig

namespace GoNegRequest

variable (request : GoNegRequest)

theorem items_readable : ∀ item ∈ request.items, item.Readable := by
  have hparams (params : List RequestParam) :
      ∀ item ∈ params.map RequestParam.item, item.Readable := by
    intro item hitem _
    obtain ⟨param, -, rfl⟩ := List.mem_map.mp hitem
    exact param.readable
  intro item hitem
  simp only [items, List.mem_cons, List.mem_append] at hitem
  rcases hitem with rfl | hfront | hintent | hback
  · exact fun hvalue => absurd rfl hvalue
  · exact hparams request.front item hfront
  · obtain ⟨intent, -, rfl⟩ := List.mem_map.mp hintent
    exact fun _ => show 2 ≤ (ascii "go_intent").length by decide
  · exact hparams request.back item hback

theorem foldl_items :
    request.items.foldl (fun config item =>
      config.parseKeyValueCallback (item.call 0)) .initial = request.config := by
  obtain ⟨address, front, intent, back⟩ := request
  have haddress : WifiP2pConfig.initial.parseKeyValueCallback
      (KeyValueItem.call ⟨address, none⟩ 0) = ⟨address.bytes, -1⟩ := rfl
  rw [items, List.foldl_cons, haddress, List.foldl_append, List.foldl_append,
    WifiP2pConfig.foldl_params, WifiP2pConfig.foldl_params]
  cases intent with
  | none => rfl
  | some intent => exact WifiP2pConfig.parse_intent intent

/-- The text behind the name of the event. -/
def text : CString :=
  ⟨spacedText request.items, zero_not_mem_spacedText _⟩

/-- A request is read back completely. -/
theorem new_text (hlength : request.text.bytes.length < 2046) :
    WifiP2pConfig.new request.text = some request.config := by
  obtain ⟨front, last, hitems⟩ : ∃ front last, request.items = front ++ [last] :=
    ⟨_, _, (List.dropLast_append_getLast (List.cons_ne_nil _ _)).symm⟩
  have hparse := parseKeyValueStr_spaced (hitems ▸ request.items_readable)
    request.text (congrArg spacedText hitems) hlength
  rw [← hitems] at hparse
  rw [WifiP2pConfig.new, hparse, Option.map_some, WifiP2pConfig.foldl_callsFrom,
    request.foldl_items]

/-- The request as a message behind its header. -/
def body : CString where
  bytes := ascii "P2P-GO-NEG-REQUEST" ++ request.text.bytes
  noNul := by
    have hname : 0 ∉ ascii "P2P-GO-NEG-REQUEST" := by decide
    simp [hname, request.text.noNul]

end GoNegRequest

/-- The configuration that a listener finds in an event. -/
def WifiEvent.wifiP2pConfig (e : WifiEvent) : Option WifiP2pConfig :=
  match e.getExtraData with
  | some (.wifiP2pConfig str) => WifiP2pConfig.new (CString.ofMemory (str ++ [0]))
  | _ => none

theorem goNegRequest_mem_outcomes : EventOutcome.under P2P_PREFIX_STR
    ⟨ascii "GO-NEG-REQUEST", .p2pGoNegRequest,
      fun rest => some (.wifiP2pConfig rest)⟩ ∈ outcomes := by
  apply List.mem_append_right
  apply List.mem_append_left
  apply List.mem_map_of_mem
  simp [p2pOutcomes]

theorem GoNegRequest.new_messageText (request : GoNegRequest)
    (interface : InterfaceName) (level : EventLevel) :
    WifiEvent.new (some (messageText interface level request.body)) =
      ⟨.p2pGoNegRequest, interface.bytes,
        some (.wifiP2pConfig request.text.bytes)⟩ := by
  rw [WifiEvent.new_messageText]
  exact WifiEvent.parseMsg_of_mem _ goNegRequest_mem_outcomes request.text.bytes

/-- A request that fits in the buffer comes to the listeners as an event of its
type and interface, and the configuration they find in it is the requested one,
whatever other parameters there are. -/
theorem goNegRequest_delivered (recv : WpaCtrlRecv) (interface : InterfaceName)
    (level : EventLevel) (request : GoNegRequest)
    (hlength : (messageText interface level request.body).bytes.length <
      MONITOR_BUF_LEN) :
    ∃ event, WifiManager.onFdReadable
          (some (recv.stored (messageText interface level request.body).bytes)) =
        some (true, some event) ∧
      event.mType = .p2pGoNegRequest ∧ event.mInterface = interface.bytes ∧
      event.wifiP2pConfig = some request.config := by
  have hshort : request.text.bytes.length < 2046 := by
    unfold MONITOR_BUF_LEN at hlength
    simp only [messageText, GoNegRequest.body, List.length_append] at hlength
    omega
  refine ⟨WifiEvent.new (some (messageText interface level request.body)), ?_⟩
  rw [onFdReadable_stored recv _ hlength, request.new_messageText]
  refine ⟨if_neg EventType.noConfusion, rfl, rfl, ?_⟩
  have hstr : CString.ofMemory (request.text.bytes ++ [0]) = request.text :=
    CString.ofMemory_append _ _
  exact (congrArg WifiP2pConfig.new hstr).trans (request.new_text hshort)

theorem isQuote_apostrophe : IS_QUOTE 39 = true := rfl

/-- `02:00:00:00:00:01 dev_passwd_id=4 go_intent=13 peer='a b'`. -/
def phoneRequest : GoNegRequest where
  address := groupKey "02:00:00:00:00:01" (by decide)
  front := [⟨groupKey "dev_passwd_id" (by decide),
    digitsValue ten_le_max_base (ascii "4") (forall_of_all rfl), by decide,
    by decide⟩]
  intent := some ⟨ascii "13", by decide, forall_of_all rfl, by decide⟩
  back := [⟨groupKey "peer" (by decide),
    .quoted 39 (ascii "a b") isQuote_apostrophe (forall_of_all (by decide)),
    by decide, by decide⟩]

theorem goNegRequest_delivered_phone :
    ∃ event, WifiManager.onFdReadable (some (ascii ("IFNAME=wlan0 <3>" ++
        "P2P-GO-NEG-REQUEST 02:00:00:00:00:01 dev_passwd_id=4 go_intent=13 " ++
        "peer='a b'"))) = some (true, some event) ∧
      event.mType = .p2pGoNegRequest ∧ event.mInterface = ascii "wlan0" ∧
      event.wifiP2pConfig = some ⟨ascii "02:00:00:00:00:01", 13⟩ :=
  goNegRequest_delivered datagramRecv wlan0 level3 phoneRequest (by decide)

end MyDirectFB

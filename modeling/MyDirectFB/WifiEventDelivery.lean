/-
Which messages of wpa_supplicant come to the listeners: `onFdReadable` of
wifi/wifi_manager.cpp notifies them of every event that has a type.  A message
with a header gets the type of the name it begins with, except that a connect and
a disconnect get none.
-/
import MyDirectFB.WifiEventNames

namespace MyDirectFB

open PrefixDispatch Scan

/-- The size of the buffer of `onFdReadable`. -/
def MONITOR_BUF_LEN : Nat := 256

/-- `wpa_ctrl_recv` of the client library of wpa_supplicant, as far as it stores
a message in a buffer of that size: the whole message if it has room for it, and
otherwise the buffer is filled. -/
structure WpaCtrlRecv where
  stored : List UInt8 → List UInt8
  whole : ∀ message, message.length ≤ MONITOR_BUF_LEN → stored message = message
  full : ∀ message, MONITOR_BUF_LEN ≤ message.length →
    (stored message).length = MONITOR_BUF_LEN

namespace WifiManager

/-- `WifiManager::onFdReadable`: what it returns, and the event it notifies the
listeners of.  `received` is what is stored in its buffer, or nothing if
`wpa_ctrl_recv` fails.  It has no result if it writes behind the buffer. -/
def onFdReadable (received : Option (List UInt8)) :
    Option (Bool × Option WifiEvent) :=
  match received with
  | none => some (false, none)
  | some buf =>
      if buf.length < MONITOR_BUF_LEN then
        let event := WifiEvent.new (some (CString.ofMemory (buf ++ [0])))
        if event.mType = .unknown then some (true, none)
        else some (true, some event)
      else none

end WifiManager

/-- The names the parser tests for, and the types of their events. -/
def eventTypes : List (List UInt8 × EventType) :=
  [(ascii "CTRL-EVENT-SCAN-STARTED", .scanStarted),
    (ascii "CTRL-EVENT-BSS-ADDED", .eventBssAdded),
    (ascii "CTRL-EVENT-BSS-REMOVED", .eventBssRemoved),
    (ascii "CTRL-EVENT-SCAN-RESULTS", .scanResults),
    (ascii "CTRL-EVENT-NETWORK-NOT-FOUND", .eventNetworkNotFound),
    (ascii "CTRL-EVENT-CONNECTED", .eventConnected),
    (ascii "CTRL-EVENT-DISCONNECTED", .eventDisconnected),
    (ascii "P2P-DEVICE-FOUND", .p2pDeviceFound),
    (ascii "P2P-DEVICE-LOST", .p2pDeviceLost),
    (ascii "P2P-PROV-DISC-PBC-REQ", .p2pProvDiscPbcReq),
    (ascii "P2P-INVITATION-ACCEPTED", .p2pInvitationAccepted),
    (ascii "P2P-GO-NEG-REQUEST", .p2pGoNegRequest),
    (ascii "P2P-GO-NEG-SUCCESS", .p2pGoNegSuccess),
    (ascii "P2P-GO-NEG-FAILURE", .p2pGoNegFailure),
    (ascii "P2P-GROUP-STARTED", .p2pGroupStarted),
    (ascii "P2P-GROUP-REMOVED", .p2pGroupRemoved),
    (ascii "P2P-GROUP-FORMATION-SUCCESS", .p2pGroupFormationSuccess),
    (ascii "P2P-GROUP-FORMATION-FAILURE", .p2pGroupFormationFailure),
    (ascii "Trying to associate with", .tryToAssociate),
    (ascii "WPS-TIMEOUT", .wpsTimeout)]

/-- `IFNAME=<name> <digits>` and what follows. -/
def messageText (interface : InterfaceName) (level : EventLevel)
    (body : CString) : CString where
  bytes := EventHeader.interfaceText ⟨some interface, some level⟩ ++
    (EventHeader.levelText ⟨some interface, some level⟩ ++ body.bytes)
  noNul := by
    have hlevel := (EventHeader.levelText_not_mem ⟨some interface, some level⟩).1
    simp [EventHeader.interfaceText_not_mem, hlevel, body.noNul]

namespace WifiEvent

theorem new_messageText (interface : InterfaceName) (level : EventLevel)
    (body : CString) :
    new (some (messageText interface level body)) =
      parseMsg ⟨.unknown, interface.bytes, none⟩ body.bytes := by
  simp only [new, parseWpaEvent, messageText, parseInterface,
    EventHeader.interfaceText, EventHeader.levelText, findInterface_header,
    parseLevel, findLevel_header, Option.getD_some]

end WifiEvent

/-- The event has the type and the interface of the message, and the listeners
are notified of it. -/
def Classified (recv : WpaCtrlRecv) (interface : InterfaceName)
    (level : EventLevel) (body : CString) (type : EventType) : Prop :=
  let text := messageText interface level body
  let event := WifiEvent.new (some text)
  event.mType = type ∧ event.mInterface = interface.bytes ∧
    WifiManager.onFdReadable (some (recv.stored text.bytes)) = some (true, some event)

/-- The listeners are not notified. -/
def NotDelivered (recv : WpaCtrlRecv) (interface : InterfaceName)
    (level : EventLevel) (body : CString) : Prop :=
  let text := messageText interface level body
  ∀ result event,
    WifiManager.onFdReadable (some (recv.stored text.bytes)) ≠ some (result, some event)

/-- A name is not that of a connect or of a disconnect. -/
def NotConnection (name : List UInt8) : Prop :=
  name ≠ ascii "CTRL-EVENT-CONNECTED" ∧ name ≠ ascii "CTRL-EVENT-DISCONNECTED"

instance (name : List UInt8) : Decidable (NotConnection name) :=
  inferInstanceAs (Decidable (_ ∧ _))

/-- What comes of a message that fits in the buffer with its NUL. -/
theorem onFdReadable_stored (recv : WpaCtrlRecv) (text : CString)
    (hlength : text.bytes.length < MONITOR_BUF_LEN) :
    WifiManager.onFdReadable (some (recv.stored text.bytes)) =
      if (WifiEvent.new (some text)).mType = .unknown then some (true, none)
      else some (true, some (WifiEvent.new (some text))) := by
  rw [recv.whole _ (Nat.le_of_lt hlength), WifiManager.onFdReadable]
  simp only [hlength, ↓reduceIte, CString.ofMemory_append]

theorem onFdReadable_full (recv : WpaCtrlRecv) (text : CString)
    (hlength : ¬ text.bytes.length < MONITOR_BUF_LEN) :
    WifiManager.onFdReadable (some (recv.stored text.bytes)) = none := by
  have hfull := recv.full _ (Nat.le_of_not_lt hlength)
  simp only [WifiManager.onFdReadable, hfull, Nat.lt_irrefl, ↓reduceIte]

/-- The names of the table and the names that get a type. -/
theorem outcome_of_eventTypes :
    ∀ entry ∈ eventTypes, NotConnection entry.1 → ∃ outcome ∈ outcomes,
      outcome.name = entry.1 ∧ outcome.type = entry.2 := by
  decide

theorem eventTypes_of_outcome :
    ∀ outcome ∈ outcomes, ∃ entry ∈ eventTypes, entry.1 = outcome.name := by
  decide

/-- Any name of a connection is apart from the names that get a type. -/
theorem not_outcome_of_connection {name : List UInt8}
    (hname : ¬ NotConnection name) (payload : List UInt8) :
    ∀ outcome ∈ outcomes, ¬ outcome.name <+: name ++ payload := by
  have happart : ∀ outcome ∈ outcomes,
      Apart (ascii "CTRL-EVENT-CONNECTED") outcome.name ∧
        Apart (ascii "CTRL-EVENT-DISCONNECTED") outcome.name := by
    decide
  intro outcome houtcome
  simp only [NotConnection, not_and_or, not_not] at hname
  rcases hname with rfl | rfl
  · exact not_prefix_of_apart (happart outcome houtcome).1
      (List.prefix_append _ _)
  · exact not_prefix_of_apart (happart outcome houtcome).2
      (List.prefix_append _ _)

theorem eventTypes_ne_unknown : ∀ entry ∈ eventTypes, entry.2 ≠ .unknown := by
  decide

/-- A message with a header, a name and a payload is classified exactly if the
name is not that of a connect or a disconnect and the message fits in the buffer;
and a message without any of the names is not delivered. -/
theorem event_classified_iff (recv : WpaCtrlRecv) (interface : InterfaceName)
    (level : EventLevel) :
    (∀ entry ∈ eventTypes, ∀ (body : CString) (payload : List UInt8),
      body.bytes = entry.1 ++ payload →
      (payload = [] ∨ payload.head? = some SPACE) →
      (Classified recv interface level body entry.2 ↔
        NotConnection entry.1 ∧
          (messageText interface level body).bytes.length < 256)) ∧
    ∀ body : CString, (∀ entry ∈ eventTypes, ¬ entry.1 <+: body.bytes) →
      (WifiEvent.new (some (messageText interface level body))).mType =
          .unknown ∧ NotDelivered recv interface level body := by
  constructor
  · intro entry hentry body payload hbody _
    rw [Classified, WifiEvent.new_messageText, hbody]
    constructor
    · rintro ⟨htype, -, hdelivered⟩
      constructor
      · by_contra hname
        rw [WifiEvent.parseMsg_of_none _
          (not_outcome_of_connection hname payload)] at htype
        exact eventTypes_ne_unknown entry hentry htype.symm
      · by_contra hlong
        rw [onFdReadable_full recv _ hlong] at hdelivered
        cases hdelivered
    · rintro ⟨hname, hshort⟩
      obtain ⟨outcome, houtcome, hword, htype⟩ :=
        outcome_of_eventTypes entry hentry hname
      have hne := eventTypes_ne_unknown entry hentry
      rw [onFdReadable_stored recv _ hshort, WifiEvent.new_messageText, hbody,
        ← hword, WifiEvent.parseMsg_of_mem _ houtcome, ← htype]
      refine ⟨rfl, rfl, if_neg ?_⟩
      rw [EventOutcome.event, htype]
      exact hne
  · intro body hnone
    have hevent : WifiEvent.new (some (messageText interface level body)) =
        ⟨.unknown, interface.bytes, none⟩ := by
      rw [WifiEvent.new_messageText]
      refine WifiEvent.parseMsg_of_none _ fun outcome houtcome => ?_
      obtain ⟨entry, hentry, hname⟩ := eventTypes_of_outcome outcome houtcome
      exact hname ▸ hnone entry hentry
    refine ⟨by rw [hevent], fun result event hdelivered => ?_⟩
    by_cases hshort : (messageText interface level body).bytes.length <
        MONITOR_BUF_LEN
    · rw [onFdReadable_stored recv _ hshort, hevent, if_pos rfl] at hdelivered
      cases hdelivered
    · rw [onFdReadable_full recv _ hshort] at hdelivered
      cases hdelivered

/-- A datagram socket: what does not fit in the buffer is lost. -/
def datagramRecv : WpaCtrlRecv where
  stored := fun message => message.take MONITOR_BUF_LEN
  whole := fun _ hle => List.take_of_length_le hle
  full := fun _ hle => by rw [List.length_take, Nat.min_eq_left hle]

def wlan0 : InterfaceName :=
  ⟨ascii "wlan0", forall_of_all (by decide)⟩

theorem level3_ne_nil : ([51] : List UInt8) ≠ [] :=
  List.cons_ne_nil _ _

theorem level3_chars : ∀ c ∈ ([51] : List UInt8), 48 ≤ c ∧ c ≤ 57 :=
  forall_of_all (by decide)

def level3 : EventLevel :=
  ⟨[51], level3_ne_nil, level3_chars⟩

/-- The end of a scan, as a message. -/
theorem event_classified_iff_scanResults :
    Classified datagramRecv wlan0 level3
      ⟨ascii "CTRL-EVENT-SCAN-RESULTS ", by decide⟩ .scanResults :=
  ((event_classified_iff datagramRecv wlan0 level3).1
    (ascii "CTRL-EVENT-SCAN-RESULTS", .scanResults) (by decide) _ [SPACE]
    (by decide) (.inr rfl)).mpr ⟨by decide, by decide⟩

/-- A connect has no type, and the listeners are not notified of it. -/
theorem connected_not_classified :
    ¬ Classified datagramRecv wlan0 level3
        ⟨ascii "CTRL-EVENT-CONNECTED - Connection completed", by decide⟩
        .eventConnected ∧
      WifiManager.onFdReadable (some (ascii "IFNAME=wlan0 <3>CTRL-EVENT-CONNECTED - ")) =
        some (true, none) := by
  constructor
  · rintro ⟨htype, -⟩
    exact absurd htype (by decide)
  · decide

end MyDirectFB

/-
What of an event's text decides its type and interface.  The text is a header,
a keyword and a payload that may come from a remote peer; the type and the
interface should depend on the header and the keyword only.  The parser looks
for the parts of the header in the whole text, so that a payload can stand in
for a part that is missing.
-/
import MyDirectFB.WifiEvent

namespace MyDirectFB

/-- The texts that the parser compares the beginning of a message with. -/
def eventKeywords : List (List UInt8) :=
  [ascii "CTRL-EVENT-", ascii "CTRL-EVENT-SCAN-STARTED",
    ascii "CTRL-EVENT-BSS-ADDED", ascii "CTRL-EVENT-BSS-REMOVED",
    ascii "CTRL-EVENT-SCAN-RESULTS", ascii "CTRL-EVENT-NETWORK-NOT-FOUND",
    ascii "CTRL-EVENT-CONNECTED", ascii "CTRL-EVENT-DISCONNECTED",
    ascii "CTRL-REQ-", ascii "P2P-", ascii "P2P-DEVICE-FOUND",
    ascii "P2P-DEVICE-LOST", ascii "P2P-PROV-DISC-PBC-REQ",
    ascii "P2P-INVITATION-ACCEPTED", ascii "P2P-GO-NEG-REQUEST",
    ascii "P2P-GO-NEG-SUCCESS", ascii "P2P-GO-NEG-FAILURE",
    ascii "P2P-GROUP-STARTED", ascii "P2P-GROUP-REMOVED",
    ascii "P2P-GROUP-FORMATION-SUCCESS", ascii "P2P-GROUP-FORMATION-FAILURE",
    ascii "Trying to associate with", ascii "WPS-TIMEOUT"]

structure EventKeyword where
  bytes : List UInt8
  recognised : bytes ∈ eventKeywords

/-- A name of an interface in a header. -/
structure InterfaceName where
  bytes : List UInt8
  chars : ∀ c ∈ bytes, c ≠ 0 ∧ c ≠ SPACE

/-- The digits of a level in a header. -/
structure EventLevel where
  digits : List UInt8
  ne_nil : digits ≠ []
  chars : ∀ c ∈ digits, 48 ≤ c ∧ c ≤ 57

structure EventHeader where
  interface : Option InterfaceName
  level : Option EventLevel

namespace EventHeader

/-- `IFNAME=<name> `, if there is a name. -/
def interfaceText (header : EventHeader) : List UInt8 :=
  match header.interface with
  | none => []
  | some name => ascii "IFNAME=" ++ name.bytes ++ [SPACE]

/-- `<digits>`, if there is a level. -/
def levelText (header : EventHeader) : List UInt8 :=
  match header.level with
  | none => []
  | some level => LESS :: level.digits ++ [GREATER]

end EventHeader

/-- The bytes of an event's text. -/
def eventBytes (header : EventHeader) (keyword : EventKeyword)
    (payload : CString) : List UInt8 :=
  header.interfaceText ++ (header.levelText ++ (keyword.bytes ++
    SPACE :: payload.bytes))

/-! ### Bytes that the parts of a text do not have -/

theorem EventKeyword.not_mem (keyword : EventKeyword) :
    0 ∉ keyword.bytes ∧ 61 ∉ keyword.bytes ∧ LESS ∉ keyword.bytes := by
  have hall : ∀ bytes ∈ eventKeywords,
      0 ∉ bytes ∧ 61 ∉ bytes ∧ LESS ∉ bytes := by
    decide
  exact hall _ keyword.recognised

theorem EventLevel.not_mem (level : EventLevel) {c : UInt8}
    (hc : c < 48 ∨ 57 < c) : c ∉ level.digits := by
  intro hmem
  obtain ⟨hle, hge⟩ := level.chars c hmem
  rcases hc with hlt | hgt
  · exact UInt8.not_le.mpr hlt hle
  · exact UInt8.not_le.mpr hgt hge

theorem EventHeader.levelText_not_mem (header : EventHeader) :
    0 ∉ header.levelText ∧ 61 ∉ header.levelText := by
  unfold EventHeader.levelText
  cases header.level with
  | none => simp
  | some level =>
      have hzero : 0 ∉ level.digits := level.not_mem (by decide)
      have hassign : 61 ∉ level.digits := level.not_mem (by decide)
      simp [hzero, hassign, LESS, GREATER]

theorem EventHeader.interfaceText_not_mem (header : EventHeader) :
    0 ∉ header.interfaceText := by
  unfold EventHeader.interfaceText
  cases header.interface with
  | none => simp
  | some name =>
      have hname : 0 ∉ name.bytes := fun hmem => (name.chars 0 hmem).1 rfl
      have hword : 0 ∉ ascii "IFNAME=" := by decide
      simp [hname, hword, SPACE]

/-- An event's text. -/
def eventText (header : EventHeader) (keyword : EventKeyword)
    (payload : CString) : CString where
  bytes := eventBytes header keyword payload
  noNul := by
    simp [eventBytes, header.interfaceText_not_mem, header.levelText_not_mem.1,
      keyword.not_mem.1, payload.noNul, SPACE]

/-! ### The type of a message -/

/-- The type and the interface of two events are the same. -/
def WifiEvent.SameTypeAndInterface (first second : WifiEvent) : Prop :=
  first.mType = second.mType ∧ first.mInterface = second.mInterface

namespace WifiEvent

theorem mInterface_acceptInvitation (e : WifiEvent) (str : List UInt8) :
    (e.acceptInvitation str).mInterface = e.mInterface := by
  unfold acceptInvitation
  split <;> rfl

theorem mType_acceptInvitation (e : WifiEvent) (str : List UInt8) :
    (e.acceptInvitation str).mType = .p2pInvitationAccepted := by
  unfold acceptInvitation
  split <;> rfl

/-- No message changes the interface. -/
theorem mInterface_parseMsg (e : WifiEvent) (str : List UInt8) :
    (e.parseMsg str).mInterface = e.mInterface := by
  have hevent (str : List UInt8) :
      (e.parseEventMsg str).mInterface = e.mInterface := by
    simp only [parseEventMsg, apply_ite mInterface, ite_self]
  have hp2p (str : List UInt8) :
      (e.parseP2pMsg str).mInterface = e.mInterface := by
    simp only [parseP2pMsg, setExtraData, apply_ite mInterface,
      mInterface_acceptInvitation, ite_self]
  simp only [parseMsg, parseRequestMsg, parseOtherMsg, apply_ite mInterface,
    hevent, hp2p, ite_self]

theorem mType_ite {first second : Bool} {a b c d : WifiEvent}
    (hcondition : first = second) (hthen : second = true → a.mType = c.mType)
    (helse : b.mType = d.mType) :
    (if first then a else b).mType = (if second then c else d).mType := by
  subst hcondition
  cases first with
  | false => exact helse
  | true => exact hthen rfl

/-- A comparison with a word that has no space does not look past a space. -/
theorem strncmpEq_front {front word : List UInt8} {n : Nat}
    (hfront : SPACE ∈ front) (hword : SPACE ∉ word) (rest : List UInt8) :
    strncmpEq (front ++ rest) word n = strncmpEq front word n :=
  strncmpEq_append (Or.inr fun hsub => hword (hsub.subset hfront)) rest

theorem mType_parseEventMsg (e : WifiEvent) {front : List UInt8}
    (hfront : SPACE ∈ front) (rest : List UInt8) :
    (e.parseEventMsg (front ++ rest)).mType = (e.parseEventMsg front).mType := by
  have hword {word : List UInt8} {n : Nat} (hspace : SPACE ∉ word) :=
    strncmpEq_front (n := n) hfront hspace rest
  unfold parseEventMsg
  refine mType_ite (hword (by decide)) (fun _ => by rfl) ?_
  refine mType_ite (hword (by decide)) (fun _ => by rfl) ?_
  refine mType_ite (hword (by decide)) (fun _ => by rfl) ?_
  refine mType_ite (hword (by decide)) (fun _ => by rfl) ?_
  refine mType_ite (hword (by decide)) (fun _ => by rfl) ?_
  refine mType_ite (hword (by decide)) (fun _ => by rfl) ?_
  exact mType_ite (hword (by decide)) (fun _ => rfl) rfl

theorem mType_parseP2pMsg (e : WifiEvent) {front : List UInt8}
    (hfront : SPACE ∈ front) (rest : List UInt8) :
    (e.parseP2pMsg (front ++ rest)).mType = (e.parseP2pMsg front).mType := by
  have hword {word : List UInt8} {n : Nat} (hspace : SPACE ∉ word) :=
    strncmpEq_front (n := n) hfront hspace rest
  unfold parseP2pMsg
  refine mType_ite (hword (by decide)) (fun _ => by rfl) ?_
  refine mType_ite (hword (by decide)) (fun _ => by rfl) ?_
  refine mType_ite (hword (by decide)) (fun _ => by rfl) ?_
  refine mType_ite (hword (by decide)) (fun _ => ?_) ?_
  · rw [mType_acceptInvitation, mType_acceptInvitation]
  refine mType_ite (hword (by decide)) (fun _ => by rfl) ?_
  refine mType_ite (hword (by decide)) (fun _ => by rfl) ?_
  refine mType_ite (hword (by decide)) (fun _ => by rfl) ?_
  refine mType_ite (hword (by decide)) (fun _ => by rfl) ?_
  refine mType_ite (hword (by decide)) (fun _ => by rfl) ?_
  refine mType_ite (hword (by decide)) (fun _ => by rfl) ?_
  exact mType_ite (hword (by decide)) (fun _ => rfl) rfl

/-- No keyword is the beginning of "Trying to associate with". -/
theorem strncmpEq_trying (keyword : EventKeyword) (payload : List UInt8) :
    strncmpEq (keyword.bytes ++ [SPACE] ++ payload)
        (ascii "Trying to associate with") 24 =
      strncmpEq (keyword.bytes ++ [SPACE])
        (ascii "Trying to associate with") 24 := by
  have hall : ∀ bytes ∈ eventKeywords, 24 ≤ (bytes ++ [SPACE]).length ∨
      ¬ bytes ++ [SPACE] <+: ascii "Trying to associate with" := by
    decide
  exact strncmpEq_append (hall _ keyword.recognised) payload

/-- The type that a keyword gives does not depend on what follows it. -/
theorem mType_parseMsg (e : WifiEvent) (keyword : EventKeyword)
    (payload : List UInt8) :
    (e.parseMsg (keyword.bytes ++ SPACE :: payload)).mType =
      (e.parseMsg (keyword.bytes ++ [SPACE])).mType := by
  have hspace : SPACE ∈ keyword.bytes ++ [SPACE] := by simp
  have hsplit : keyword.bytes ++ SPACE :: payload =
      keyword.bytes ++ [SPACE] ++ payload := by simp
  have hword {word : List UInt8} {n : Nat} (hword : SPACE ∉ word) :=
    strncmpEq_front (n := n) hspace hword payload
  -- the text that follows a matched word still has the space of the keyword
  have hdrop {word : List UInt8} (hspace : SPACE ∉ word)
      (hmatch : strncmpEq (keyword.bytes ++ [SPACE]) word word.length = true) :
      (keyword.bytes ++ [SPACE] ++ payload).drop word.length =
          (keyword.bytes ++ [SPACE]).drop word.length ++ payload ∧
        SPACE ∈ (keyword.bytes ++ [SPACE]).drop word.length := by
    have hle := length_le_of_strncmpEq hspace hmatch
    rw [List.drop_append_of_le_length hle, List.append_assoc,
      List.drop_append_of_le_length hle]
    simp
  rw [hsplit]
  unfold parseMsg
  refine mType_ite (hword (by decide)) (fun hmatch => ?_) ?_
  · obtain ⟨hrest, hmem⟩ := hdrop (by decide) hmatch
    rw [hrest]
    exact mType_parseEventMsg e hmem payload
  refine mType_ite (hword (by decide)) (fun _ => by rfl) ?_
  refine mType_ite (hword (by decide)) (fun hmatch => ?_) ?_
  · obtain ⟨hrest, hmem⟩ := hdrop (by decide) hmatch
    rw [hrest]
    exact mType_parseP2pMsg e hmem payload
  unfold parseOtherMsg
  refine mType_ite (strncmpEq_trying keyword payload) (fun _ => by rfl) ?_
  exact mType_ite (hword (by decide)) (fun _ => rfl) rfl

/-! ### Where the header is found -/

theorem findInterface_header (name : InterfaceName) (rest : List UInt8) :
    findInterface (ascii "IFNAME=" ++ name.bytes ++ [SPACE] ++ rest) =
      some (some (name.bytes, rest)) := by
  have hname : SPACE ∉ name.bytes := fun hmem => (name.chars SPACE hmem).2 rfl
  rw [findInterface, List.append_assoc, List.append_assoc, strstr_append]
  have hdrop : (ascii "IFNAME=" ++ (name.bytes ++ ([SPACE] ++ rest))).drop 7 =
      name.bytes ++ SPACE :: rest := rfl
  rw [Option.map_some, hdrop, strchr_append hname]

/-- Without an interface in the header, the payload is searched for one. -/
theorem findInterface_payload (header : EventHeader) (keyword : EventKeyword)
    (payload : List UInt8) :
    findInterface (header.levelText ++ (keyword.bytes ++ SPACE :: payload)) =
      findInterface payload := by
  have hfront : 61 ∉ header.levelText ++ keyword.bytes := by
    simp [header.levelText_not_mem.2, keyword.not_mem.2.1]
  rw [findInterface, ← List.append_assoc,
    strstr_skip (d := 61) (by decide) (by decide) hfront]
  rfl

theorem findLevel_header (level : EventLevel) (rest : List UInt8) :
    findLevel (LESS :: level.digits ++ [GREATER] ++ rest) = some rest := by
  have hgreater : GREATER ∉ level.digits := level.not_mem (by decide)
  have hless : strchr (LESS :: level.digits ++ [GREATER] ++ rest) LESS =
      some ([], level.digits ++ GREATER :: rest) := by
    have hfront : LESS ∉ ([] : List UInt8) := List.not_mem_nil
    simpa using strchr_append hfront (level.digits ++ GREATER :: rest)
  rw [findLevel, hless, Option.bind_some, strchr_append hgreater]
  rfl

/-- Without a level in the header, the payload is searched for one. -/
theorem findLevel_payload (keyword : EventKeyword) (payload : List UInt8) :
    findLevel (keyword.bytes ++ SPACE :: payload) = findLevel payload := by
  have hne : LESS ≠ SPACE := by decide
  have hfront : LESS ∉ keyword.bytes ++ [SPACE] := by
    simp [keyword.not_mem.2.2, hne]
  have hsplit : keyword.bytes ++ SPACE :: payload =
      keyword.bytes ++ [SPACE] ++ payload := by simp
  rw [findLevel, hsplit, strchr_append_of_not_mem hfront, Option.bind_map]
  rfl

/-- The payload does not hold what the parser would take for a part that the
header lacks. -/
structure Harmless (header : EventHeader) (payload : CString) : Prop where
  interface : header.interface = none →
    ∀ found, findInterface payload.bytes ≠ some (some found)
  level : header.level = none → findLevel payload.bytes = none

theorem parseLevel_event {header : EventHeader} (keyword : EventKeyword)
    {payload : CString} (hpayload : Harmless header payload) :
    parseLevel (header.levelText ++
        (keyword.bytes ++ SPACE :: payload.bytes)) =
      keyword.bytes ++ SPACE :: payload.bytes := by
  unfold EventHeader.levelText parseLevel
  cases hlevel : header.level with
  | none =>
      simp only [List.nil_append]
      rw [findLevel_payload, hpayload.level hlevel, Option.getD_none]
  | some level =>
      simp only
      rw [findLevel_header, Option.getD_some]

/-- With a harmless payload the parser finds the header's parts, and reads the
message from the keyword on. -/
theorem new_harmless {header : EventHeader} (keyword : EventKeyword)
    {payload : CString} (hpayload : Harmless header payload) :
    new (some (eventText header keyword payload)) =
      parseMsg ⟨.unknown, (header.interface.map InterfaceName.bytes).getD [],
        none⟩ (keyword.bytes ++ SPACE :: payload.bytes) := by
  have hlevel := parseLevel_event keyword hpayload
  simp only [new, parseWpaEvent, eventText, eventBytes, parseInterface,
    EventHeader.interfaceText]
  cases hname : header.interface with
  | none =>
      simp only [List.nil_append, findInterface_payload]
      cases hfound : findInterface payload.bytes with
      | none => simp only [hlevel, Option.map_none, Option.getD_none]
      | some found =>
          cases found with
          | none => simp only [hlevel, Option.map_none, Option.getD_none]
          | some found =>
              exact absurd hfound (hpayload.interface hname found)
  | some name =>
      simp only [findInterface_header, hlevel, Option.map_some,
        Option.getD_some]

theorem new_harmless_same {header : EventHeader} (keyword : EventKeyword)
    {first second : CString} (hfirst : Harmless header first)
    (hsecond : Harmless header second) :
    SameTypeAndInterface (new (some (eventText header keyword first)))
      (new (some (eventText header keyword second))) := by
  rw [new_harmless keyword hfirst, new_harmless keyword hsecond]
  constructor
  · exact (mType_parseMsg _ keyword _).trans (mType_parseMsg _ keyword _).symm
  · rw [mInterface_parseMsg, mInterface_parseMsg]

/-! ### Payloads that stand in for a part of the header -/

/-- A payload that names an interface. -/
def namesInterface : CString :=
  ⟨ascii "IFNAME=x ", by decide⟩

/-- A payload that has a level and a message of its own. -/
def removesGroup : CString :=
  ⟨ascii "<>P2P-GROUP-REMOVED", by decide⟩

/-- A payload that has a level and no message after it. -/
def endsInLevel : CString :=
  ⟨ascii "<>", by decide⟩

/-- No payload at all. -/
def noPayload : CString :=
  ⟨[], by simp⟩

theorem harmless_noPayload (header : EventHeader) :
    Harmless header noPayload := by
  have hfound : findInterface noPayload.bytes = none := by decide
  refine ⟨fun _ found => ?_, fun _ => rfl⟩
  simp [hfound]

theorem mType_groupRemoved (e : WifiEvent) :
    (e.parseMsg (ascii "P2P-GROUP-REMOVED")).mType = .p2pGroupRemoved := by
  rfl

theorem mType_parseMsg_nil (e : WifiEvent) :
    (e.parseMsg []).mType = e.mType := by
  rfl

theorem new_namesInterface {header : EventHeader}
    (hname : header.interface = none) (keyword : EventKeyword) :
    (new (some (eventText header keyword namesInterface))).mInterface =
      ascii "x" := by
  have hfound : findInterface namesInterface.bytes = some (some (ascii "x", [])) := by
    decide
  simp only [new, parseWpaEvent, eventText, eventBytes, parseInterface,
    EventHeader.interfaceText, hname, List.nil_append, findInterface_payload,
    hfound, mInterface_parseMsg]

theorem new_level {header : EventHeader} {name : InterfaceName}
    (hname : header.interface = some name) (hlevel : header.level = none)
    (keyword : EventKeyword) {payload : CString} {rest : List UInt8}
    (hfound : findLevel payload.bytes = some rest) :
    new (some (eventText header keyword payload)) =
      parseMsg ⟨.unknown, name.bytes, none⟩ rest := by
  simp only [new, parseWpaEvent, eventText, eventBytes, parseInterface,
    EventHeader.interfaceText, hname, findInterface_header,
    EventHeader.levelText, hlevel, List.nil_append, parseLevel,
    findLevel_payload, hfound, Option.getD_some]

end WifiEvent

open WifiEvent

/-- For a header and a keyword, the type and the interface of the event are the
same for all payloads exactly when the header has both its parts; otherwise
they are the same for all payloads that hold nothing the parser takes for the
part that is missing. -/
theorem wifiEvent_payload_iff (header : EventHeader) (keyword : EventKeyword) :
    ((∀ first second : CString, SameTypeAndInterface
        (WifiEvent.new (some (eventText header keyword first)))
        (WifiEvent.new (some (eventText header keyword second)))) ↔
      header.interface.isSome ∧ header.level.isSome) ∧
    ∀ first second : CString, Harmless header first → Harmless header second →
      SameTypeAndInterface
        (WifiEvent.new (some (eventText header keyword first)))
        (WifiEvent.new (some (eventText header keyword second))) := by
  refine ⟨⟨fun hsame => ?_, ?_⟩,
    fun first second => new_harmless_same keyword⟩
  · cases hname : header.interface with
    | none =>
        have hinterface := (hsame namesInterface noPayload).2
        rw [new_namesInterface hname,
          new_harmless keyword (harmless_noPayload header),
          mInterface_parseMsg, hname] at hinterface
        exact absurd hinterface (by decide)
    | some name =>
        cases hlevel : header.level with
        | none =>
            have hremoved : findLevel removesGroup.bytes =
                some (ascii "P2P-GROUP-REMOVED") := by decide
            have hends : findLevel endsInLevel.bytes = some [] := by decide
            have htype := (hsame removesGroup endsInLevel).1
            rw [new_level hname hlevel keyword hremoved,
              new_level hname hlevel keyword hends, mType_groupRemoved,
              mType_parseMsg_nil] at htype
            exact EventType.noConfusion htype
        | some level => exact ⟨rfl, rfl⟩
  · rintro ⟨hname, hlevel⟩ first second
    have hall (payload : CString) : Harmless header payload :=
      ⟨fun hnone => by simp [hnone] at hname,
        fun hnone => by simp [hnone] at hlevel⟩
    exact new_harmless_same keyword (hall first) (hall second)

/-- A header with a level and no interface. -/
def levelOnly : EventHeader :=
  ⟨none, some ⟨[51], List.cons_ne_nil _ _,
    List.forall_mem_singleton.mpr ⟨by decide, by decide⟩⟩⟩

def deviceFound : EventKeyword :=
  ⟨ascii "P2P-DEVICE-FOUND", by decide⟩

/-- A device that calls itself `tv`. -/
def plainDevice : CString :=
  ⟨ascii "name='tv'", by decide⟩

/-- A device whose name has the parts of a header and a message. -/
def imitatingDevice : CString :=
  ⟨ascii "name='IFNAME=x <>P2P-GROUP-REMOVED'", by decide⟩

/-- The name of the device turns the event into one of another type. -/
theorem imitatingDevice_not_same :
    ¬ SameTypeAndInterface
      (WifiEvent.new (some (eventText levelOnly deviceFound plainDevice)))
      (WifiEvent.new (some (eventText levelOnly deviceFound imitatingDevice))) := by
  intro hsame
  exact absurd hsame.1 (by decide)

end MyDirectFB

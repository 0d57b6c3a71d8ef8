/-
The extra data of an event, and whether a listener can ask for it.
`getExtraData` reads through a pointer that is null for every event without
extra data, which the destructor checks and it does not.
-/
import MyDirectFB.WifiEventNames

namespace MyDirectFB

open PrefixDispatch

/-- `ExtraData::DataType_e`, as far as events use it. -/
inductive DataType where
  | string
  | wifiP2pDevice
  | wifiP2pGroup
  | wifiP2pConfig
deriving Repr, DecidableEq

/-- `ExtraData::type`. -/
def ExtraData.type : ExtraData → DataType
  | .string _ => .string
  | .wifiP2pDevice _ => .wifiP2pDevice
  | .wifiP2pGroup _ => .wifiP2pGroup
  | .wifiP2pConfig _ => .wifiP2pConfig

/-- The tag that goes with a type of events. -/
def EventType.dataType : EventType → Option DataType
  | .p2pDeviceFound | .p2pDeviceLost | .p2pProvDiscPbcReq => some .wifiP2pDevice
  | .p2pGoNegRequest => some .wifiP2pConfig
  | .p2pGroupStarted => some .wifiP2pGroup
  | .p2pInvitationAccepted => some .string
  | _ => none

namespace WifiEvent

/-- `getExtraData`: the object of `*mExtraData`.  It has no result if it reads
through a null pointer. -/
def getExtraData (e : WifiEvent) : Option ExtraData :=
  match e.mExtraData with
  | none => none
  | some data => some data

/-- A listener that is given the event can ask for the extra data, and finds what
goes with the type. -/
def ExtraDataSound (e : WifiEvent) : Prop :=
  e.mType ≠ .unknown →
    (∃ data, e.getExtraData = some data) ∧
      e.mExtraData.map ExtraData.type = e.mType.dataType

/-- The part of a text that the parser takes for the message. -/
def messageOf (text : CString) : List UInt8 :=
  parseLevel (parseInterface ⟨.unknown, [], none⟩ text.bytes).2

end WifiEvent

/-- The names of the events that always have extra data. -/
def dataNames : List (List UInt8) :=
  [ascii "P2P-DEVICE-FOUND", ascii "P2P-DEVICE-LOST",
    ascii "P2P-PROV-DISC-PBC-REQ", ascii "P2P-GO-NEG-REQUEST",
    ascii "P2P-GROUP-STARTED"]

/-- A message begins with a name that goes with extra data, or is an accepted
invitation with an address, or begins with none of the names that get a type. -/
def HasExtraData (message : List UInt8) : Prop :=
  (∃ name ∈ dataNames, name <+: message) ∨
    (∃ rest, message = ascii "P2P-INVITATION-ACCEPTED" ++ rest ∧
      (strstr rest (ascii "sa=")).isSome) ∨
    ∀ outcome ∈ outcomes, ¬ outcome.name <+: message

namespace WifiEvent

theorem new_eq_parseMsg (text : CString) :
    ∃ interface, new (some text) =
      parseMsg ⟨.unknown, interface, none⟩ (messageOf text) := by
  simp only [new, parseWpaEvent, messageOf, parseInterface]
  cases findInterface text.bytes with
  | none => exact ⟨[], rfl⟩
  | some found => cases found <;> exact ⟨_, rfl⟩

/-- What the names say of the extra data: there always is some, and it goes with
the type, or it is the address of an invitation, or there is none. -/
theorem outcome_data_cases : ∀ outcome ∈ outcomes,
    (outcome.name ∈ dataNames ∧ ∀ rest, ∃ data, outcome.data rest = some data ∧
      some data.type = outcome.type.dataType) ∨
    (outcome.name = ascii "P2P-INVITATION-ACCEPTED" ∧
      outcome.type = .p2pInvitationAccepted ∧
      ∀ rest, outcome.data rest = (invitationAddress rest).map .string) ∨
    (outcome.name ∉ dataNames ∧ outcome.name ≠ ascii "P2P-INVITATION-ACCEPTED" ∧
      ∀ rest, outcome.data rest = none) := by
  intro outcome houtcome
  simp only [outcomes, eventOutcomes, p2pOutcomes, otherOutcomes, List.map_cons,
    List.map_nil, List.cons_append, List.nil_append, List.mem_cons,
    List.not_mem_nil, or_false] at houtcome
  rcases houtcome with rfl | rfl | rfl | rfl | rfl | rfl | rfl | rfl | rfl |
    rfl | rfl | rfl | rfl | rfl | rfl | rfl | rfl | rfl
  all_goals first
    | exact .inl ⟨by decide, fun _ => ⟨_, rfl, rfl⟩⟩
    | exact .inr (.inl ⟨by decide, rfl, fun _ => rfl⟩)
    | exact .inr (.inr ⟨by decide, by decide, fun _ => rfl⟩)

/-- A name that gets a type is one of those with extra data, or apart from
them. -/
theorem outcome_name_apart : ∀ outcome ∈ outcomes,
    ∀ name ∈ ascii "P2P-INVITATION-ACCEPTED" :: dataNames,
      outcome.name = name ∨ Apart outcome.name name := by
  decide

theorem outcome_type_ne_unknown :
    ∀ outcome ∈ outcomes, outcome.type ≠ .unknown := by
  decide

theorem isSome_invitationAddress (rest : List UInt8) :
    (invitationAddress rest).isSome = (strstr rest (ascii "sa=")).isSome := by
  rw [invitationAddress, Option.isSome_map]

variable {interface rest : List UInt8} {outcome : EventOutcome}

/-- The extra data that a name gives goes with its type. -/
theorem outcome_data_type (houtcome : outcome ∈ outcomes) {data : ExtraData}
    (hdata : outcome.data rest = some data) :
    some data.type = outcome.type.dataType := by
  rcases outcome_data_cases outcome houtcome with ⟨-, hall⟩ | ⟨-, htype, hall⟩ |
    ⟨-, -, hall⟩
  · obtain ⟨found, hfound, htag⟩ := hall rest
    rw [hdata] at hfound
    exact Option.some.inj hfound ▸ htag
  · rw [hall] at hdata
    obtain ⟨address, -, rfl⟩ := Option.map_eq_some_iff.mp hdata
    rw [htype]
    rfl
  · rw [hall] at hdata
    cases hdata

theorem extraDataSound_event (houtcome : outcome ∈ outcomes) :
    ExtraDataSound (outcome.event ⟨.unknown, interface, none⟩ rest) ↔
      (outcome.data rest).isSome := by
  have hne := outcome_type_ne_unknown outcome houtcome
  have hdata : (outcome.event ⟨.unknown, interface, none⟩ rest).mExtraData =
      outcome.data rest := Option.or_none
  rw [ExtraDataSound, getExtraData, hdata]
  cases hrest : outcome.data rest with
  | none =>
      refine iff_of_false (fun hsound => ?_) (by simp)
      obtain ⟨⟨data, hget⟩, -⟩ := hsound hne
      cases hget
  | some data =>
      exact iff_of_true (fun _ => ⟨⟨data, rfl⟩, outcome_data_type houtcome hrest⟩)
        rfl

/-- A message with a name has extra data exactly if its outcome gives some. -/
theorem hasExtraData_name (houtcome : outcome ∈ outcomes) :
    HasExtraData (outcome.name ++ rest) ↔ (outcome.data rest).isSome := by
  have hbegins : outcome.name <+: outcome.name ++ rest := List.prefix_append _ _
  have hnamed : ¬ ∀ outcome' ∈ outcomes,
      ¬ outcome'.name <+: outcome.name ++ rest :=
    fun hnone => hnone outcome houtcome hbegins
  have hsame {name : List UInt8}
      (hname : name ∈ ascii "P2P-INVITATION-ACCEPTED" :: dataNames)
      (hother : name <+: outcome.name ++ rest) : outcome.name = name :=
    (outcome_name_apart outcome houtcome name hname).resolve_right
      fun hapart => not_prefix_of_apart hapart hbegins hother
  rcases outcome_data_cases outcome houtcome with ⟨hname, hall⟩ |
    ⟨hname, -, hall⟩ | ⟨hdata, hinvitation, hall⟩
  · obtain ⟨data, hsome, -⟩ := hall rest
    exact iff_of_true (.inl ⟨outcome.name, hname, hbegins⟩) (by rw [hsome]; rfl)
  · rw [hall, Option.isSome_map, isSome_invitationAddress, HasExtraData]
    constructor
    · rintro (⟨name, hdata, hother⟩ | ⟨rest', heq, hsome⟩ | hnone)
      · have hequal := hsame (List.mem_cons_of_mem _ hdata) hother
        rw [← hequal, hname] at hdata
        exact absurd hdata (by decide)
      · rw [hname] at heq
        rw [List.append_cancel_left heq]
        exact hsome
      · exact absurd hnone hnamed
    · exact fun hsome => .inr (.inl ⟨rest, by rw [hname], hsome⟩)
  · refine iff_of_false ?_ (by rw [hall]; simp)
    rintro (⟨name, hmem, hother⟩ | ⟨rest', heq, -⟩ | hnone)
    · exact hdata (hsame (List.mem_cons_of_mem _ hmem) hother ▸ hmem)
    · exact hinvitation (hsame List.mem_cons_self ⟨rest', heq.symm⟩)
    · exact hnamed hnone

end WifiEvent

open WifiEvent

/-- Listeners can ask for the extra data of an event, and find what goes with its
type, exactly if the message has extra data or no type. -/
theorem extraDataSound_iff (text : CString) :
    ExtraDataSound (WifiEvent.new (some text)) ↔
      HasExtraData (messageOf text) := by
  obtain ⟨interface, hevent⟩ := new_eq_parseMsg text
  rw [hevent]
  by_cases hname : ∃ outcome ∈ outcomes, outcome.name <+: messageOf text
  · obtain ⟨outcome, houtcome, rest, hrest⟩ := hname
    rw [← hrest, parseMsg_of_mem _ houtcome, extraDataSound_event houtcome,
      hasExtraData_name houtcome]
  · have hnone : ∀ outcome ∈ outcomes, ¬ outcome.name <+: messageOf text :=
      fun outcome houtcome hbegins => hname ⟨outcome, houtcome, hbegins⟩
    rw [parseMsg_of_none _ hnone]
    exact iff_of_true (fun hne => absurd rfl hne) (.inr (.inr hnone))

/-- The event of a scan has no extra data to read. -/
theorem scanStarted_not_sound :
    (WifiEvent.new (some ⟨ascii "CTRL-EVENT-SCAN-STARTED", by decide⟩)).mType =
        .scanStarted ∧
      (WifiEvent.new
        (some ⟨ascii "CTRL-EVENT-SCAN-STARTED", by decide⟩)).getExtraData =
          none ∧
      ¬ ExtraDataSound
        (WifiEvent.new (some ⟨ascii "CTRL-EVENT-SCAN-STARTED", by decide⟩)) := by
  have htype : (WifiEvent.new
      (some ⟨ascii "CTRL-EVENT-SCAN-STARTED", by decide⟩)).mType =
        .scanStarted := by decide
  have hdata : (WifiEvent.new
      (some ⟨ascii "CTRL-EVENT-SCAN-STARTED", by decide⟩)).getExtraData =
        none := by decide
  refine ⟨htype, hdata, fun hsound => ?_⟩
  obtain ⟨⟨data, hget⟩, -⟩ := hsound (by rw [htype]; decide)
  rw [hdata] at hget
  cases hget

end MyDirectFB

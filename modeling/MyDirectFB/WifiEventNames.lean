/-
The names of the events that the parser tests for, and what it makes of a message
that begins with each.  The chains of comparisons of `parseEventMsg`,
`parseP2pMsg` and `parseOtherMsg` are one dispatch on names none of which begins
another.
-/
import MyDirectFB.Lib.PrefixDispatch
import MyDirectFB.WifiEventHeader

namespace MyDirectFB

open PrefixDispatch

/-- What becomes of an event whose message begins with a name: its type, and the
extra data made of the text behind the name. -/
structure EventOutcome where
  name : List UInt8
  type : EventType
  data : List UInt8 → Option ExtraData

namespace EventOutcome

/-- An event without extra data. -/
def plain (name : String) (type : EventType) : EventOutcome :=
  ⟨ascii name, type, fun _ => none⟩

def event (outcome : EventOutcome) (e : WifiEvent) (rest : List UInt8) :
    WifiEvent :=
  ⟨outcome.type, e.mInterface, (outcome.data rest).or e.mExtraData⟩

def branch (e : WifiEvent) (outcome : EventOutcome) : Branch UInt8 WifiEvent :=
  ⟨outcome.name, outcome.event e⟩

end EventOutcome

/-- The names of `parseEventMsg` that set a type. -/
def eventOutcomes : List EventOutcome :=
  [.plain "SCAN-STARTED" .scanStarted, .plain "BSS-ADDED" .eventBssAdded,
    .plain "BSS-REMOVED" .eventBssRemoved, .plain "SCAN-RESULTS" .scanResults,
    .plain "NETWORK-NOT-FOUND" .eventNetworkNotFound]

/-- The names of `parseP2pMsg`. -/
def p2pOutcomes : List EventOutcome :=
  [⟨ascii "DEVICE-FOUND", .p2pDeviceFound, fun rest => some (.wifiP2pDevice rest)⟩,
    ⟨ascii "DEVICE-LOST", .p2pDeviceLost, fun rest => some (.wifiP2pDevice rest)⟩,
    ⟨ascii "PROV-DISC-PBC-REQ", .p2pProvDiscPbcReq,
      fun rest => some (.wifiP2pDevice rest)⟩,
    ⟨ascii "INVITATION-ACCEPTED", .p2pInvitationAccepted,
      fun rest => (WifiEvent.invitationAddress rest).map .string⟩,
    ⟨ascii "GO-NEG-REQUEST", .p2pGoNegRequest,
      fun rest => some (.wifiP2pConfig rest)⟩,
    .plain "GO-NEG-SUCCESS" .p2pGoNegSuccess,
    .plain "GO-NEG-FAILURE" .p2pGoNegFailure,
    ⟨ascii "GROUP-STARTED", .p2pGroupStarted,
      fun rest => some (.wifiP2pGroup rest)⟩,
    .plain "GROUP-REMOVED" .p2pGroupRemoved,
    .plain "GROUP-FORMATION-SUCCESS" .p2pGroupFormationSuccess,
    .plain "GROUP-FORMATION-FAILURE" .p2pGroupFormationFailure]

/-- The names of `parseOtherMsg`. -/
def otherOutcomes : List EventOutcome :=
  [.plain "Trying to associate with" .tryToAssociate,
    .plain "WPS-TIMEOUT" .wpsTimeout]

/-- The outcome of a name behind the prefix of its family. -/
def EventOutcome.under (front : List UInt8) (outcome : EventOutcome) :
    EventOutcome :=
  ⟨front ++ outcome.name, outcome.type, outcome.data⟩

/-- The whole names of all events that get a type. -/
def outcomes : List EventOutcome :=
  eventOutcomes.map (.under EVENT_PREFIX_STR) ++
    (p2pOutcomes.map (.under P2P_PREFIX_STR) ++ otherOutcomes)

namespace WifiEvent

/-- A comparison of a chain is a branch of a dispatch. -/
theorem ite_strncmpEq {e a b : WifiEvent} {str word : List UInt8} {n : Nat}
    {result : List UInt8 → WifiEvent} {branches : List (Branch UInt8 WifiEvent)}
    (hn : n = word.length) (hthen : a = result (str.drop n))
    (helse : b = PrefixDispatch.dispatch e str branches) :
    (if strncmpEq str word n then a else b) =
      PrefixDispatch.dispatch e str (⟨word, result⟩ :: branches) := by
  subst hn hthen helse
  simp only [PrefixDispatch.dispatch, strncmpEq_iff_begins]

theorem parseEventMsg_eq (e : WifiEvent) (str : List UInt8) :
    e.parseEventMsg str =
      PrefixDispatch.dispatch e str (eventOutcomes.map (·.branch e)) := by
  unfold parseEventMsg
  refine ite_strncmpEq rfl rfl ?_
  refine ite_strncmpEq rfl rfl ?_
  refine ite_strncmpEq rfl rfl ?_
  refine ite_strncmpEq rfl rfl ?_
  refine ite_strncmpEq rfl rfl ?_
  -- a connect and a disconnect leave the event, like any other message
  rw [ite_self, ite_self]
  rfl

theorem acceptInvitation_eq (e : WifiEvent) (str : List UInt8) :
    e.acceptInvitation str =
      ⟨.p2pInvitationAccepted, e.mInterface,
        ((invitationAddress str).map .string).or e.mExtraData⟩ := by
  unfold acceptInvitation
  cases invitationAddress str <;> rfl

theorem parseP2pMsg_eq (e : WifiEvent) (str : List UInt8) :
    e.parseP2pMsg str =
      PrefixDispatch.dispatch e str (p2pOutcomes.map (·.branch e)) := by
  unfold parseP2pMsg
  refine ite_strncmpEq rfl rfl ?_
  refine ite_strncmpEq rfl rfl ?_
  refine ite_strncmpEq rfl rfl ?_
  refine ite_strncmpEq rfl (acceptInvitation_eq e _) ?_
  refine ite_strncmpEq rfl rfl ?_
  refine ite_strncmpEq rfl rfl ?_
  refine ite_strncmpEq rfl rfl ?_
  refine ite_strncmpEq rfl rfl ?_
  refine ite_strncmpEq rfl rfl ?_
  refine ite_strncmpEq rfl rfl ?_
  exact ite_strncmpEq rfl rfl rfl

theorem parseOtherMsg_eq (e : WifiEvent) (str : List UInt8) :
    e.parseOtherMsg str =
      PrefixDispatch.dispatch e str (otherOutcomes.map (·.branch e)) := by
  unfold parseOtherMsg
  refine ite_strncmpEq rfl rfl ?_
  exact ite_strncmpEq rfl rfl rfl

/-- No other message begins like a message of a family. -/
theorem dispatch_other_of_prefix (e : WifiEvent) {front str : List UInt8}
    (hfront : front <+: str)
    (hapart : ∀ outcome ∈ otherOutcomes, Apart front outcome.name) :
    PrefixDispatch.dispatch e str (otherOutcomes.map (·.branch e)) = e := by
  refine dispatch_of_none fun branch hbranch => ?_
  obtain ⟨outcome, houtcome, rfl⟩ := List.mem_map.mp hbranch
  exact not_prefix_of_apart (hapart outcome houtcome) hfront

theorem branch_outcomes (e : WifiEvent) :
    outcomes.map (·.branch e) =
      (eventOutcomes.map (·.branch e)).map (.under EVENT_PREFIX_STR) ++
        ((p2pOutcomes.map (·.branch e)).map (.under P2P_PREFIX_STR) ++
          otherOutcomes.map (·.branch e)) := by
  rw [outcomes, List.map_append, List.map_append, List.map_map, List.map_map,
    List.map_map, List.map_map]
  rfl

/-- A message is parsed by its name. -/
theorem parseMsg_eq (e : WifiEvent) (str : List UInt8) :
    e.parseMsg str =
      PrefixDispatch.dispatch e str (outcomes.map (·.branch e)) := by
  rw [branch_outcomes, dispatch_append, dispatch_append, parseMsg]
  simp only [strncmpEq_iff_begins]
  by_cases hevent : EVENT_PREFIX_STR <+: str
  · have hp2p : ¬ P2P_PREFIX_STR <+: str :=
      not_prefix_of_apart (by decide) hevent
    rw [if_pos hevent, dispatch_under_of_not hp2p,
      dispatch_other_of_prefix e hevent (by decide), parseEventMsg_eq]
    obtain ⟨rest, rfl⟩ := hevent
    rw [List.drop_left, dispatch_under]
  rw [if_neg hevent, dispatch_under_of_not hevent]
  by_cases hrequest : REQUEST_PREFIX_STR <+: str
  · have hp2p : ¬ P2P_PREFIX_STR <+: str :=
      not_prefix_of_apart (by decide) hrequest
    rw [if_pos hrequest, dispatch_under_of_not hp2p,
      dispatch_other_of_prefix e hrequest (by decide), parseRequestMsg]
  rw [if_neg hrequest]
  by_cases hp2p : P2P_PREFIX_STR <+: str
  · rw [if_pos hp2p, dispatch_other_of_prefix e hp2p (by decide),
      parseP2pMsg_eq]
    obtain ⟨rest, rfl⟩ := hp2p
    rw [List.drop_left, dispatch_under]
  · rw [if_neg hp2p, dispatch_under_of_not hp2p, parseOtherMsg_eq]

/-- None of the names begins another. -/
theorem outcomes_apart :
    outcomes.Pairwise fun first second => Apart first.name second.name := by
  decide

theorem parseMsg_of_mem (e : WifiEvent) {outcome : EventOutcome}
    (houtcome : outcome ∈ outcomes) (rest : List UInt8) :
    e.parseMsg (outcome.name ++ rest) = outcome.event e rest := by
  rw [parseMsg_eq]
  refine dispatch_of_mem (List.mem_map_of_mem houtcome) ?_
  exact List.pairwise_map.mpr outcomes_apart

theorem parseMsg_of_none (e : WifiEvent) {str : List UInt8}
    (hnone : ∀ outcome ∈ outcomes, ¬ outcome.name <+: str) :
    e.parseMsg str = e := by
  rw [parseMsg_eq]
  refine dispatch_of_none fun branch hbranch => ?_
  obtain ⟨outcome, houtcome, rfl⟩ := List.mem_map.mp hbranch
  exact hnone outcome houtcome

end WifiEvent

end MyDirectFB

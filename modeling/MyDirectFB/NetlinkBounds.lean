/-
How far the parsing of a datagram (core/netlink_manager.cpp) reads: the loops stay
inside it, and the fields and payloads do exactly if there is room for what is read
of them, and for an address message an address.
-/
import MyDirectFB.Lib.Returns
import MyDirectFB.Netlink

namespace MyDirectFB

namespace Netlink

variable {mem : List UInt8} {env : NetlinkEnv}

/-! ### Single reads -/

section Reads

universe u

variable {β : Type} {offset count width : Nat}

theorem returns_bytesAt_bind {f : List UInt8 → Except NetlinkFault β} :
    Returns (bytesAt mem offset count >>= f) ↔
      offset + count ≤ mem.length ∧ Returns (f (bytes mem offset count)) := by
  rw [Returns.bind_iff, bytesAt]
  split
  · next h => simp [h]
  · next h => simp [h]

theorem fieldAt_eq_ok (h : offset + width ≤ mem.length) :
    fieldAt mem offset width = .ok (field mem offset width) :=
  if_pos h

theorem returns_fieldAt_bind {f : Nat → Except NetlinkFault β} :
    Returns (fieldAt mem offset width >>= f) ↔
      offset + width ≤ mem.length ∧ Returns (f (field mem offset width)) := by
  rw [Returns.bind_iff, fieldAt]
  split
  · next h => simp [h]
  · next h => simp [h]

theorem field_one {c : UInt8} {rest : List UInt8}
    (hdrop : mem.drop offset = c :: rest) : field mem offset 1 = c.toNat := by
  rw [field, bytes, hdrop]
  simp [LittleEndian.decode]

theorem room_of_drop {c : UInt8} {rest : List UInt8}
    (hdrop : mem.drop offset = c :: rest) : offset + 1 ≤ mem.length := by
  have hlength := congrArg List.length hdrop
  rw [List.length_drop, List.length_cons] at hlength
  omega

theorem drop_succ {c : UInt8} {rest : List UInt8}
    (hdrop : mem.drop offset = c :: rest) : mem.drop (offset + 1) = rest := by
  rw [← List.drop_drop, hdrop]
  rfl

/-- A name is copied if it ends, or there are as many bytes as are copied. -/
theorem returns_strncpyFrom {left : Nat} :
    Returns (strncpyFrom mem offset left) ↔
      left ≤ (mem.drop offset).length ∨ 0 ∈ mem.drop offset := by
  induction left generalizing offset with
  | zero => simp [strncpyFrom]
  | succ left ih =>
      rw [strncpyFrom, returns_fieldAt_bind]
      cases hdrop : mem.drop offset with
      | nil =>
          rw [List.drop_eq_nil_iff] at hdrop
          exact iff_of_false (fun h => by omega) (by simp)
      | cons c rest =>
          have hroom := room_of_drop hdrop
          have hrest := drop_succ hdrop
          rw [field_one hdrop]
          by_cases hc : c = 0
          · simp [hc, hroom]
          · have hnat : c.toNat ≠ 0 := fun h => hc (UInt8.toNat_inj.mp h)
            have hne : (0 : UInt8) ≠ c := fun h => hc h.symm
            simp only [hroom, true_and, hnat, ↓reduceIte, Returns.bind_ok_iff, ih,
              hrest, List.length_cons, Nat.add_le_add_iff_right, List.mem_cons, hne,
              false_or]

end Reads

/-! ### Attributes -/

/-- The places of the attributes from `cursor` on. -/
def attributes (mem : List UInt8) (cursor : Nat) (len : Int) : List Nat :=
  AlignedRecords.records sizeofRtattr sizeofRtattr_pos (field mem · 2) cursor len

def rtaType (mem : List UInt8) (rta : Nat) : Nat := field mem (rta + 2) 2

/-- The last attribute of a type. -/
def lastAttribute (mem : List UInt8) (attrs : List Nat) (type : Nat) :
    Option Nat :=
  (attrs.filter (rtaType mem · = type)).getLast?

theorem lastAttribute_cons (rta : Nat) (attrs : List Nat) (type : Nat) :
    lastAttribute mem (rta :: attrs) type =
      (lastAttribute mem attrs type).or
        (if rtaType mem rta = type then some rta else none) := by
  unfold lastAttribute
  rw [List.filter_cons]
  split
  · next h =>
      rw [List.getLast?_cons, if_pos (by simpa using h)]
      cases (attrs.filter (rtaType mem · = type)).getLast? <;> rfl
  · next h =>
      rw [if_neg (by simpa using h), Option.or_none]

/-- The table after the attributes: the last of each type, and what was there
before. -/
theorem forIn_attributes {attrs : List Nat} {max : Nat}
    (hroom : ∀ rta ∈ attrs, rta + sizeofRtattr ≤ mem.length)
    (tb : Nat → Option Nat) :
    forIn (m := Except NetlinkFault) attrs tb (fun rta tb => do
      let rta_type ← fieldAt mem (rta + 2) 2
      .ok (.yield
        (if rta_type ≤ max then Function.update tb rta_type (some rta) else tb))) =
    .ok fun type =>
      if type ≤ max then (lastAttribute mem attrs type).or (tb type) else tb type := by
  induction attrs generalizing tb with
  | nil =>
      refine congrArg Except.ok (funext fun type => ?_)
      simp [lastAttribute]
  | cons rta attrs ih =>
      have hread : fieldAt mem (rta + 2) 2 = .ok (rtaType mem rta) := by
        have hfirst := hroom rta List.mem_cons_self
        rw [sizeofRtattr] at hfirst
        exact fieldAt_eq_ok (by omega)
      rw [List.forIn_cons, hread]
      refine (ih (fun a ha => hroom a (List.mem_cons_of_mem rta ha)) _).trans
        (congrArg Except.ok (funext fun type => ?_))
      rw [lastAttribute_cons]
      by_cases htype : rtaType mem rta = type
      · subst htype
        by_cases hle : rtaType mem rta ≤ max
        · simp [hle]
        · simp [hle]
      · have hkeep : (if rtaType mem rta ≤ max then
            Function.update tb (rtaType mem rta) (some rta) else tb) type = tb type := by
          split
          · exact Function.update_of_ne (fun h => htype h.symm) _ _
          · rfl
        rw [hkeep, if_neg htype, Option.or_none]

theorem parseRtattr_of_lt {tb : Nat → Option Nat} {max rta : Nat} {len : Int}
    (hlen : len < sizeofRtattr) : parseRtattr mem tb max rta len = .ok tb := by
  rw [parseRtattr, AlignedRecords.Format.walk]
  exact if_neg (by change ¬ ((sizeofRtattr : Int) ≤ len); omega)

/-- The attributes in a room that the memory has are parsed without a fault. -/
theorem parseRtattr_eq {max rta : Nat} {len : Int} (tb : Nat → Option Nat)
    (hlen : len ≤ (mem.drop rta).length) :
    parseRtattr mem tb max rta len = .ok fun type =>
      if type ≤ max then (lastAttribute mem (attributes mem rta len) type).or (tb type)
      else tb type := by
  rw [List.length_drop] at hlen
  by_cases hshort : len < sizeofRtattr
  · rw [parseRtattr_of_lt hshort, attributes, AlignedRecords.records_eq_nil (by omega)]
    exact congrArg Except.ok (funext fun type => by simp [lastAttribute])
  · rw [sizeofRtattr] at hshort
    have hread : ∀ rta, rta + (RTA mem).header ≤ mem.length →
        (RTA mem).sizeAt rta = .ok (field mem rta 2) := by
      intro rta hrta
      change rta + 4 ≤ mem.length at hrta
      exact fieldAt_eq_ok (by omega)
    rw [parseRtattr, AlignedRecords.Format.walk_eq_forIn (RTA mem) (field mem · 2)
      mem.length hread _ _ _ _ (by omega)]
    refine forIn_attributes (fun rta hrta => ?_) tb
    obtain ⟨-, hheader, hend⟩ := AlignedRecords.mem_records hrta
    change sizeofRtattr ≤ _ at hheader
    omega

/-- The attributes of a message behind a body of the given size. -/
def attributesOf (mem : List UInt8) (h sizeofBody : Nat) : List Nat :=
  attributes mem (NLMSG_DATA h + sizeofBody) (field mem h 4 - NLMSG_LENGTH sizeofBody)

/-- An attribute of a message lies inside the message. -/
theorem mem_attributesOf {h sizeofBody rta : Nat}
    (hmem : rta ∈ attributesOf mem h sizeofBody) :
    NLMSG_DATA h + sizeofBody ≤ rta ∧ sizeofRtattr ≤ field mem rta 2 ∧
      rta + field mem rta 2 ≤ h + field mem h 4 := by
  obtain ⟨hfrom, hheader, hend⟩ := AlignedRecords.mem_records hmem
  refine ⟨hfrom, hheader, ?_⟩
  simp only [NLMSG_DATA, NLMSG_LENGTH] at hend
  push_cast at hend
  omega

/-- The attributes of a message inside the datagram are parsed without a fault. -/
theorem parseRtattr_message {h sizeofBody max : Nat} (tb : Nat → Option Nat)
    (hroom : h + field mem h 4 ≤ mem.length) :
    parseRtattr mem tb max (NLMSG_DATA h + sizeofBody)
        (field mem h 4 - NLMSG_LENGTH sizeofBody) =
      .ok fun type =>
        if type ≤ max then
          (lastAttribute mem (attributesOf mem h sizeofBody) type).or (tb type)
        else tb type := by
  refine parseRtattr_eq tb ?_
  rw [List.length_drop]
  simp only [NLMSG_DATA, NLMSG_LENGTH]
  push_cast
  omega

/-! ### Messages -/

/-- The last attribute of a type in a message. -/
def messageAttribute (mem : List UInt8) (h sizeofBody type : Nat) : Option Nat :=
  lastAttribute mem (attributesOf mem h sizeofBody) type

theorem mem_of_messageAttribute {h sizeofBody type rta : Nat}
    (hlast : messageAttribute mem h sizeofBody type = some rta) :
    rta ∈ attributesOf mem h sizeofBody :=
  List.mem_of_mem_filter (List.mem_of_getLast? hlast)

/-- There is room for the bytes that are read of the payload of an attribute, if
there is one. -/
def PayloadFits (mem : List UInt8) (size : Nat) (rta : Option Nat) : Prop :=
  ∀ r, rta = some r → RTA_DATA r + size ≤ mem.length

/-- The payload has an end, or as many bytes as are copied of a name. -/
def NameFits (mem : List UInt8) (rta : Nat) : Prop :=
  IFNAMSIZ - 1 ≤ (mem.drop (RTA_DATA rta)).length ∨ 0 ∈ mem.drop (RTA_DATA rta)

/-- `AF_INET` or `AF_INET6`. -/
def IsInet (family : Nat) : Prop := family = AF_INET ∨ family = AF_INET6

/-- A route message has the table, and where this is the main one the type; a
unicast route has room for what is read of its attributes. -/
def RouteFits (mem : List UInt8) (h : Nat) : Prop :=
  NLMSG_DATA h + 5 ≤ mem.length ∧
    (field mem (NLMSG_DATA h + 4) 1 = RT_TABLE_MAIN →
      NLMSG_DATA h + 8 ≤ mem.length ∧
        (field mem (NLMSG_DATA h + 7) 1 = RTN_UNICAST →
          PayloadFits mem 4 (messageAttribute mem h sizeofRtmsg RTA_OIF) ∧
            (IsInet (field mem (NLMSG_DATA h) 1) →
              ∀ type ∈ [RTA_GATEWAY, RTA_DST],
                PayloadFits mem (addressSize (field mem (NLMSG_DATA h) 1))
                  (messageAttribute mem h sizeofRtmsg type))))

/-- A link message has room for what is copied of its name, if it has one. -/
def LinkFits (mem : List UInt8) (h : Nat) : Prop :=
  ∀ rta, messageAttribute mem h sizeofIfinfomsg IFLA_IFNAME = some rta →
    NameFits mem rta

/-- The attribute that the address of an address message is taken from. -/
def addressAttribute (mem : List UInt8) (h : Nat) : Option Nat :=
  (messageAttribute mem h sizeofIfaddrmsg IFA_LOCAL).or
    (messageAttribute mem h sizeofIfaddrmsg IFA_ADDRESS)

/-- An address message has the family; one of an internet family has an address,
with room for what is read of it and of the label. -/
def AddressFits (mem : List UInt8) (h : Nat) : Prop :=
  NLMSG_DATA h + 1 ≤ mem.length ∧
    (IsInet (field mem (NLMSG_DATA h) 1) →
      (∃ rta, addressAttribute mem h = some rta ∧
        RTA_DATA rta + addressSize (field mem (NLMSG_DATA h) 1) ≤ mem.length) ∧
      ∀ rta, messageAttribute mem h sizeofIfaddrmsg IFLA_IFNAME = some rta →
        NameFits mem rta)

/-- A message that begins in the datagram and whose length fits. -/
structure Inside (mem : List UInt8) (h : Nat) : Prop where
  header : sizeofNlmsghdr ≤ field mem h 4
  room : h + field mem h 4 ≤ mem.length

variable {h : Nat}

theorem Inside.header_room (hin : Inside mem h) : h + 16 ≤ mem.length := by
  have hheader := hin.header
  have hroom := hin.room
  rw [sizeofNlmsghdr] at hheader
  omega

/-- A message of one of two types is not skipped. -/
theorem not_skipped {t x y : Nat} (htype : (decide (t = x) || decide (t = y)) = true) :
    ¬ (t ≠ x ∧ t ≠ y) := by
  simpa [or_iff_not_imp_left] using htype

/-- The table of a message inside the datagram. -/
theorem exists_table (hin : Inside mem h) (sizeofBody max : Nat) :
    ∃ tb, parseRtattr mem emptyTable max (NLMSG_DATA h + sizeofBody)
        (field mem h 4 - NLMSG_LENGTH sizeofBody) = .ok tb ∧
      ∀ type ≤ max, tb type = messageAttribute mem h sizeofBody type := by
  refine ⟨_, parseRtattr_message emptyTable hin.room, fun type htype => ?_⟩
  rw [if_pos htype, messageAttribute, emptyTable, Option.or_none]

/-- A message with an attribute has its body. -/
theorem body_room (hin : Inside mem h) {sizeofBody type rta : Nat}
    (hlast : messageAttribute mem h sizeofBody type = some rta) :
    NLMSG_DATA h + sizeofBody + sizeofRtattr ≤ mem.length := by
  obtain ⟨hfrom, hheader, hend⟩ :=
    mem_attributesOf (mem_of_messageAttribute hlast)
  have hroom := hin.room
  omega

theorem parseLinkMsg_returns (hin : Inside mem h)
    (htype : isLinkMsg (field mem (h + 4) 2)) :
    Returns (parseLinkMsg env mem h) ↔ LinkFits mem h := by
  have hroom := hin.header_room
  have hskip := not_skipped htype
  obtain ⟨tb, htb, hlook⟩ := exists_table hin sizeofIfinfomsg env.IFLA_MAX
  rw [parseLinkMsg, returns_fieldAt_bind, returns_fieldAt_bind, if_neg hskip, htb,
    Returns.ok_bind, hlook IFLA_IFNAME env.ifname_le, LinkFits]
  cases hlast : messageAttribute mem h sizeofIfinfomsg IFLA_IFNAME with
  | none => exact iff_of_true ⟨by omega, by omega, .ok _⟩ fun rta h => nomatch h
  | some rta =>
      have hbody := body_room hin hlast
      rw [sizeofIfinfomsg] at hbody
      refine (and_iff_right (by omega)).trans ((and_iff_right (by omega)).trans
        ((Returns.bind_iff_of_forall fun taken => ?_).trans ?_))
      · exact returns_fieldAt_bind.mpr ⟨by omega, .ok _⟩
      · simp [returns_strncpyFrom, NameFits]

/-- The name of an address message can be taken exactly if there is room for what
is read of the label. -/
theorem returns_addressName {ifa : Nat} (hroom : ifa + 8 ≤ mem.length)
    (rta : Option Nat) :
    Returns (addressName env mem ifa rta) ↔ ∀ r, rta = some r → NameFits mem r := by
  cases rta with
  | none =>
      exact iff_of_true (returns_fieldAt_bind.mpr ⟨by omega, .ok _⟩)
        fun r h => nomatch h
  | some r =>
      rw [addressName, Returns.bind_ok_iff, returns_strncpyFrom]
      simp only [Option.some.injEq, forall_eq', NameFits]

theorem returns_ntopAt {family rta : Nat} :
    Returns (ntopAt env mem family rta) ↔
      RTA_DATA rta + addressSize family ≤ mem.length := by
  rw [ntopAt, returns_bytesAt_bind]
  exact and_iff_left (.ok _)

theorem returns_ntopLocal {family : Nat} (rta : Option Nat) :
    Returns (ntopLocal env mem family rta) ↔
      ∃ r, rta = some r ∧ RTA_DATA r + addressSize family ≤ mem.length := by
  cases rta with
  | none => exact iff_of_false (Returns.not_error _) fun ⟨r, h, _⟩ => nomatch h
  | some r => simp [ntopLocal, returns_ntopAt]

/-- The table with the address in the place of the local one, if this is
missing. -/
theorem withLocal_local (tb : Nat → Option Nat) :
    (if tb IFA_LOCAL = none then Function.update tb IFA_LOCAL (tb IFA_ADDRESS)
      else tb) IFA_LOCAL = (tb IFA_LOCAL).or (tb IFA_ADDRESS) := by
  cases hlocal : tb IFA_LOCAL with
  | none => simp
  | some rta => simp [hlocal]

theorem withLocal_label (tb : Nat → Option Nat) :
    (if tb IFA_LOCAL = none then Function.update tb IFA_LOCAL (tb IFA_ADDRESS)
      else tb) IFLA_IFNAME = tb IFLA_IFNAME := by
  split
  · exact Function.update_of_ne (by decide) _ _
  · rfl

theorem address_body_room (hin : Inside mem h) {rta : Nat}
    (hrta : addressAttribute mem h = some rta) :
    NLMSG_DATA h + 8 ≤ mem.length := by
  have hbody : NLMSG_DATA h + sizeofIfaddrmsg + sizeofRtattr ≤ mem.length := by
    rcases Option.or_eq_some_iff.mp hrta with hlocal | ⟨-, haddress⟩
    · exact body_room hin hlocal
    · exact body_room hin haddress
  rw [sizeofIfaddrmsg] at hbody
  omega

theorem parseAddressMsg_returns (hin : Inside mem h)
    (htype : isAddressMsg (field mem (h + 4) 2)) :
    Returns (parseAddressMsg env mem h) ↔ AddressFits mem h := by
  have hroom := hin.header_room
  have hskip := not_skipped htype
  obtain ⟨tb, htb, hlook⟩ := exists_table hin sizeofIfaddrmsg env.IFA_MAX
  rw [parseAddressMsg, returns_fieldAt_bind, returns_fieldAt_bind, AddressFits]
  refine (and_iff_right (by omega)).trans (and_congr_right fun hfamily => ?_)
  by_cases hinet : IsInet (field mem (NLMSG_DATA h) 1)
  · have hgo : ¬ (field mem (NLMSG_DATA h) 1 ≠ AF_INET ∧
        field mem (NLMSG_DATA h) 1 ≠ AF_INET6) := not_and_or.mpr
      (hinet.imp not_not_intro not_not_intro)
    rw [if_neg hgo, returns_fieldAt_bind, if_neg hskip, htb, Returns.ok_bind]
    have hlabel := (withLocal_label tb).trans (hlook IFLA_IFNAME env.label_le)
    have hlocal := (withLocal_local tb).trans (congrArg₂ Option.or
      (hlook IFA_LOCAL (Nat.le_trans (by decide) env.label_le))
      (hlook IFA_ADDRESS (Nat.le_trans (by decide) env.label_le)))
    rw [← addressAttribute] at hlocal
    rw [Returns.bind_iff_and fun ifname => Returns.bind_ok_iff]
    simp only [hlabel, hlocal, returns_ntopLocal, hinet, true_imp_iff]
    refine (and_iff_right (by omega)).trans ?_
    rw [and_comm]
    refine and_congr_right fun ⟨rta, hrta, _⟩ => returns_addressName ?_ _
    exact address_body_room hin hrta
  · have hstop : field mem (NLMSG_DATA h) 1 ≠ AF_INET ∧
        field mem (NLMSG_DATA h) 1 ≠ AF_INET6 := not_or.mp hinet
    rw [if_pos hstop]
    exact iff_of_true (.ok _) fun h => absurd h hinet

theorem payloadFits_none (size : Nat) : PayloadFits mem size none :=
  fun _ h => nomatch h

theorem payloadFits_some {size rta : Nat} :
    PayloadFits mem size (some rta) ↔ RTA_DATA rta + size ≤ mem.length := by
  simp [PayloadFits]

theorem returns_readOif (rta : Option Nat) :
    Returns (readOif mem rta) ↔ PayloadFits mem 4 rta := by
  cases rta with
  | none => exact iff_of_true (.ok 0) (payloadFits_none 4)
  | some r =>
      rw [readOif, payloadFits_some, fieldAt]
      split
      · next h => exact iff_of_true (.ok _) h
      · next h => exact iff_of_false (Returns.not_error _) h

theorem returns_ntopGateway {family : Nat} (rta : Option Nat) :
    Returns (ntopGateway env mem family rta) ↔
      PayloadFits mem (addressSize family) rta := by
  cases rta with
  | none => exact iff_of_true (.ok none) (payloadFits_none _)
  | some r => rw [ntopGateway, Returns.bind_ok_iff, returns_ntopAt, payloadFits_some]

theorem returns_ntopDest {family : Nat} (rta : Option Nat) :
    Returns (ntopDest env mem family rta) ↔
      PayloadFits mem (addressSize family) rta := by
  cases rta with
  | none => exact iff_of_true (.ok _) (payloadFits_none _)
  | some r => rw [ntopDest, returns_ntopAt, payloadFits_some]

theorem parseRouteMsg_returns (hin : Inside mem h)
    (htype : isRouteMsg (field mem (h + 4) 2)) :
    Returns (parseRouteMsg env mem h) ↔ RouteFits mem h := by
  have hroom := hin.header_room
  have hskip := not_skipped htype
  obtain ⟨tb, htb, hlook⟩ := exists_table hin sizeofRtmsg env.RTA_MAX
  have hoif := hlook RTA_OIF (Nat.le_trans (by decide) env.gateway_le)
  have hgateway := hlook RTA_GATEWAY env.gateway_le
  have hdest := hlook RTA_DST (Nat.le_trans (by decide) env.gateway_le)
  rw [parseRouteMsg, returns_fieldAt_bind, returns_fieldAt_bind, if_neg hskip,
    returns_fieldAt_bind, RouteFits]
  refine (and_iff_right (by omega)).trans ((and_iff_right (by omega)).trans
    (and_congr_right fun htable => ?_))
  by_cases hmain : field mem (NLMSG_DATA h + 4) 1 = RT_TABLE_MAIN
  case neg =>
    rw [if_pos hmain]
    exact iff_of_true (.ok _) fun h => absurd h hmain
  rw [if_neg (not_not_intro hmain), returns_fieldAt_bind]
  simp only [hmain, true_imp_iff]
  refine and_congr_right fun htypeRoom => ?_
  by_cases hunicast : field mem (NLMSG_DATA h + 7) 1 = RTN_UNICAST
  case neg =>
    rw [if_pos hunicast]
    exact iff_of_true (.ok _) fun h => absurd h hunicast
  rw [if_neg (not_not_intro hunicast), htb, Returns.ok_bind, hoif]
  simp only [hunicast, true_imp_iff]
  rw [← returns_readOif]
  refine Returns.bind_iff_and fun index => ?_
  rw [returns_fieldAt_bind]
  refine (and_iff_right (by omega)).trans ?_
  unfold IsInet
  by_cases hinet : field mem (NLMSG_DATA h) 1 = AF_INET ∨
      field mem (NLMSG_DATA h) 1 = AF_INET6
  · rw [if_pos hinet, Returns.bind_iff_and fun gateway => Returns.bind_ok_iff,
      returns_ntopGateway, returns_ntopDest, hgateway, hdest]
    simp [hinet]
  · rw [if_neg hinet]
    exact iff_of_true (.ok _) fun h => absurd h hinet

/-! ### The datagram -/

/-- There is room for what is read of the message. -/
def MessageFits (mem : List UInt8) (h : Nat) : Prop :=
  if isRouteMsg (field mem (h + 4) 2) then RouteFits mem h
  else if isLinkMsg (field mem (h + 4) 2) then LinkFits mem h
  else if isAddressMsg (field mem (h + 4) 2) then AddressFits mem h
  else True

def isDone (datagram : List UInt8) (hdr : Nat) : Bool :=
  field datagram (hdr + 4) 2 = NLMSG_DONE

/-- The messages of a datagram, up to one of type `NLMSG_DONE`. -/
def messages (datagram : List UInt8) : List Nat :=
  (AlignedRecords.records sizeofNlmsghdr sizeofNlmsghdr_pos (field datagram · 4) 0
    datagram.length).takeWhile (!isDone datagram ·)

theorem parseMsg_returns (hin : Inside mem h) :
    Returns (parseMsg env mem h (field mem (h + 4) 2)) ↔ MessageFits mem h := by
  unfold parseMsg MessageFits
  split
  · next hroute => exact parseRouteMsg_returns hin hroute
  · split
    · next hlink => exact parseLinkMsg_returns hin hlink
    · split
      · next haddress => exact parseAddressMsg_returns hin haddress
      · exact iff_of_true (.ok _) trivial

/-- There is room for what is read of every message. -/
def DatagramFits (datagram : List UInt8) : Prop :=
  ∀ h ∈ messages datagram, MessageFits datagram h

theorem inside_of_mem_records {datagram : List UInt8} {hdr : Nat}
    (hmem : hdr ∈ AlignedRecords.records sizeofNlmsghdr sizeofNlmsghdr_pos
      (field datagram · 4) 0 datagram.length) : Inside datagram hdr := by
  obtain ⟨-, hheader, hend⟩ := AlignedRecords.mem_records hmem
  exact ⟨hheader, by omega⟩

/-- The loop over the messages of a datagram returns exactly if there is room for
what is read of each. -/
theorem messageLoop_returns (datagram : List UInt8) (notices : List NetlinkNotice) :
    Returns ((NLMSG datagram).walk
      (fun hdr notices => do
        let nlmsg_type ← fieldAt datagram (hdr + 4) 2
        if nlmsg_type = NLMSG_DONE then .ok (.done notices)
        else do
          let more ← parseMsg env datagram hdr nlmsg_type
          .ok (.yield (notices ++ more)))
      0 datagram.length notices) ↔ DatagramFits datagram := by
  have hread : ∀ hdr, hdr + (NLMSG datagram).header ≤ datagram.length →
      (NLMSG datagram).sizeAt hdr = .ok (field datagram hdr 4) := by
    intro hdr hhdr
    change hdr + 16 ≤ datagram.length at hhdr
    exact fieldAt_eq_ok (by omega)
  rw [AlignedRecords.Format.walk_eq_forIn (NLMSG datagram) (field datagram · 4)
    datagram.length hread _ _ _ _ (by omega)]
  have htype : ∀ {hdr}, hdr ∈ AlignedRecords.records sizeofNlmsghdr
      sizeofNlmsghdr_pos (field datagram · 4) 0 datagram.length →
      fieldAt datagram (hdr + 4) 2 = .ok (field datagram (hdr + 4) 2) := by
    intro hdr hmem
    have hroom := (inside_of_mem_records hmem).header_room
    exact fieldAt_eq_ok (by omega)
  refine Returns.forIn_iff (isDone datagram) (fun hdr hmem s hdone => ?_)
    (fun hdr hmem s hdone => ?_) (fun hdr hmem s step hdone hstep => ?_) notices
  · rw [htype hmem]
    exact if_pos (of_decide_eq_true hdone)
  · rw [htype hmem, Returns.ok_bind, if_neg (of_decide_eq_false hdone),
      Returns.bind_ok_iff]
    exact parseMsg_returns (inside_of_mem_records hmem)
  · rw [htype hmem] at hstep
    change (if _ then _ else _) = _ at hstep
    rw [if_neg (of_decide_eq_false hdone)] at hstep
    cases hmore : parseMsg env datagram hdr (field datagram (hdr + 4) 2) with
    | error fault =>
        rw [hmore] at hstep
        cases hstep
    | ok more =>
        rw [hmore] at hstep
        exact ⟨_, (Except.ok.inj hstep).symm⟩

/-- What is received passes the checks of `onFdReadable`. -/
structure Recvmsg.Accepted (recv : Recvmsg) : Prop where
  one_le_ret : 1 ≤ recv.ret
  ret_le : recv.ret ≤ 4096
  msg_namelen : recv.msg_namelen = sizeofSockaddrNl
  whole : recv.truncated = false

def Recvmsg.datagram (recv : Recvmsg) : List UInt8 := recv.buf.take recv.ret.toNat

theorem Recvmsg.Accepted.length_datagram {recv : Recvmsg} (hrecv : recv.Accepted) :
    recv.ret = recv.datagram.length := by
  have hpos := hrecv.one_le_ret
  have hle := hrecv.ret_le
  rw [Recvmsg.datagram, List.length_take, recv.length_buf]
  omega

/-- What is accepted goes through the loop over its messages. -/
theorem onFdReadable_accepted {recv : Recvmsg} (hrecv : recv.Accepted) :
    onFdReadable env recv = (do
      let notices ← (NLMSG recv.datagram).walk
        (fun hdr notices => do
          let nlmsg_type ← fieldAt recv.datagram (hdr + 4) 2
          if nlmsg_type = NLMSG_DONE then .ok (.done notices)
          else do
            let more ← parseMsg env recv.datagram hdr nlmsg_type
            .ok (.yield (notices ++ more)))
        0 recv.datagram.length []
      .ok (true, notices)) := by
  have hpos := hrecv.one_le_ret
  have hle := hrecv.ret_le
  have hsize : ¬ (recv.buf.length < recv.ret ∨ recv.truncated) := by
    rw [recv.length_buf, hrecv.whole]
    simp
    omega
  rw [onFdReadable, if_neg (by omega), if_neg (by omega),
    if_neg (not_not_intro hrecv.msg_namelen), if_neg hsize, ← hrecv.length_datagram]
  rfl

end Netlink

/-- A datagram that passes the checks on what `recvmsg` returns is parsed inside
its bytes and without a null pointer exactly if there is room for what is read of
every message, and an address in every address message of an internet family. -/
theorem onFdReadable_returns_iff (env : Netlink.NetlinkEnv) (recv : Netlink.Recvmsg)
    (hrecv : recv.Accepted) :
    Returns (Netlink.onFdReadable env recv) ↔ Netlink.DatagramFits recv.datagram := by
  rw [Netlink.onFdReadable_accepted hrecv, Returns.bind_ok_iff,
    Netlink.messageLoop_returns]

namespace Netlink

theorem length_filled {datagram : List UInt8} (hlength : datagram.length ≤ 4096) :
    (datagram ++ List.replicate (4096 - datagram.length) 0).length = 4096 := by
  rw [List.length_append, List.length_replicate]
  omega

/-- A datagram in the buffer. -/
def received (datagram : List UInt8) (hlength : datagram.length ≤ 4096) :
    Recvmsg where
  ret := datagram.length
  msg_namelen := sizeofSockaddrNl
  truncated := false
  buf := datagram ++ List.replicate (4096 - datagram.length) 0
  length_buf := length_filled hlength

variable {datagram : List UInt8} {hlength : datagram.length ≤ 4096}

@[simp] theorem datagram_received : (received datagram hlength).datagram = datagram :=
  List.take_left

theorem received_accepted (hpos : 1 ≤ datagram.length) :
    (received datagram hlength).Accepted :=
  ⟨by change (1 : Int) ≤ (datagram.length : Int); omega,
    by change (datagram.length : Int) ≤ 4096; omega, rfl, rfl⟩

theorem length_blankName : (List.replicate IFNAMSIZ (0 : UInt8)).length = IFNAMSIZ :=
  List.length_replicate

theorem gateway_le_rtaMax : RTA_GATEWAY ≤ 30 := by decide

theorem ifname_le_iflaMax : IFLA_IFNAME ≤ 50 := by decide

theorem label_le_ifaMax : IFLA_IFNAME ≤ 8 := by decide

/-- Headers of a certain age, and no names of interfaces. -/
def plainEnv : NetlinkEnv where
  RTA_MAX := 30
  IFLA_MAX := 50
  IFA_MAX := 8
  gateway_le := gateway_le_rtaMax
  ifname_le := ifname_le_iflaMax
  label_le := label_le_ifaMax
  ifname := ⟨List.replicate IFNAMSIZ 0, length_blankName, []⟩
  ifIndextoname _ := none
  inetNtop _ address := .ofMemory address

/-- A header of a route message, without its body. -/
def bareRoute : List UInt8 :=
  [16, 0, 0, 0, 24, 0, 0, 0, 0, 0, 0, 0, 0, 0, 0, 0]

/-- An address message without attributes. -/
def bareAddress : List UInt8 :=
  [24, 0, 0, 0, 20, 0, 0, 0, 0, 0, 0, 0, 0, 0, 0, 0, 2, 24, 0, 0, 1, 0, 0, 0]

/-- A link message without attributes. -/
def bareLink : List UInt8 :=
  [32, 0, 0, 0, 16, 0, 0, 0, 0, 0, 0, 0, 0, 0, 0, 0,
    0, 0, 0, 0, 2, 0, 0, 0, 0, 0, 0, 0, 0, 0, 0, 0]

theorem parseAddressMsg_bareAddress :
    parseAddressMsg plainEnv bareAddress 0 = .error .absent := by
  have htb : parseRtattr bareAddress emptyTable plainEnv.IFA_MAX
      (NLMSG_DATA 0 + sizeofIfaddrmsg) ((24 : Nat) - NLMSG_LENGTH sizeofIfaddrmsg) =
      .ok emptyTable := parseRtattr_of_lt (by decide)
  change (parseRtattr bareAddress emptyTable plainEnv.IFA_MAX
      (NLMSG_DATA 0 + sizeofIfaddrmsg)
      ((24 : Nat) - NLMSG_LENGTH sizeofIfaddrmsg) >>= _) = _
  rw [htb]
  rfl

/-- The table is read behind the datagram, and an address where there is none. -/
theorem datagram_not_contained :
    ¬ Returns (onFdReadable plainEnv (received bareRoute (by decide))) ∧
      ¬ Returns (onFdReadable plainEnv (received bareAddress (by decide))) := by
  constructor
  · have hfault : onFdReadable plainEnv (received bareRoute (by decide)) =
        .error .outside := by
      rw [onFdReadable_accepted (received_accepted (by decide)), datagram_received,
        AlignedRecords.Format.walk_of_error (NLMSG bareRoute) 16 .outside
          rfl (by decide) rfl]
      rfl
    rw [hfault]
    exact Returns.not_error _
  · have hfault : onFdReadable plainEnv (received bareAddress (by decide)) =
        .error .absent := by
      rw [onFdReadable_accepted (received_accepted (by decide)), datagram_received,
        AlignedRecords.Format.walk_of_error (NLMSG bareAddress) 24 .absent
          rfl (by decide) ?_]
      · rfl
      · change (parseAddressMsg plainEnv bareAddress 0 >>= _) = _
        rw [parseAddressMsg_bareAddress]
        rfl
    rw [hfault]
    exact Returns.not_error _

/-- A link message without a name is inside. -/
theorem bareLink_contained :
    Returns (onFdReadable plainEnv (received bareLink (by decide))) := by
  rw [onFdReadable_returns_iff plainEnv _ (received_accepted (by decide)),
    datagram_received]
  intro hdr hmem
  rw [messages, AlignedRecords.records_eq_cons (by decide),
    AlignedRecords.records_eq_nil (by decide)] at hmem
  obtain rfl : hdr = 0 := by simpa [isDone] using List.takeWhile_subset _ hmem
  intro rta hrta
  have hattr := mem_of_messageAttribute hrta
  rw [attributesOf, attributes, AlignedRecords.records_eq_nil (by decide)] at hattr
  cases hattr

end Netlink

end MyDirectFB

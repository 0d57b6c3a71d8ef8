/-
The datagrams that the kernel sends, as lists of messages, and what the listeners
are told of each.  A message is a header, a body of its type, and attributes; the
parsing of core/netlink_manager.cpp finds again what was laid out, the last
attribute of each type, and tells the listeners of one message after another.
-/
import MyDirectFB.NetlinkNames

namespace MyDirectFB

namespace Netlink

/-! ### How the messages are laid out -/

/-- An `rtattr` with its payload. -/
structure NetlinkAttribute where
  type : Nat
  payload : List UInt8
  type_lt : type < 256 ^ 2
  length_lt : sizeofRtattr + payload.length < 256 ^ 2

namespace NetlinkAttribute

def rta_len (attr : NetlinkAttribute) : Nat :=
  sizeofRtattr + attr.payload.length

def encode (attr : NetlinkAttribute) : List UInt8 :=
  LittleEndian.encode 2 attr.rta_len ++
    LittleEndian.encode 2 attr.type ++ attr.payload ++
    List.replicate (AlignedRecords.align attr.rta_len - attr.rta_len) 0

theorem length_encode (attr : NetlinkAttribute) :
    attr.encode.length = AlignedRecords.align attr.rta_len := by
  have hle := AlignedRecords.le_align attr.rta_len
  simp only [encode, List.length_append, LittleEndian.length_encode,
    List.length_replicate]
  unfold rta_len sizeofRtattr at *
  omega

end NetlinkAttribute

/-- A message.  `control` has the flags, the sequence number and the port of the
header. -/
structure NetlinkMessage where
  nlmsg_type : Nat
  control : List UInt8
  body : List UInt8
  attributes : List NetlinkAttribute
  type_lt : nlmsg_type < 256 ^ 2
  length_control : control.length = 10

namespace NetlinkMessage

def nlmsg_len (message : NetlinkMessage) : Nat :=
  NLMSG_LENGTH message.body.length +
    AlignedRecords.extent NetlinkAttribute.rta_len message.attributes

def encode (message : NetlinkMessage) : List UInt8 :=
  LittleEndian.encode 4 message.nlmsg_len ++
    LittleEndian.encode 2 message.nlmsg_type ++ message.control ++ message.body ++
    message.attributes.flatMap NetlinkAttribute.encode ++
    List.replicate (AlignedRecords.align message.nlmsg_len - message.nlmsg_len) 0

theorem length_attributes (attributes : List NetlinkAttribute) :
    (attributes.flatMap NetlinkAttribute.encode).length =
      AlignedRecords.extent NetlinkAttribute.rta_len attributes :=
  AlignedRecords.length_flatMap_encode _ _ NetlinkAttribute.length_encode attributes

theorem length_encode (message : NetlinkMessage) :
    message.encode.length = AlignedRecords.align message.nlmsg_len := by
  have hle := AlignedRecords.le_align message.nlmsg_len
  simp only [encode, List.length_append, LittleEndian.length_encode,
    List.length_replicate, length_attributes, message.length_control]
  unfold nlmsg_len NLMSG_LENGTH sizeofNlmsghdr at *
  omega

/-- The payload of the last attribute of a type. -/
def last (message : NetlinkMessage) (type : Nat) : Option (List UInt8) :=
  ((message.attributes.filter (·.type = type)).getLast?).map (·.payload)

/-! ### What the listeners are to be told -/

variable (message : NetlinkMessage) (env : NetlinkEnv)

/-- The first byte of the body of an address or route message. -/
def family : Nat := field message.body 0 1

instance : Decidable (IsInet message.family) :=
  inferInstanceAs (Decidable (_ ∨ _))

def address (payload : List UInt8) : CString :=
  env.inetNtop message.family (payload.take (addressSize message.family))

/-- The interface of a route. -/
def routeInterface : Option CString :=
  (message.last RTA_OIF).bind fun payload => env.ifIndextoname (field payload 0 4)

/-- The interface of an address: its label, or else the name of its index. -/
def addressInterface : Option CString :=
  ((message.last IFLA_IFNAME).map CString.ofMemory).or
    (env.ifIndextoname (field message.body 4 4))

/-- A route of the main table to a single destination. -/
def IsMainRoute : Prop :=
  field message.body 4 1 = RT_TABLE_MAIN ∧ field message.body 7 1 = RTN_UNICAST ∧
    IsInet message.family

instance : Decidable message.IsMainRoute :=
  inferInstanceAs (Decidable (_ ∧ _ ∧ _))

def routeNotices : List NetlinkNotice :=
  if message.IsMainRoute then
    (message.routeInterface env).toList.map fun ifname =>
      .onRouteChanged (message.nlmsg_type = RTM_NEWROUTE) ifname
        ((message.last RTA_DST).elim
          (message.address env (List.replicate (addressSize message.family) 0))
          (message.address env))
        ((message.last RTA_GATEWAY).map (message.address env))
  else []

def linkNotices : List NetlinkNotice :=
  (message.last IFLA_IFNAME).toList.map fun payload =>
    .onLinkChanged (field message.body 8 4 &&& IFF_RUNNING ≠ 0) (.ofMemory payload)

def addressNotices : List NetlinkNotice :=
  if IsInet message.family then
    (message.addressInterface env).toList.flatMap fun ifname =>
      ((message.last IFA_LOCAL).or (message.last IFA_ADDRESS)).toList.map fun payload =>
        .onAddressChanged (message.nlmsg_type = RTM_NEWADDR) ifname
          (message.address env payload)
  else []

/-- What every listener is told of the message. -/
def notices : List NetlinkNotice :=
  if isRouteMsg message.nlmsg_type then message.routeNotices env
  else if isLinkMsg message.nlmsg_type then message.linkNotices
  else if isAddressMsg message.nlmsg_type then message.addressNotices env
  else []

end NetlinkMessage

/-! ### What is read of a message -/

variable {mem front : List UInt8} {h : Nat} {message : NetlinkMessage}

theorem length_of_prefix (hfront : front <+: mem.drop h) (hpos : 0 < front.length) :
    h + front.length ≤ mem.length := by
  have hle := hfront.length_le
  rw [List.length_drop] at hle
  omega

theorem field_encode {width value : Nat} {rest : List UInt8}
    (hvalue : value < 256 ^ width)
    (hfront : LittleEndian.encode width value ++ rest <+: mem.drop h) :
    field mem h width = value := by
  obtain ⟨behind, hbehind⟩ := hfront
  rw [field, bytes, ← hbehind, List.append_assoc,
    List.take_append_of_le_length (by simp),
    List.take_of_length_le (by simp), LittleEndian.decode_encode_of_lt hvalue]

/-- The parts of a message, at its place in the datagram. -/
structure LaidOut (mem : List UInt8) (h : Nat) (message : NetlinkMessage) : Prop where
  whole : message.encode <+: mem.drop h
  length_lt : message.nlmsg_len < 256 ^ 4

namespace LaidOut

theorem length_eq (hmessage : LaidOut mem h message) :
    field mem h 4 = message.nlmsg_len := by
  have hwhole := hmessage.whole
  simp only [NetlinkMessage.encode, List.append_assoc] at hwhole
  exact field_encode hmessage.length_lt hwhole

theorem inside (hmessage : LaidOut mem h message) : Inside mem h where
  header := by
    rw [hmessage.length_eq, NetlinkMessage.nlmsg_len, NLMSG_LENGTH]
    omega
  room := by
    have hle := AlignedRecords.le_align message.nlmsg_len
    have hroom := length_of_prefix hmessage.whole (by
      rw [message.length_encode]
      unfold NetlinkMessage.nlmsg_len NLMSG_LENGTH sizeofNlmsghdr at *
      omega)
    rw [message.length_encode] at hroom
    rw [hmessage.length_eq]
    omega

end LaidOut

/-- There is no attribute, or there is one with the payload behind its header. -/
inductive Holds (mem : List UInt8) : Option Nat → Option (List UInt8) → Prop
  | absent : Holds mem none none
  | present (rta : Nat) (payload : List UInt8)
      (hpayload : payload <+: mem.drop (RTA_DATA rta)) :
      Holds mem (some rta) (some payload)

theorem Holds.or {first second : Option Nat} {payload other : Option (List UInt8)}
    (hfirst : Holds mem first payload) (hsecond : Holds mem second other) :
    Holds mem (first.or second) (payload.or other) := by
  cases hfirst with
  | absent => exact hsecond
  | present rta payload hpayload => exact .present rta payload hpayload

section

variable {env : NetlinkEnv} {found : Option Nat} {rta : Nat} {payload : List UInt8}
  {payload? : Option (List UInt8)}

end

/-! ### What is made of a message -/

variable {env : NetlinkEnv}

theorem LaidOut.body_room (hmessage : LaidOut mem h message) :
    NLMSG_DATA h + message.body.length ≤ mem.length := by
  have hroom := hmessage.inside.room
  rw [hmessage.length_eq, NetlinkMessage.nlmsg_len] at hroom
  unfold NLMSG_LENGTH NLMSG_DATA at *
  omega

end Netlink

namespace Netlink

end Netlink

end MyDirectFB

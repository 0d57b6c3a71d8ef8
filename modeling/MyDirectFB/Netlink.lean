/-
Route, link and address messages of netlink (core/netlink_manager.cpp).  The
memory that may be read is the datagram; a read outside it, or through an
attribute that is not there, is a fault.
-/
import MyDirectFB.Lib.AlignedRecords
import MyDirectFB.Lib.CString
import MyDirectFB.Lib.LittleEndian
import Mathlib.Logic.Function.Basic

namespace MyDirectFB

namespace Netlink

def NLMSG_DONE : Nat := 3
def RTM_NEWLINK : Nat := 16
def RTM_DELLINK : Nat := 17
def RTM_NEWADDR : Nat := 20
def RTM_DELADDR : Nat := 21
def RTM_NEWROUTE : Nat := 24
def RTM_DELROUTE : Nat := 25

def AF_INET : Nat := 2
def AF_INET6 : Nat := 10

def RT_TABLE_MAIN : Nat := 254
def RTN_UNICAST : Nat := 1

def RTA_DST : Nat := 1
def RTA_OIF : Nat := 4
def RTA_GATEWAY : Nat := 5
def IFLA_IFNAME : Nat := 3
def IFA_ADDRESS : Nat := 1
def IFA_LOCAL : Nat := 2

def IFNAMSIZ : Nat := 16
def IFF_RUNNING : Nat := 64

/-- The sizes of `nlmsghdr`, `rtattr`, `rtmsg`, `ifinfomsg`, `ifaddrmsg` and
`sockaddr_nl`. -/
def sizeofNlmsghdr : Nat := 16
def sizeofRtattr : Nat := 4
def sizeofRtmsg : Nat := 12
def sizeofIfinfomsg : Nat := 16
def sizeofIfaddrmsg : Nat := 8
def sizeofSockaddrNl : Nat := 12

theorem sizeofNlmsghdr_pos : 0 < sizeofNlmsghdr := by decide

theorem sizeofRtattr_pos : 0 < sizeofRtattr := by decide

/-- A read that may not be made: outside the memory, or through a null pointer. -/
inductive NetlinkFault where
  | outside
  | absent
deriving Repr, DecidableEq

/-! ### Reading -/

/-- The bytes from an offset on, as far as there are any. -/
def bytes (mem : List UInt8) (offset count : Nat) : List UInt8 :=
  (mem.drop offset).take count

/-- The number in a field of the given width. -/
def field (mem : List UInt8) (offset width : Nat) : Nat :=
  LittleEndian.decode (bytes mem offset width)

def bytesAt (mem : List UInt8) (offset count : Nat) :
    Except NetlinkFault (List UInt8) :=
  if offset + count ≤ mem.length then .ok (bytes mem offset count)
  else .error .outside

def fieldAt (mem : List UInt8) (offset width : Nat) : Except NetlinkFault Nat :=
  if offset + width ≤ mem.length then .ok (field mem offset width)
  else .error .outside

/-- The bytes that `strncpy` takes from a string: up to the NUL, and no more than
`left`. -/
def strncpyFrom (mem : List UInt8) : Nat → Nat → Except NetlinkFault (List UInt8)
  | _, 0 => .ok []
  | offset, left + 1 => do
      let c ← fieldAt mem offset 1
      if c = 0 then .ok []
      else do
        let rest ← strncpyFrom mem (offset + 1) left
        .ok (UInt8.ofNat c :: rest)

/-! ### Attributes -/

def NLMSG_LENGTH (len : Nat) : Nat := len + sizeofNlmsghdr

def NLMSG_DATA (h : Nat) : Nat := h + sizeofNlmsghdr

def RTA_DATA (rta : Nat) : Nat := rta + sizeofRtattr

/-- `NLMSG_OK` and `NLMSG_NEXT`: the length of a message is in its first four
bytes. -/
def NLMSG (mem : List UInt8) : AlignedRecords.Format NetlinkFault where
  header := sizeofNlmsghdr
  header_pos := sizeofNlmsghdr_pos
  sizeAt h := fieldAt mem h 4

/-- `RTA_OK` and `RTA_NEXT`: the length of an attribute is in its first two
bytes. -/
def RTA (mem : List UInt8) : AlignedRecords.Format NetlinkFault where
  header := sizeofRtattr
  header_pos := sizeofRtattr_pos
  sizeAt rta := fieldAt mem rta 2

/-- `parse_rtattr`, with the table before and after. -/
def parseRtattr (mem : List UInt8) (tb : Nat → Option Nat) (max : Nat) (rta : Nat)
    (len : Int) : Except NetlinkFault (Nat → Option Nat) :=
  (RTA mem).walk
    (fun rta tb => do
      let rta_type ← fieldAt mem (rta + 2) 2
      .ok (.yield
        (if rta_type ≤ max then Function.update tb rta_type (some rta) else tb)))
    rta len tb

/-- `memset(tb, 0, sizeof(tb))`. -/
def emptyTable : Nat → Option Nat := fun _ => none

/-! ### What is around the messages -/

/-- The local array `ifname` before a message is parsed, and the memory behind
it. -/
structure IfnameArray where
  before : List UInt8
  length_before : before.length = IFNAMSIZ
  behind : List UInt8

/-- `strncpy(ifname, .., IFNAMSIZ-1)` with the bytes that it takes. -/
def IfnameArray.strncpy (ifname : IfnameArray) (taken : List UInt8) : CString :=
  .ofMemory ((taken ++ List.replicate (IFNAMSIZ - 1) 0).take (IFNAMSIZ - 1) ++
    ifname.before.drop (IFNAMSIZ - 1) ++ ifname.behind)

/-- The kernel headers and the functions of the C library, as far as they are not
in the repository, and the array `ifname`. -/
structure NetlinkEnv where
  RTA_MAX : Nat
  IFLA_MAX : Nat
  IFA_MAX : Nat
  gateway_le : RTA_GATEWAY ≤ RTA_MAX
  ifname_le : IFLA_IFNAME ≤ IFLA_MAX
  label_le : IFLA_IFNAME ≤ IFA_MAX
  ifname : IfnameArray
  ifIndextoname : Nat → Option CString
  inetNtop : Nat → List UInt8 → CString

/-- The `ifname` that is passed on after `if_indextoname(index, ifname)`. -/
def NetlinkEnv.indexName (env : NetlinkEnv) (index : Nat) : CString :=
  match env.ifIndextoname index with
  | some name => name
  | none => .ofMemory (env.ifname.before ++ env.ifname.behind)

/-- What every listener is told of a message. -/
inductive NetlinkNotice where
  | onRouteChanged (isNew : Bool) (ifname : CString) (destaddr : CString)
      (gateway : Option CString)
  | onLinkChanged (isNew : Bool) (ifname : CString)
  | onAddressChanged (isNew : Bool) (ifname : CString) (ifaddr : CString)
deriving Repr, DecidableEq

/-- How many bytes `inet_ntop` reads. -/
def addressSize (family : Nat) : Nat := if family = AF_INET then 4 else 16

/-- `inet_ntop` on the payload of an attribute. -/
def ntopAt (env : NetlinkEnv) (mem : List UInt8) (family rta : Nat) :
    Except NetlinkFault CString := do
  let address ← bytesAt mem (RTA_DATA rta) (addressSize family)
  .ok (env.inetNtop family address)

/-! ### The messages -/

/-- `*(int *)RTA_DATA(tb[RTA_OIF])`, if there is one. -/
def readOif (mem : List UInt8) : Option Nat → Except NetlinkFault Nat
  | some rta => fieldAt mem (RTA_DATA rta) 4
  | none => .ok 0

def ntopGateway (env : NetlinkEnv) (mem : List UInt8) (family : Nat) :
    Option Nat → Except NetlinkFault (Option CString)
  | some rta => do
      let gateway ← ntopAt env mem family rta
      .ok (some gateway)
  | none => .ok none

/-- The destination, or `anyaddr`. -/
def ntopDest (env : NetlinkEnv) (mem : List UInt8) (family : Nat) :
    Option Nat → Except NetlinkFault CString
  | some rta => ntopAt env mem family rta
  | none => .ok (env.inetNtop family (List.replicate (addressSize family) 0))

def parseRouteMsg (env : NetlinkEnv) (mem : List UInt8) (h : Nat) :
    Except NetlinkFault (List NetlinkNotice) := do
  let rtm := NLMSG_DATA h
  let nlmsg_len ← fieldAt mem h 4
  let nlmsg_type ← fieldAt mem (h + 4) 2
  if nlmsg_type ≠ RTM_NEWROUTE ∧ nlmsg_type ≠ RTM_DELROUTE then .ok []
  else do
    let rtm_table ← fieldAt mem (rtm + 4) 1
    if rtm_table ≠ RT_TABLE_MAIN then .ok []
    else do
      let rtm_type ← fieldAt mem (rtm + 7) 1
      if rtm_type ≠ RTN_UNICAST then .ok []
      else do
        let tb ← parseRtattr mem emptyTable env.RTA_MAX (rtm + sizeofRtmsg)
          (nlmsg_len - NLMSG_LENGTH sizeofRtmsg)
        let index ← readOif mem (tb RTA_OIF)
        let rtm_family ← fieldAt mem rtm 1
        if rtm_family = AF_INET ∨ rtm_family = AF_INET6 then do
          let gateway ← ntopGateway env mem rtm_family (tb RTA_GATEWAY)
          let destaddr ← ntopDest env mem rtm_family (tb RTA_DST)
          .ok [.onRouteChanged (nlmsg_type = RTM_NEWROUTE) (env.indexName index)
            destaddr gateway]
        else .ok []

def parseLinkMsg (env : NetlinkEnv) (mem : List UInt8) (h : Nat) :
    Except NetlinkFault (List NetlinkNotice) := do
  let ifi := NLMSG_DATA h
  let nlmsg_len ← fieldAt mem h 4
  let nlmsg_type ← fieldAt mem (h + 4) 2
  if nlmsg_type ≠ RTM_NEWLINK ∧ nlmsg_type ≠ RTM_DELLINK then .ok []
  else do
    let tb ← parseRtattr mem emptyTable env.IFLA_MAX (ifi + sizeofIfinfomsg)
      (nlmsg_len - NLMSG_LENGTH sizeofIfinfomsg)
    match tb IFLA_IFNAME with
    | none => .ok []
    | some rta => do
        let taken ← strncpyFrom mem (RTA_DATA rta) (IFNAMSIZ - 1)
        let ifi_flags ← fieldAt mem (ifi + 8) 4
        .ok [.onLinkChanged (ifi_flags &&& IFF_RUNNING ≠ 0)
          (env.ifname.strncpy taken)]

/-- The name of the label, or of the index. -/
def addressName (env : NetlinkEnv) (mem : List UInt8) (ifa : Nat) :
    Option Nat → Except NetlinkFault CString
  | some rta => do
      let taken ← strncpyFrom mem (RTA_DATA rta) (IFNAMSIZ - 1)
      .ok (env.ifname.strncpy taken)
  | none => do
      let ifa_index ← fieldAt mem (ifa + 4) 4
      .ok (env.indexName ifa_index)

/-- The address through `tb[IFA_LOCAL]`, which may be null. -/
def ntopLocal (env : NetlinkEnv) (mem : List UInt8) (family : Nat) :
    Option Nat → Except NetlinkFault CString
  | some rta => ntopAt env mem family rta
  | none => .error .absent

def parseAddressMsg (env : NetlinkEnv) (mem : List UInt8) (h : Nat) :
    Except NetlinkFault (List NetlinkNotice) := do
  let ifa := NLMSG_DATA h
  let nlmsg_len ← fieldAt mem h 4
  let ifa_family ← fieldAt mem ifa 1
  if ifa_family ≠ AF_INET ∧ ifa_family ≠ AF_INET6 then .ok []
  else do
    let nlmsg_type ← fieldAt mem (h + 4) 2
    if nlmsg_type ≠ RTM_NEWADDR ∧ nlmsg_type ≠ RTM_DELADDR then .ok []
    else do
      let tb ← parseRtattr mem emptyTable env.IFA_MAX (ifa + sizeofIfaddrmsg)
        (nlmsg_len - NLMSG_LENGTH sizeofIfaddrmsg)
      let tb := if tb IFA_LOCAL = none then
        Function.update tb IFA_LOCAL (tb IFA_ADDRESS) else tb
      -- The table is indexed with the name of a link attribute, which has the
      -- value of `IFA_LABEL`.
      let ifname ← addressName env mem ifa (tb IFLA_IFNAME)
      let ifaddr ← ntopLocal env mem ifa_family (tb IFA_LOCAL)
      .ok [.onAddressChanged (nlmsg_type = RTM_NEWADDR) ifname ifaddr]

/-! ### The datagram -/

def isRouteMsg (nlmsg_type : Nat) : Bool :=
  nlmsg_type = RTM_NEWROUTE || nlmsg_type = RTM_DELROUTE

def isLinkMsg (nlmsg_type : Nat) : Bool :=
  nlmsg_type = RTM_NEWLINK || nlmsg_type = RTM_DELLINK

def isAddressMsg (nlmsg_type : Nat) : Bool :=
  nlmsg_type = RTM_NEWADDR || nlmsg_type = RTM_DELADDR

/-- The `switch` in the loop of `onFdReadable`. -/
def parseMsg (env : NetlinkEnv) (mem : List UInt8) (hdr nlmsg_type : Nat) :
    Except NetlinkFault (List NetlinkNotice) :=
  if isRouteMsg nlmsg_type then parseRouteMsg env mem hdr
  else if isLinkMsg nlmsg_type then parseLinkMsg env mem hdr
  else if isAddressMsg nlmsg_type then parseAddressMsg env mem hdr
  else .ok []

/-- What `recvmsg` returns and fills. -/
structure Recvmsg where
  ret : Int
  msg_namelen : Nat
  truncated : Bool
  buf : List UInt8
  length_buf : buf.length = 4096

/-- `onFdReadable`: its result, and what the listeners are told. -/
def onFdReadable (env : NetlinkEnv) (recv : Recvmsg) :
    Except NetlinkFault (Bool × List NetlinkNotice) :=
  if recv.ret < 0 then .ok (true, [])
  else if recv.ret = 0 then .ok (false, [])
  else if recv.msg_namelen ≠ sizeofSockaddrNl then .ok (true, [])
  else if recv.buf.length < recv.ret ∨ recv.truncated then .ok (true, [])
  else do
    let datagram := recv.buf.take recv.ret.toNat
    let notices ← (NLMSG datagram).walk
      (fun hdr notices => do
        let nlmsg_type ← fieldAt datagram (hdr + 4) 2
        if nlmsg_type = NLMSG_DONE then .ok (.done notices)
        else do
          let more ← parseMsg env datagram hdr nlmsg_type
          .ok (.yield (notices ++ more)))
      0 recv.ret []
    .ok (true, notices)

end Netlink

end MyDirectFB

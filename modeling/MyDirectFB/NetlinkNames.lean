/-
The interface names that listeners are told of (core/netlink_manager.cpp).
`strncpy` copies fifteen bytes into an array of sixteen, so a name of fifteen
characters ends where what was in the array before does.
-/
import MyDirectFB.NetlinkBounds

namespace MyDirectFB

namespace Netlink

variable {mem : List UInt8} {h : Nat} {name : CString}

/-- The payload of an attribute begins with the name and its NUL. -/
structure HoldsName (mem : List UInt8) (rta : Nat) (name : CString) : Prop where
  starts : ∃ rest, mem.drop (RTA_DATA rta) = name.bytes ++ 0 :: rest
  inside : sizeofRtattr + name.bytes.length + 1 ≤ field mem rta 2

/-- `strncpy` takes the characters of a name, as far as it goes. -/
theorem strncpyFrom_name {cs rest : List UInt8} {offset : Nat} (hcs : 0 ∉ cs)
    (hdrop : mem.drop offset = cs ++ 0 :: rest) (left : Nat) :
    strncpyFrom mem offset left = .ok (cs.take left) := by
  induction left generalizing cs offset with
  | zero => rw [strncpyFrom, List.take_zero]
  | succ left ih =>
      cases cs with
      | nil =>
          rw [strncpyFrom, fieldAt_eq_ok (room_of_drop hdrop), field_one hdrop]
          rfl
      | cons c cs =>
          have hc : c.toNat ≠ 0 := fun h =>
            hcs (List.mem_cons.mpr (.inl (UInt8.toNat_inj.mp h).symm))
          have hrest := ih (fun hmem => hcs (List.mem_cons_of_mem c hmem))
            (drop_succ hdrop)
          rw [strncpyFrom, fieldAt_eq_ok (room_of_drop hdrop), field_one hdrop]
          change (if c.toNat = 0 then _ else _) = _
          rw [if_neg hc, hrest, List.take_succ_cons]
          change Except.ok (UInt8.ofNat c.toNat :: _) = _
          rw [UInt8.ofNat_toNat]

/-- A name that was copied into the array is passed on as it is exactly if it is
shorter than what is copied, or there was a NUL behind. -/
theorem strncpy_eq_iff (ifname : IfnameArray)
    (hlength : name.bytes.length ≤ IFNAMSIZ - 1) :
    ifname.strncpy name.bytes = name ↔
      name.bytes.length < IFNAMSIZ - 1 ∨ ifname.before[IFNAMSIZ - 1]? = some 0 := by
  have hpadded := CString.take_padded hlength (Nat.le_refl (IFNAMSIZ - 1))
  rw [IfnameArray.strncpy, hpadded]
  by_cases hshort : name.bytes.length < IFNAMSIZ - 1
  · refine iff_of_true ?_ (.inl hshort)
    obtain ⟨pad, hpad⟩ : ∃ pad, IFNAMSIZ - 1 - name.bytes.length = pad + 1 :=
      ⟨IFNAMSIZ - 1 - name.bytes.length - 1, by omega⟩
    rw [hpad, List.replicate_succ, List.append_assoc, List.append_assoc,
      List.cons_append, CString.ofMemory_append]
  · have hfull : IFNAMSIZ - 1 - name.bytes.length = 0 := by omega
    have hlast : IFNAMSIZ - 1 < ifname.before.length := by
      rw [ifname.length_before]
      decide
    rw [hfull, List.replicate_zero, List.append_nil, List.append_assoc,
      List.drop_eq_getElem_cons hlast, List.cons_append, List.getElem?_eq_getElem hlast]
    simp only [hshort, false_or, Option.some.injEq]
    constructor
    · intro heq
      by_contra hne
      have hbytes := congrArg (List.length ∘ CString.bytes) heq
      have hname : ∀ c ∈ name.bytes, decide (c ≠ 0) = true := fun c hc =>
        decide_eq_true fun hzero => name.noNul (hzero ▸ hc)
      simp only [Function.comp_apply, CString.ofMemory] at hbytes
      rw [List.takeWhile_append_of_pos hname, List.takeWhile_cons_of_pos (by simpa),
        List.length_append, List.length_cons] at hbytes
      omega
    · intro hzero
      rw [hzero, CString.ofMemory_append]

/-- A link message with a name. -/
theorem parseLinkMsg_of_name (env : NetlinkEnv) (hin : Inside mem h)
    (htype : isLinkMsg (field mem (h + 4) 2)) {rta : Nat}
    (hlast : messageAttribute mem h sizeofIfinfomsg IFLA_IFNAME = some rta)
    (hname : HoldsName mem rta name) (hlength : name.bytes.length ≤ IFNAMSIZ - 1) :
    ∃ isNew, parseLinkMsg env mem h =
      .ok [.onLinkChanged isNew (env.ifname.strncpy name.bytes)] := by
  have hroom := hin.header_room
  have hbody := body_room hin hlast
  obtain ⟨rest, hstarts⟩ := hname.starts
  have htaken := strncpyFrom_name name.noNul hstarts (IFNAMSIZ - 1)
  rw [List.take_of_length_le hlength] at htaken
  have hskip := not_skipped htype
  obtain ⟨tb, htb, hlook⟩ := exists_table hin sizeofIfinfomsg env.IFLA_MAX
  refine ⟨field mem (NLMSG_DATA h + 8) 4 &&& IFF_RUNNING ≠ 0, ?_⟩
  rw [sizeofIfinfomsg] at hbody
  have hflags : fieldAt mem (NLMSG_DATA h + 8) 4 = .ok (field mem (NLMSG_DATA h + 8) 4) :=
    fieldAt_eq_ok (by omega)
  rw [parseLinkMsg, fieldAt_eq_ok (by omega), fieldAt_eq_ok (by omega)]
  change (if _ then _ else _) = _
  rw [if_neg hskip, htb]
  have hattribute : tb IFLA_IFNAME = some rta :=
    (hlook IFLA_IFNAME env.ifname_le).trans hlast
  simp only [bind, Except.bind, hattribute]
  change (strncpyFrom mem (RTA_DATA rta) (IFNAMSIZ - 1) >>= _) = _
  rw [htaken]
  change (fieldAt mem (NLMSG_DATA h + 8) 4 >>= _) = _
  rw [hflags]
  rfl

/-- An address message of an internet family with a name and an address. -/
theorem parseAddressMsg_of_name (env : NetlinkEnv) (hin : Inside mem h)
    (htype : isAddressMsg (field mem (h + 4) 2))
    (hinet : IsInet (field mem (NLMSG_DATA h) 1)) {rta : Nat}
    (hlast : messageAttribute mem h sizeofIfaddrmsg IFLA_IFNAME = some rta)
    (hname : HoldsName mem rta name) (hlength : name.bytes.length ≤ IFNAMSIZ - 1)
    (haddress : ∃ r, addressAttribute mem h = some r ∧
      RTA_DATA r + addressSize (field mem (NLMSG_DATA h) 1) ≤ mem.length) :
    ∃ isNew ifaddr, parseAddressMsg env mem h =
      .ok [.onAddressChanged isNew (env.ifname.strncpy name.bytes) ifaddr] := by
  have hroom := hin.header_room
  have hbody := body_room hin hlast
  rw [sizeofIfaddrmsg] at hbody
  obtain ⟨rest, hstarts⟩ := hname.starts
  have htaken := strncpyFrom_name name.noNul hstarts (IFNAMSIZ - 1)
  rw [List.take_of_length_le hlength] at htaken
  obtain ⟨tb, htb, hlook⟩ := exists_table hin sizeofIfaddrmsg env.IFA_MAX
  have hlabel := (withLocal_label tb).trans (hlook IFLA_IFNAME env.label_le)
  have hlocal := (withLocal_local tb).trans (congrArg₂ Option.or
    (hlook IFA_LOCAL (Nat.le_trans (by decide) env.label_le))
    (hlook IFA_ADDRESS (Nat.le_trans (by decide) env.label_le)))
  rw [← addressAttribute] at hlocal
  have hreturns : Returns (ntopLocal env mem (field mem (NLMSG_DATA h) 1)
      (addressAttribute mem h)) := (returns_ntopLocal _).mpr haddress
  obtain ⟨ifaddr, hifaddr⟩ := hreturns
  have hgo : ¬ (field mem (NLMSG_DATA h) 1 ≠ AF_INET ∧
      field mem (NLMSG_DATA h) 1 ≠ AF_INET6) :=
    not_and_or.mpr (hinet.imp not_not_intro not_not_intro)
  refine ⟨field mem (h + 4) 2 = RTM_NEWADDR, ifaddr, ?_⟩
  have hnameOk : addressName env mem (NLMSG_DATA h) (some rta) =
      .ok (env.ifname.strncpy name.bytes) := by
    rw [addressName, htaken]
    rfl
  rw [parseAddressMsg, fieldAt_eq_ok (by omega), fieldAt_eq_ok (by omega)]
  change (if _ then _ else _) = _
  rw [if_neg hgo, fieldAt_eq_ok (by omega)]
  change (if _ then _ else _) = _
  rw [if_neg (not_skipped htype), htb]
  change (addressName env mem (NLMSG_DATA h) _ >>= _) = _
  simp only [hlabel, hlocal]
  rw [hlast, hnameOk]
  change (ntopLocal env mem _ _ >>= _) = _
  rw [hifaddr]
  rfl

end Netlink

open Netlink in
/-- The name of a message reaches the listeners as it is exactly if it has at most
fourteen characters, or the last cell of the array held a NUL. -/
theorem ifname_intact_iff (env : NetlinkEnv) (mem : List UInt8) (h : Nat)
    (hin : Inside mem h) (name : CString)
    (hlength : name.bytes.length ≤ IFNAMSIZ - 1) :
    (∀ rta, isLinkMsg (field mem (h + 4) 2) →
      messageAttribute mem h sizeofIfinfomsg IFLA_IFNAME = some rta →
      HoldsName mem rta name →
      ((∃ isNew, parseLinkMsg env mem h = .ok [.onLinkChanged isNew name]) ↔
        name.bytes.length ≤ 14 ∨ env.ifname.before[15]? = some 0)) ∧
    ∀ rta, isAddressMsg (field mem (h + 4) 2) →
      IsInet (field mem (NLMSG_DATA h) 1) →
      messageAttribute mem h sizeofIfaddrmsg IFLA_IFNAME = some rta →
      HoldsName mem rta name →
      (∃ r, addressAttribute mem h = some r ∧
        RTA_DATA r + addressSize (field mem (NLMSG_DATA h) 1) ≤ mem.length) →
      ((∃ isNew ifaddr,
          parseAddressMsg env mem h = .ok [.onAddressChanged isNew name ifaddr]) ↔
        name.bytes.length ≤ 14 ∨ env.ifname.before[15]? = some 0) := by
  have hiff : env.ifname.strncpy name.bytes = name ↔
      name.bytes.length ≤ 14 ∨ env.ifname.before[15]? = some 0 :=
    (strncpy_eq_iff env.ifname hlength).trans (or_congr_left Nat.lt_succ_iff)
  rw [← hiff]
  constructor
  · intro rta htype hlast hname
    obtain ⟨isNew, hparse⟩ := parseLinkMsg_of_name env hin htype hlast hname hlength
    rw [hparse]
    simp
  · intro rta htype hinet hlast hname haddress
    obtain ⟨isNew, ifaddr, hparse⟩ := parseAddressMsg_of_name env hin htype
      hinet hlast hname hlength haddress
    rw [hparse]
    simp

namespace Netlink

/-- A link message with a name of fifteen characters. -/
def longLink : List UInt8 :=
  [52, 0, 0, 0, 16, 0, 0, 0, 0, 0, 0, 0, 0, 0, 0, 0,
    0, 0, 0, 0, 2, 0, 0, 0, 64, 0, 0, 0, 0, 0, 0, 0,
    20, 0, 3, 0, 119, 108, 97, 110, 48, 45, 49, 50, 51, 52, 53, 54, 55, 56, 57, 0]

theorem longName_noNul :
    (0 : UInt8) ∉ [119, 108, 97, 110, 48, 45, 49, 50, 51, 52, 53, 54, 55, 56, 57] := by
  decide

def longName : CString :=
  ⟨[119, 108, 97, 110, 48, 45, 49, 50, 51, 52, 53, 54, 55, 56, 57], longName_noNul⟩

theorem longLink_inside : Inside longLink 0 := ⟨by decide, by decide⟩

theorem longLink_name : messageAttribute longLink 0 sizeofIfinfomsg IFLA_IFNAME =
    some 32 := by
  rw [messageAttribute, attributesOf, attributes,
    AlignedRecords.records_eq_cons (by decide), AlignedRecords.records_eq_nil (by decide)]
  rfl

theorem longLink_holds : HoldsName longLink 32 longName :=
  ⟨⟨[], rfl⟩, by decide⟩

theorem length_usedName : (List.replicate IFNAMSIZ (33 : UInt8)).length = IFNAMSIZ :=
  List.length_replicate

/-- The array holds something else before. -/
def usedEnv : NetlinkEnv :=
  { plainEnv with ifname := ⟨List.replicate IFNAMSIZ 33, length_usedName, [0]⟩ }

end Netlink

open Netlink in
/-- Where the array was clear, the name is passed on. -/
theorem longName_after_nul : ∃ isNew,
    parseLinkMsg plainEnv longLink 0 = .ok [.onLinkChanged isNew longName] :=
  ((ifname_intact_iff plainEnv longLink 0 longLink_inside longName (by decide)).1 32
    (by decide) longLink_name longLink_holds).mpr (.inr rfl)

open Netlink in
/-- Where it was not, what was there is passed on with it. -/
theorem longName_not_intact : ¬ ∃ isNew,
    parseLinkMsg usedEnv longLink 0 = .ok [.onLinkChanged isNew longName] := by
  rintro ⟨isNew, hnew⟩
  obtain ⟨isNew', hparse⟩ := parseLinkMsg_of_name usedEnv longLink_inside
    (by decide) longLink_name longLink_holds (by decide)
  rw [hparse] at hnew
  simp only [Except.ok.injEq, List.cons.injEq, NetlinkNotice.onLinkChanged.injEq] at hnew
  rcases (strncpy_eq_iff _ (by decide)).mp hnew.1.2 with h | h
  · exact absurd h (by decide)
  · exact absurd h (by decide)

end MyDirectFB

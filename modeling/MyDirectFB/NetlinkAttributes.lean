/-
The walk over the attributes of a netlink message (core/netlink_manager.cpp).  The
bytes that are left are counted in an `int`, which the padding of the last attribute
may take below zero.  What the walk does is settled by the bytes it is given, whatever
the memory has around them.
-/
import MyDirectFB.NetlinkBounds

namespace MyDirectFB

namespace Netlink

variable {mem other : List UInt8} {rta : Nat} {len : Int}

/-! ### What is read -/

/-- The two memories have the same `len` bytes from `rta` on. -/
def SameRoom (mem other : List UInt8) (rta : Nat) (len : Int) : Prop :=
  bytes other rta len.toNat = bytes mem rta len.toNat

theorem bytes_bytes {start count offset width : Nat} (h : offset + width ≤ count) :
    bytes (bytes mem start count) offset width = bytes mem (start + offset) width := by
  simp only [bytes, List.drop_take, List.take_take, List.drop_drop]
  rw [Nat.min_eq_left (by omega)]

theorem SameRoom.field_eq (hsame : SameRoom mem other rta len) {offset width : Nat}
    (hfrom : rta ≤ offset) (hroom : (offset + width : Int) ≤ rta + len) :
    field other offset width = field mem offset width := by
  obtain ⟨k, rfl⟩ := Nat.exists_eq_add_of_le hfrom
  have hinside : k + width ≤ len.toNat := by
    push_cast at hroom
    omega
  rw [field, field, ← bytes_bytes hinside, ← bytes_bytes hinside, hsame]

theorem SameRoom.length_le (hsame : SameRoom mem other rta len)
    (hlen : len ≤ (mem.drop rta).length) : len ≤ (other.drop rta).length := by
  have hlength := congrArg List.length hsame
  simp only [bytes, List.length_take] at hlength
  omega

/-- The headers of the chain lie in the room. -/
theorem SameRoom.attributes_eq (hsame : SameRoom mem other rta len) :
    attributes other rta len = attributes mem rta len := by
  refine AlignedRecords.records_congr fun r hfrom hroom => ?_
  change (r + (sizeofRtattr : Int)) ≤ rta + len at hroom
  rw [sizeofRtattr] at hroom
  exact hsame.field_eq hfrom (by omega)

theorem SameRoom.lastAttribute_eq (hsame : SameRoom mem other rta len)
    (type : Nat) : lastAttribute other (attributes mem rta len) type =
      lastAttribute mem (attributes mem rta len) type := by
  unfold lastAttribute
  refine congrArg List.getLast? (List.filter_congr fun r hmem => ?_)
  obtain ⟨hfrom, hheader, hend⟩ := AlignedRecords.mem_records hmem
  rw [sizeofRtattr] at hheader
  have htype : rtaType other r = rtaType mem r :=
    hsame.field_eq (by omega) (by push_cast; omega)
  rw [htype]

/-! ### What is stored -/

/-- The attribute lies in the room, with its header. -/
structure AttributeInside (mem : List UInt8) (rta : Nat) (len : Int) (r : Nat) :
    Prop where
  from_le : rta ≤ r
  header : sizeofRtattr ≤ field mem r 2
  room : (r + field mem r 2 : Int) ≤ rta + len

theorem lastAttribute_inside {type r : Nat}
    (hlast : lastAttribute mem (attributes mem rta len) type = some r) :
    AttributeInside mem rta len r := by
  have hmem := List.mem_of_mem_filter (List.mem_of_getLast? hlast)
  obtain ⟨hfrom, hheader, hend⟩ := AlignedRecords.mem_records hmem
  exact ⟨hfrom, hheader, hend⟩

/-- The table after the walk: the last attribute of each type in the chain where the
table has an entry for it, and what was there before otherwise. -/
structure Tabulates (mem : List UInt8) (tb : Nat → Option Nat) (max rta : Nat)
    (len : Int) (after : Nat → Option Nat) : Prop where
  last : ∀ type ≤ max, after type =
    (lastAttribute mem (attributes mem rta len) type).or (tb type)
  above : ∀ type, max < type → after type = tb type
  inside : ∀ type r, after type = some r →
    tb type = some r ∨ AttributeInside mem rta len r

theorem tabulates_parsed (tb : Nat → Option Nat) (max : Nat) :
    Tabulates mem tb max rta len fun type =>
      if type ≤ max then (lastAttribute mem (attributes mem rta len) type).or (tb type)
      else tb type where
  last type htype := if_pos htype
  above type htype := if_neg (by omega)
  inside type r hafter := by
    split at hafter
    · rcases Option.or_eq_some_iff.mp hafter with hlast | ⟨-, hbefore⟩
      · exact .inr (lastAttribute_inside hlast)
      · exact .inl hbefore
    · exact .inl hafter

end Netlink

/-- `parse_rtattr` returns for every `len` that the bytes at `rta` allow, and what it
returns only depends on the first `len` of them: the table has the last attribute of
each type up to `max` in the maximal chain of attributes, and is unchanged elsewhere. -/
theorem parseRtattr_tabulates (mem : List UInt8) (tb : Nat → Option Nat)
    (max rta : Nat) (len : Int) (hlen : len ≤ (mem.drop rta).length) :
    AlignedRecords.MaximalChain Netlink.sizeofRtattr (Netlink.field mem · 2) rta len
        (Netlink.attributes mem rta len) ∧
      ∃ after, Netlink.Tabulates mem tb max rta len after ∧
        ∀ other, Netlink.SameRoom mem other rta len →
          Netlink.parseRtattr other tb max rta len = .ok after := by
  refine ⟨AlignedRecords.records_maximal _ _ _ _ _, _,
    Netlink.tabulates_parsed tb max, fun other hsame => ?_⟩
  rw [Netlink.parseRtattr_eq tb (hsame.length_le hlen)]
  refine congrArg Except.ok (funext fun type => ?_)
  rw [hsame.attributes_eq, hsame.lastAttribute_eq]

namespace Netlink

/-- Two attributes of type 3, the first of which is padded, and a header that has no
room. -/
def twoNames : List UInt8 :=
  [6, 0, 3, 0, 97, 0, 0, 0, 6, 0, 3, 0, 98, 0, 0, 0, 8, 0]

theorem attributes_twoNames : attributes twoNames 0 18 = [0, 8] := by
  rw [attributes, AlignedRecords.records_eq_cons (by decide),
    AlignedRecords.records_eq_cons (by decide), AlignedRecords.records_eq_nil (by decide)]
  rfl

/-- The table has the second name, and nothing behind the attributes is read. -/
theorem parseRtattr_twoNames :
    ∃ after, after 3 = some 8 ∧
      parseRtattr (twoNames ++ [3, 0, 0, 0]) emptyTable 3 0 18 = .ok after := by
  obtain ⟨-, after, htable, hparsed⟩ :=
    parseRtattr_tabulates twoNames emptyTable 3 0 18 (by decide)
  refine ⟨after, ?_, hparsed _ rfl⟩
  rw [htable.last 3 (Nat.le_refl 3), attributes_twoNames]
  rfl

end Netlink

end MyDirectFB

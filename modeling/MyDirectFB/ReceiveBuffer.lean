/-
Buffers that something is received into and then terminated by a NUL
(wifi/wifi_manager.cpp, core/usb_hotplug_manager.cpp).  Each receive may fill the
whole buffer, and the NUL is then written behind it.
-/
import MyDirectFB.WifiEventDelivery

namespace MyDirectFB

/-- A NUL that is written into a buffer. -/
structure NulWrite where
  index : Nat
  size : Nat
deriving Repr, DecidableEq

def NulWrite.InRange (nul : NulWrite) : Prop := nul.index < nul.size

instance (nul : NulWrite) : Decidable nul.InRange :=
  inferInstanceAs (Decidable (_ < _))

namespace ReceiveBuffer

/-- What a receive stores of a message in a buffer of that size. -/
def stored (size : Nat) (message : List UInt8) : List UInt8 := message.take size

/-- The NUL behind what is stored. -/
def terminate (size : Nat) (message : List UInt8) : NulWrite :=
  ⟨(stored size message).length, size⟩

/-- The NUL is in the buffer exactly if the message is shorter than that. -/
theorem terminate_inRange {size : Nat} {message : List UInt8} :
    (terminate size message).InRange ↔ message.length < size := by
  change (message.take size).length < size ↔ message.length < size
  rw [List.length_take]
  omega

/-- A message that fills the buffer. -/
theorem terminate_of_le {size : Nat} {message : List UInt8}
    (hfull : size ≤ message.length) : terminate size message = ⟨size, size⟩ := by
  rw [terminate, stored, List.length_take, Nat.min_eq_left hfull]

end ReceiveBuffer

open ReceiveBuffer

/-! ### WifiManager -/

namespace WifiManager

/-- `isSupplicantRunnig`, with the NUL that it writes.  `strtol` and `access` are
those of the C library; `file` is what there is to read, if it can be opened. -/
def isSupplicantRunnig (strtol : CString → Int) (access : Int → Bool)
    (file : Option (List UInt8)) : Bool × Option NulWrite :=
  match file with
  | none => (false, none)
  | some content =>
      (access (strtol (.ofMemory (stored 64 content ++ [0]))),
        some (terminate 64 content))

/-- The NUL that `onFdReadable` writes, where `wpa_ctrl_recv` gives a message. -/
def onFdReadableNul (message : Option (List UInt8)) : Option NulWrite :=
  message.map (terminate MONITOR_BUF_LEN)

/-- What `wpa_ctrl_request` returns, and the reply. -/
structure CtrlRequest where
  ret : Int
  reply : List UInt8
deriving Repr, DecidableEq

def BUF_LEN : Nat := 4096

/-- The buffer of a command before it is used. -/
structure CommandBuffer where
  bytes : List UInt8
  length_bytes : bytes.length = BUF_LEN

/-- The buffer with what is stored of a reply. -/
def CommandBuffer.fill (buf : CommandBuffer) (reply : List UInt8) : List UInt8 :=
  stored BUF_LEN reply ++ buf.bytes.drop (stored BUF_LEN reply).length

/-- `sendCommand(const char*, char*, size_t*)`, with the NUL that it writes. -/
def requestCommand (connected : Bool) (buf : CommandBuffer) (request : CtrlRequest)
    (cmd : CString) : Int × Option NulWrite :=
  if !connected then (-1, none)
  else if request.ret = -2 then (-2, none)
  else if request.ret < 0 ||
      strncmpEq (buf.fill request.reply) (ascii "FAIL") 4 then (-1, none)
  else if strncmpEq cmd.bytes (ascii "PING") 4 then
    (0, some (terminate BUF_LEN request.reply))
  else (0, none)

/-- `sendCommand(const std::string&)`, with the NULs that are written. -/
def sendCommand (connected : Bool) (buf : CommandBuffer) (request : CtrlRequest)
    (cmd : CString) : CString × List NulWrite :=
  let inner := requestCommand connected buf request cmd
  if inner.1 = 0 then
    (.ofMemory (stored BUF_LEN request.reply ++ [0]),
      inner.2.toList ++ [terminate BUF_LEN request.reply])
  else (.ofMemory (ascii "FAIL" ++ [0]), inner.2.toList)

end WifiManager

/-! ### USB_HotplugManager -/

namespace USB_HotplugManager

inductive USB_Hotplug_Event_e where
  | add
  | change
  | remove
  | unknown
deriving Repr, DecidableEq

/-- What `recvmsg` makes of a message: whether it fails, the length of the address,
and the flag of a message that was longer than the buffer. -/
structure Recvmsg where
  message : List UInt8
  failed : Bool
  msg_namelen : Nat
  truncated : Bool
  truncated_longer : truncated = true → 4096 < message.length

/-- `onFdReadable`: the result, what the listeners are told, and the NUL. -/
def onFdReadable (recv : Recvmsg) :
    (Bool × Option (USB_Hotplug_Event_e × List UInt8)) × Option NulWrite :=
  let ret := (stored 4096 recv.message).length
  if recv.failed then ((true, none), none)
  else if ret = 0 then ((false, none), none)
  else if recv.msg_namelen ≠ 12 then ((true, none), none)
  else if 4096 < ret || recv.truncated then ((true, none), none)
  else
    let nul := some (terminate 4096 recv.message)
    match strchr (CString.ofMemory (stored 4096 recv.message ++ [0])).bytes 64 with
    | none => ((true, none), nul)
    | some (action, devpath) =>
        let eEvent :=
          if action = ascii "add" then .add
          else if action = ascii "change" then .change
          else if action = ascii "remove" then .remove
          else .unknown
        ((true, some (eEvent, devpath)), nul)

/-- A message that goes through the checks. -/
def Recvmsg.Taken (recv : Recvmsg) : Prop :=
  recv.failed = false ∧ recv.message ≠ [] ∧ recv.msg_namelen = 12 ∧
    recv.truncated = false

end USB_HotplugManager

/-! ### Which messages are terminated in range -/

namespace WifiManager

/-- The terminator of this site is the one that `onFdReadable` writes: where it is
out of range, the function has no result. -/
theorem onFdReadable_eq_none_iff (message : List UInt8) :
    onFdReadable (some (stored MONITOR_BUF_LEN message)) = none ↔
      ¬ (terminate MONITOR_BUF_LEN message).InRange := by
  change _ ↔ ¬ (stored MONITOR_BUF_LEN message).length < MONITOR_BUF_LEN
  rw [onFdReadable]
  split
  · next hshort =>
      refine iff_of_false ?_ (not_not_intro hshort)
      dsimp only
      split <;> exact Option.some_ne_none _
  · next hfull => exact iff_of_true rfl hfull

/-- The supplicant answers, and not with `FAIL`. -/
def Answered (connected : Bool) (request : CtrlRequest) : Prop :=
  connected = true ∧ 0 ≤ request.ret ∧ ¬ ascii "FAIL" <+: request.reply

theorem fill_of_le (buf : CommandBuffer) {reply : List UInt8}
    (hfull : BUF_LEN ≤ reply.length) : buf.fill reply = reply.take BUF_LEN := by
  rw [CommandBuffer.fill, stored, List.length_take, Nat.min_eq_left hfull,
    ← buf.length_bytes, List.drop_length, List.append_nil]

/-- A reply that fills the buffer is compared with `FAIL` as it is. -/
theorem fill_begins (buf : CommandBuffer) {reply : List UInt8}
    (hfull : BUF_LEN ≤ reply.length) :
    strncmpEq (buf.fill reply) (ascii "FAIL") 4 = true ↔ ascii "FAIL" <+: reply := by
  have hcompare : strncmpEq (buf.fill reply) (ascii "FAIL") 4 = true ↔
      ascii "FAIL" <+: buf.fill reply :=
    strncmpEq_iff_begins (buf.fill reply) (ascii "FAIL")
  rw [hcompare, fill_of_le buf hfull, List.prefix_take_iff]
  exact and_iff_left (by decide)

section Command

variable {connected : Bool} {buf : CommandBuffer} {request : CtrlRequest}

/-- The request comes back with something that does not compare as `FAIL`. -/
def GoesThrough (connected : Bool) (buf : CommandBuffer) (request : CtrlRequest) :
    Prop :=
  connected = true ∧ 0 ≤ request.ret ∧
    strncmpEq (buf.fill request.reply) (ascii "FAIL") 4 = false

theorem requestCommand_of_goesThrough (cmd : CString)
    (hgoes : GoesThrough connected buf request) :
    (requestCommand connected buf request cmd).1 = 0 ∧
      ∀ nul ∈ (requestCommand connected buf request cmd).2,
        nul = terminate BUF_LEN request.reply := by
  obtain ⟨rfl, hret, hfail⟩ := hgoes
  have htimeout : request.ret ≠ -2 := by omega
  have herror : ¬ request.ret < 0 := by omega
  simp only [requestCommand, Bool.not_true, Bool.false_eq_true, ↓reduceIte, htimeout,
    herror, decide_false, hfail, Bool.or_self]
  split
  · exact ⟨rfl, fun nul hnul => (Option.some.inj hnul).symm⟩
  · exact ⟨rfl, fun nul hnul => nomatch hnul⟩

theorem requestCommand_of_not_goesThrough (cmd : CString)
    (hfails : ¬ GoesThrough connected buf request) :
    (requestCommand connected buf request cmd).1 ≠ 0 ∧
      (requestCommand connected buf request cmd).2 = none := by
  unfold requestCommand
  split
  · exact ⟨by decide, rfl⟩
  · next hconnected =>
      split
      · exact ⟨by decide, rfl⟩
      · split
        · exact ⟨by decide, rfl⟩
        · next hgoes =>
            simp only [Bool.not_eq_true, Bool.not_eq_false', Bool.or_eq_false_iff,
              decide_eq_false_iff_not, Int.not_lt] at hconnected hgoes
            exact absurd ⟨hconnected, hgoes⟩ hfails

theorem goesThrough_iff_answered (buf : CommandBuffer)
    (hfull : BUF_LEN ≤ request.reply.length) :
    GoesThrough connected buf request ↔ Answered connected request := by
  rw [GoesThrough, Answered, ← fill_begins buf hfull, Bool.not_eq_true]

/-- The NULs of a command are in range exactly if the reply to it is shorter than
the buffer. -/
theorem sendCommand_inRange_iff (cmd : CString) :
    (∀ nul ∈ (sendCommand connected buf request cmd).2, nul.InRange) ↔
      (Answered connected request → request.reply.length < BUF_LEN) := by
  rw [sendCommand]
  by_cases hgoes : GoesThrough connected buf request
  · obtain ⟨hzero, hinner⟩ := requestCommand_of_goesThrough cmd hgoes
    simp only [hzero, ↓reduceIte]
    constructor
    · intro hall _
      exact terminate_inRange.mp (hall _ (List.mem_append_right _ List.mem_cons_self))
    · intro hanswered nul hnul
      have hterminate : nul = terminate BUF_LEN request.reply := by
        rcases List.mem_append.mp hnul with hnul | hnul
        · exact hinner nul (Option.mem_toList.mp hnul)
        · exact List.mem_singleton.mp hnul
      rw [hterminate, terminate_inRange]
      by_contra hfull
      have hle := Nat.le_of_not_lt hfull
      exact hfull (hanswered ((goesThrough_iff_answered buf hle).mp hgoes))
  · obtain ⟨hne, hnone⟩ := requestCommand_of_not_goesThrough cmd hgoes
    simp only [hne, ↓reduceIte, hnone]
    refine iff_of_true (fun nul hnul => nomatch hnul) fun hanswered => ?_
    by_contra hfull
    exact hgoes ((goesThrough_iff_answered buf (Nat.le_of_not_lt hfull)).mpr hanswered)

end Command

theorem onFdReadableNul_inRange_iff (message : Option (List UInt8)) :
    (∀ nul ∈ onFdReadableNul message, nul.InRange) ↔
      ∀ m, message = some m → m.length < 256 := by
  cases message with
  | none => exact iff_of_true (fun _ h => nomatch h) fun _ h => nomatch h
  | some m => simp [onFdReadableNul, terminate_inRange, MONITOR_BUF_LEN]

theorem isSupplicantRunnig_inRange_iff (strtol : CString → Int) (access : Int → Bool)
    (file : Option (List UInt8)) :
    (∀ nul ∈ (isSupplicantRunnig strtol access file).2, nul.InRange) ↔
      ∀ content, file = some content → content.length < 64 := by
  cases file with
  | none => exact iff_of_true (fun _ h => nomatch h) fun _ h => nomatch h
  | some content => simp [isSupplicantRunnig, terminate_inRange]

end WifiManager

namespace USB_HotplugManager

theorem length_stored_ne_zero {message : List UInt8} (hne : message ≠ []) :
    (stored 4096 message).length ≠ 0 := by
  have hpos := List.length_pos_iff.mpr hne
  rw [stored, List.length_take]
  omega

/-- The NUL is written exactly where the message goes through the checks. -/
theorem onFdReadable_nul (recv : Recvmsg) :
    (recv.Taken ∧ (onFdReadable recv).2 = some (terminate 4096 recv.message)) ∨
      (¬ recv.Taken ∧ (onFdReadable recv).2 = none) := by
  have hroom : ¬ 4096 < (stored 4096 recv.message).length :=
    Nat.not_lt.mpr (List.length_take_le _ _)
  by_cases htaken : recv.Taken
  · refine .inl ⟨htaken, ?_⟩
    obtain ⟨hfailed, hne, hname, htrunc⟩ := htaken
    simp only [onFdReadable, hfailed, length_stored_ne_zero hne, hname, hroom, htrunc,
      Bool.false_eq_true, ↓reduceIte, ne_eq, not_true, decide_false, Bool.or_self]
    split <;> rfl
  · refine .inr ⟨htaken, ?_⟩
    unfold onFdReadable
    dsimp only
    split
    · rfl
    · next hfailed =>
        split
        · rfl
        · next hne =>
            split
            · rfl
            · next hname =>
                split
                · rfl
                · next hrest =>
                    refine absurd ⟨by simpa using hfailed, fun hnil => hne ?_,
                      not_not.mp hname, by simpa [hroom] using hrest⟩ htaken
                    rw [hnil]
                    rfl

theorem onFdReadable_inRange_iff (recv : Recvmsg) :
    (∀ nul ∈ (onFdReadable recv).2, nul.InRange) ↔
      (recv.Taken → recv.message.length < 4096) := by
  rcases onFdReadable_nul recv with ⟨htaken, hnul⟩ | ⟨htaken, hnul⟩
  · simp [hnul, htaken, terminate_inRange]
  · simp [hnul, htaken]

end USB_HotplugManager

/-- The four receives, each with what it is given. -/
inductive Receive where
  | event (message : Option (List UInt8))
  | command (connected : Bool) (buf : WifiManager.CommandBuffer)
      (request : WifiManager.CtrlRequest) (cmd : CString)
  | pidFile (strtol : CString → Int) (access : Int → Bool) (file : Option (List UInt8))
  | uevent (recv : USB_HotplugManager.Recvmsg)

namespace Receive

/-- The NULs that are written. -/
def nuls : Receive → List NulWrite
  | .event message => (WifiManager.onFdReadableNul message).toList
  | .command connected buf request cmd =>
      (WifiManager.sendCommand connected buf request cmd).2
  | .pidFile strtol access file =>
      (WifiManager.isSupplicantRunnig strtol access file).2.toList
  | .uevent recv => (USB_HotplugManager.onFdReadable recv).2.toList

/-- What is received and terminated is shorter than the buffer. -/
def Short : Receive → Prop
  | .event message => ∀ m, message = some m → m.length < 256
  | .command connected _ request _ =>
      WifiManager.Answered connected request → request.reply.length < 4096
  | .pidFile _ _ file => ∀ content, file = some content → content.length < 64
  | .uevent recv => recv.Taken → recv.message.length < 4096

end Receive

/-- The NUL behind what was received is in the buffer exactly if what came was
shorter than the buffer, for each of the four that receive. -/
theorem nul_inRange_iff (receive : Receive) :
    (∀ nul ∈ receive.nuls, nul.InRange) ↔ receive.Short := by
  cases receive with
  | event message =>
      simp only [Receive.nuls, Option.mem_toList]
      exact WifiManager.onFdReadableNul_inRange_iff message
  | command connected buf request cmd => exact WifiManager.sendCommand_inRange_iff cmd
  | pidFile strtol access file =>
      simp only [Receive.nuls, Option.mem_toList]
      exact WifiManager.isSupplicantRunnig_inRange_iff strtol access file
  | uevent recv =>
      simp only [Receive.nuls, Option.mem_toList]
      exact USB_HotplugManager.onFdReadable_inRange_iff recv

/-- An event of the supplicant that is as long as the buffer is terminated behind
it. -/
theorem longEvent_not_inRange :
    ¬ ∀ nul ∈ (Receive.event (some (List.replicate 256 65))).nuls, nul.InRange := by
  have hfull : MONITOR_BUF_LEN ≤ (List.replicate 256 (65 : UInt8)).length := by
    rw [List.length_replicate]
    exact Nat.le_refl 256
  intro hall
  have hinRange := hall (terminate MONITOR_BUF_LEN (List.replicate 256 65))
    List.mem_cons_self
  rw [terminate_of_le hfull] at hinRange
  exact absurd hinRange (by decide)

end MyDirectFB

/-
Sessions with wpa_supplicant (wifi/wifi_manager.cpp): any sequence of calls of
`WifiManager`, with any outcomes of the attempts to connect and any replies.  `enable`
puts the manager into the list of the event loop again and again, `disable` takes it
out once, and closes no connection.
-/
import MyDirectFB.Lib.Since
import MyDirectFB.ReceiveBuffer
import MyDirectFB.WifiLinks
import MyDirectFB.WifiP2pDevice

namespace MyDirectFB

universe u

/-! ### Commands -/

namespace WifiCommand

/-- A text for `P2P_IFACE_NAME`. -/
def onP2pIface (text : List UInt8) : List UInt8 :=
  ascii "IFNAME=p2p-dev-wlan0" ++ text

/-- The time of a search, which is left out if there is none. -/
def timeoutArg (timeout : Int) : List UInt8 :=
  if timeout > 0 then Numeral.printDecimal timeout.toNat else []

def p2pFind (timeout : Int) : List UInt8 :=
  onP2pIface (ascii " P2P_FIND ") ++ timeoutArg timeout

def p2pStopFind : List UInt8 :=
  onP2pIface (ascii " P2P_STOP_FIND")

def p2pListen (timeout : Int) : List UInt8 :=
  onP2pIface (ascii " P2P_LISTEN ") ++ timeoutArg timeout

def p2pStopListen : List UInt8 :=
  onP2pIface (ascii " P2P_EXT_LISTEN ")

def p2pConnect (devAddr : List UInt8) : List UInt8 :=
  onP2pIface (ascii " P2P_CONNECT ") ++ devAddr ++
    ascii " pbc persistent go_intent=0"

def p2pRemoveGroup : List UInt8 :=
  onP2pIface (ascii " P2P_GROUP_REMOVE")

def p2pFlush : List UInt8 :=
  onP2pIface (ascii " P2P_FLUSH")

/-- The commands of `init`. -/
def init : List (List UInt8) :=
  [ascii "SET country KR",
    onP2pIface (ascii " SET device_type 7-0050F204-1"),
    onP2pIface (ascii " P2P_SET conc_pref sta"),
    onP2pIface (ascii " SET device_name PRAZEN-123"),
    onP2pIface (ascii " SET config_methods virtual_push_button"),
    onP2pIface (ascii " SET persistent_reconnect 1"),
    onP2pIface (ascii " P2P_SET ssid_postfix PRAZEN-123"),
    onP2pIface (ascii " SAVE_CONFIG")]

/-- A text as it is handed over: it ends at its first NUL. -/
def cStr (text : List UInt8) : CString :=
  .ofMemory (text ++ [0])

end WifiCommand

open WifiCommand (cStr)

/-- The calls of the methods. -/
inductive WifiCall where
  | enable (outcomes : Nat → AttemptOutcome)
  | disable
  | p2pFind (timeout : Int)
  | p2pStopFind
  | p2pListen (timeout : Int)
  | p2pExtListen (period interval : Int)
  | p2pStopListen
  | p2pConnect (devAddr : List UInt8)
  | setWfdInfo (enable : Bool) (deviceType controlPort maxThroughput : Int)
  | p2pRemoveGroup
  | p2pFlush

/-! ### The methods -/

/-- The client library: the connections it hands out, what comes of the last of the
requests so far, and what is in the buffer before it. -/
structure WpaCtrl (H : Type u) where
  allocator : HandleAllocator H
  request : List (H × CString) → WifiManager.CtrlRequest
  buf : List (H × CString) → WifiManager.CommandBuffer

/-- `WifiManager`: its connections, how often it is in the list of watchers of the event
loop, and the requests it has made. -/
structure WifiSession (H : Type u) where
  connections : WifiConnections H
  watched : Nat
  requests : List (H × CString)

namespace WifiSession

variable {H : Type u} [DecidableEq H] (wpa : WpaCtrl H)

/-- Before any call; other descriptors may be open. -/
def start (opened : List H) : WifiSession H :=
  ⟨.start opened, 0, []⟩

/-- `addFdWatcher(this)`: a watcher that is in the list already is only reported. -/
def addFdWatcher (s : WifiSession H) : WifiSession H :=
  { s with watched := s.watched + 1 }

/-- `removeFdWatcher(this)` takes out one entry, if there is any. -/
def removeFdWatcher (s : WifiSession H) : WifiSession H :=
  { s with watched := s.watched - 1 }

/-- `sendCommand`. -/
def sendCommand (cmd : List UInt8) (s : WifiSession H) : CString × WifiSession H :=
  let requests := s.requests ++
    s.connections.mCtrlConn.toList.map fun ctrl => (ctrl, cStr cmd)
  ((WifiManager.sendCommand s.connections.mCtrlConn.isSome (wpa.buf requests)
      (wpa.request requests) (cStr cmd)).1,
    { s with requests })

/-- Commands whose replies nobody looks at. -/
def sendAll (cmds : List (List UInt8)) (s : WifiSession H) : WifiSession H :=
  cmds.foldl (fun s cmd => (sendCommand wpa cmd s).2) s

/-- A command that the supplicant has to answer with `OK`. -/
def request (cmd : List UInt8) (s : WifiSession H) : Int × WifiSession H :=
  let reply := sendCommand wpa cmd s
  (if reply.1.bytes = ascii "OK\n" then 0 else -1, reply.2)

def enable (outcomes : Nat → AttemptOutcome) (s : WifiSession H) :
    Int × WifiSession H :=
  let result :=
    WifiConnections.connectToSupplicant wpa.allocator outcomes 10 s.connections
  let s := { s with connections := result.2 }
  if result.1 ≠ 0 then (-1, s)
  else (0, sendAll wpa WifiCommand.init s.addFdWatcher)

/-- `disable`; `disconnectToSupplicant` is empty. -/
def disable (s : WifiSession H) : WifiSession H :=
  s.removeFdWatcher

def p2pFind (timeout : Int) : WifiSession H → Int × WifiSession H :=
  request wpa (WifiCommand.p2pFind timeout)

def p2pStopFind : WifiSession H → Int × WifiSession H :=
  request wpa WifiCommand.p2pStopFind

def p2pListen (timeout : Int) : WifiSession H → Int × WifiSession H :=
  request wpa (WifiCommand.p2pListen timeout)

/-- `p2pExtListen` does nothing. -/
def p2pExtListen (s : WifiSession H) : Int × WifiSession H :=
  (0, s)

def p2pStopListen : WifiSession H → Int × WifiSession H :=
  request wpa WifiCommand.p2pStopListen

def p2pConnect (devAddr : List UInt8) : WifiSession H → Int × WifiSession H :=
  request wpa (WifiCommand.p2pConnect devAddr)

/-- `setWfdInfo` looks at the reply to the second of its commands. -/
def setWfdInfo (enable : Bool) (deviceType controlPort maxThroughput : Int)
    (s : WifiSession H) : Int × WifiSession H :=
  let replyTo cmds :=
    (sendCommand wpa (cmds.getLastD []) (sendAll wpa cmds.dropLast s)).1.bytes
  let result :=
    WifiManager.setWfdInfo replyTo enable deviceType controlPort maxThroughput
  (result.1, sendAll wpa result.2 s)

def p2pRemoveGroup : WifiSession H → Int × WifiSession H :=
  request wpa WifiCommand.p2pRemoveGroup

def p2pFlush : WifiSession H → Int × WifiSession H :=
  request wpa WifiCommand.p2pFlush

/-- `getFD`; there may be no descriptor (-1). -/
def getFD (s : WifiSession H) : Option H :=
  s.connections.mMonitorConn

/-- A call, with its result (0 for `disable`, which has none). -/
def perform (s : WifiSession H) : WifiCall → Int × WifiSession H
  | .enable outcomes => enable wpa outcomes s
  | .disable => (0, disable s)
  | .p2pFind timeout => p2pFind wpa timeout s
  | .p2pStopFind => p2pStopFind wpa s
  | .p2pListen timeout => p2pListen wpa timeout s
  | .p2pExtListen _ _ => p2pExtListen s
  | .p2pStopListen => p2pStopListen wpa s
  | .p2pConnect devAddr => p2pConnect wpa devAddr s
  | .setWfdInfo wfd deviceType controlPort maxThroughput =>
      setWfdInfo wpa wfd deviceType controlPort maxThroughput s
  | .p2pRemoveGroup => p2pRemoveGroup wpa s
  | .p2pFlush => p2pFlush wpa s

def run (s : WifiSession H) (calls : List WifiCall) : WifiSession H :=
  calls.foldl (fun s call => (s.perform wpa call).2) s

end WifiSession

/-! ### What the supplicant sees -/

/-- The commands that a call stands for, word by word. -/
def WifiCall.commands : WifiCall → List (List UInt8)
  | .enable _ =>
      [ascii "SET country KR",
        ascii "IFNAME=p2p-dev-wlan0 SET device_type 7-0050F204-1",
        ascii "IFNAME=p2p-dev-wlan0 P2P_SET conc_pref sta",
        ascii "IFNAME=p2p-dev-wlan0 SET device_name PRAZEN-123",
        ascii "IFNAME=p2p-dev-wlan0 SET config_methods virtual_push_button",
        ascii "IFNAME=p2p-dev-wlan0 SET persistent_reconnect 1",
        ascii "IFNAME=p2p-dev-wlan0 P2P_SET ssid_postfix PRAZEN-123",
        ascii "IFNAME=p2p-dev-wlan0 SAVE_CONFIG"]
  | .disable | .p2pExtListen _ _ => []
  | .p2pFind timeout =>
      [ascii "IFNAME=p2p-dev-wlan0 P2P_FIND " ++
        if 0 < timeout then Numeral.printDecimal timeout.toNat else []]
  | .p2pStopFind => [ascii "IFNAME=p2p-dev-wlan0 P2P_STOP_FIND"]
  | .p2pListen timeout =>
      [ascii "IFNAME=p2p-dev-wlan0 P2P_LISTEN " ++
        if 0 < timeout then Numeral.printDecimal timeout.toNat else []]
  | .p2pStopListen => [ascii "IFNAME=p2p-dev-wlan0 P2P_EXT_LISTEN "]
  | .p2pConnect devAddr =>
      [ascii "IFNAME=p2p-dev-wlan0 P2P_CONNECT " ++ devAddr ++
        ascii " pbc persistent go_intent=0"]
  | .setWfdInfo false _ _ _ =>
      [ascii "SET wifi_display 0", ascii "WFD_SUBELEM_SET 0 0"]
  | .setWfdInfo true deviceType controlPort maxThroughput =>
      -- negative numbers are written as unsigned ones
      [ascii "SET wifi_display 1",
        ascii "WFD_SUBELEM_SET 0 0006" ++
          (Numeral.printHex 4 (deviceType % 2 ^ 32).toNat ++
            Numeral.printHex 4 (controlPort % 2 ^ 32).toNat ++
            Numeral.printHex 4 (maxThroughput % 2 ^ 32).toNat)]
  | .p2pRemoveGroup => [ascii "IFNAME=p2p-dev-wlan0 P2P_GROUP_REMOVE"]
  | .p2pFlush => [ascii "IFNAME=p2p-dev-wlan0 P2P_FLUSH"]

/-- The methods send the commands of their calls. -/
theorem WifiCall.commands_enable (outcomes : Nat → AttemptOutcome) :
    (WifiCall.enable outcomes).commands = WifiCommand.init := rfl

theorem WifiCall.commands_setWfdInfo (sendCommand : List (List UInt8) → List UInt8)
    (wfd : Bool) (deviceType controlPort maxThroughput : Int) :
    (WifiCall.setWfdInfo wfd deviceType controlPort maxThroughput).commands =
      (WifiManager.setWfdInfo sendCommand wfd deviceType controlPort
        maxThroughput).2 := by
  cases wfd <;> rfl

/-- The connections, how often the event loop watches for events, and the commands that
have arrived. -/
structure SupplicantSession where
  links : SupplicantLinks
  watched : Nat
  sent : List CString
deriving Repr, DecidableEq

namespace SupplicantSession

def init : SupplicantSession :=
  ⟨⟨false, false, 0⟩, 0, []⟩

/-- Commands arrive as long as there is a connection for them. -/
def send (a : SupplicantSession) (cmds : List (List UInt8)) : SupplicantSession :=
  { a with sent := a.sent ++ if a.links.commands then cmds.map cStr else [] }

/-- What a call changes: `enable` makes ten attempts at most. -/
def after (a : SupplicantSession) : WifiCall → SupplicantSession
  | .enable outcomes =>
      let attempted := a.links.attempted ((List.range 10).map outcomes)
      if attempted.1 = 0 then
        SupplicantSession.send ⟨attempted.2, a.watched + 1, a.sent⟩
          (WifiCall.enable outcomes).commands
      else { a with links := attempted.2 }
  | .disable => { a with watched := a.watched - 1 }
  | call => a.send call.commands

def run (a : SupplicantSession) (calls : List WifiCall) : SupplicantSession :=
  calls.foldl after a

theorem send_nil (a : SupplicantSession) : a.send [] = a := by
  simp [send]

theorem send_cons (a : SupplicantSession) (cmd : List UInt8)
    (cmds : List (List UInt8)) : a.send (cmd :: cmds) = (a.send [cmd]).send cmds := by
  cases hcommands : a.links.commands <;> simp [send, hcommands]

end SupplicantSession

/-! ### Refinement -/

namespace WifiSession

variable {H : Type u} [DecidableEq H] {wpa : WpaCtrl H} {base : Nat}
  {s : WifiSession H} {a : SupplicantSession}

/-- The manager is in a session of the supplicant, and all that it has sent went over
connections that are open. -/
structure Refines (base : Nat) (s : WifiSession H) (a : SupplicantSession) :
    Prop where
  links : s.connections.Links base a.links
  watched : s.watched = a.watched
  sent : s.requests.map Prod.snd = a.sent
  live : ∀ request ∈ s.requests, s.connections.ledger.Live request.1

omit [DecidableEq H] in
theorem sendCommand_refines (cmd : List UInt8) (href : Refines base s a) :
    Refines base (sendCommand wpa cmd s).2 (a.send [cmd]) := by
  have hcommands := href.links.commands
  refine ⟨href.links, href.watched, ?_, fun request hrequest => ?_⟩
  · rw [sendCommand, SupplicantSession.send, List.map_append, href.sent, ← hcommands]
    cases s.connections.mCtrlConn with
    | none => rfl
    | some ctrl => rfl
  · rcases List.mem_append.mp hrequest with hbefore | hnew
    · exact href.live request hbefore
    · obtain ⟨ctrl, hctrl, rfl⟩ := List.mem_map.mp hnew
      exact href.links.live ctrl (.inl (Option.mem_toList.mp hctrl))

omit [DecidableEq H] in
theorem sendAll_refines (cmds : List (List UInt8)) (href : Refines base s a) :
    Refines base (sendAll wpa cmds s) (a.send cmds) := by
  induction cmds generalizing s a with
  | nil => exact (SupplicantSession.send_nil a).symm ▸ href
  | cons cmd cmds ih =>
      rw [SupplicantSession.send_cons]
      exact ih (sendCommand_refines cmd href)

theorem enable_refines (outcomes : Nat → AttemptOutcome) (href : Refines base s a) :
    Refines base (enable wpa outcomes s).2 (a.after (.enable outcomes)) := by
  obtain ⟨hresult, hlinks, hkept⟩ :=
    WifiConnections.connectToSupplicant_links wpa.allocator outcomes 10 href.links
  have hlive := fun request hrequest => hkept _ (href.live request hrequest)
  rw [show Int.toNat 10 = 10 from rfl] at hresult hlinks
  simp only [enable, SupplicantSession.after]
  by_cases hzero : (a.links.attempted ((List.range 10).map outcomes)).1 = 0
  · rw [if_neg (not_not_intro (hresult.trans hzero)), if_pos hzero]
    rw [WifiCall.commands_enable]
    exact sendAll_refines _
      ⟨hlinks, congrArg (· + 1) href.watched, href.sent, hlive⟩
  · rw [if_pos fun h => hzero (hresult.symm.trans h), if_neg hzero]
    exact ⟨hlinks, href.watched, href.sent, hlive⟩

theorem perform_refines (wpa : WpaCtrl H) (call : WifiCall) (href : Refines base s a) :
    Refines base (s.perform wpa call).2 (a.after call) := by
  have hrequest (cmd : List UInt8) :
      Refines base (request wpa cmd s).2 (a.send [cmd]) :=
    @sendCommand_refines H wpa base s a cmd href
  cases call with
  | enable outcomes => exact enable_refines outcomes href
  | disable =>
      exact ⟨href.links, congrArg (· - 1) href.watched, href.sent, href.live⟩
  | p2pExtListen period interval =>
      have hsame : a.after (.p2pExtListen period interval) = a := a.send_nil
      rw [hsame]
      exact href
  | setWfdInfo wfd deviceType controlPort maxThroughput =>
      change Refines base (setWfdInfo wpa wfd deviceType controlPort maxThroughput s).2
        (a.send _)
      rw [WifiCall.commands_setWfdInfo fun _ => []]
      exact sendAll_refines _ href
  | p2pFind timeout => exact hrequest _
  | p2pStopFind => exact hrequest _
  | p2pListen timeout => exact hrequest _
  | p2pStopListen => exact hrequest _
  | p2pConnect devAddr => exact hrequest _
  | p2pRemoveGroup => exact hrequest _
  | p2pFlush => exact hrequest _

theorem run_refines (wpa : WpaCtrl H) (calls : List WifiCall)
    (href : Refines base s a) :
    Refines base (s.run wpa calls) (a.run calls) := by
  induction calls generalizing s a with
  | nil => exact href
  | cons call rest ih => exact ih (perform_refines wpa call href)

omit [DecidableEq H] in
theorem start_refines (opened : List H) :
    Refines opened.length (start opened) .init where
  links := ⟨rfl, rfl, rfl, fun h hsome => by rcases hsome with h | h <;> cases h⟩
  watched := rfl
  sent := rfl
  live := fun request hrequest => absurd hrequest List.not_mem_nil

end WifiSession

/-! ### What has happened since -/

namespace WifiCall

/-- `enable` succeeds. -/
def Connects : WifiCall → Prop
  | .enable outcomes => ∃ ii < 10, (outcomes ii).Succeeds
  | _ => False

/-- `enable` leaves a connection for commands: it succeeds, or its last attempt opens
this one only. -/
def LeavesCommands : WifiCall → Prop
  | .enable outcomes => (∃ ii < 10, (outcomes ii).Succeeds) ∨ (outcomes 9).HalfOpen
  | _ => False

instance (call : WifiCall) : Decidable call.Connects :=
  match call with
  | .enable outcomes =>
      inferInstanceAs (Decidable (∃ ii < 10, (outcomes ii).Succeeds))
  | .disable | .p2pFind _ | .p2pStopFind | .p2pListen _ | .p2pExtListen _ _
  | .p2pStopListen | .p2pConnect _ | .setWfdInfo _ _ _ _ | .p2pRemoveGroup
  | .p2pFlush => inferInstanceAs (Decidable False)

def IsEnable (call : WifiCall) : Prop := ∃ outcomes, call = .enable outcomes

def isDisable : WifiCall → Bool
  | .disable => true
  | _ => false

/-- No connection for commands is opened. -/
def OpensNone : WifiCall → Prop
  | .enable outcomes => ∀ ii < 10, (outcomes ii).ctrlOpens = false
  | _ => True

/-- The connections that a call leaves open. -/
def leftOpen : WifiCall → Nat
  | .enable outcomes =>
      let attempts := (List.range 10).map outcomes
      (SupplicantLinks.attemptsMade attempts).countP (·.HalfOpen) +
        if attempts.any (·.Succeeds) then 2 else 0
  | _ => 0

variable {call : WifiCall}

theorem Connects.leavesCommands (hconnects : call.Connects) : call.LeavesCommands := by
  cases call with
  | enable outcomes => exact .inl hconnects
  | _ => exact hconnects.elim

theorem LeavesCommands.isEnable (hleaves : call.LeavesCommands) : call.IsEnable := by
  cases call with
  | enable outcomes => exact ⟨outcomes, rfl⟩
  | _ => exact hleaves.elim

theorem Connects.isEnable (hconnects : call.Connects) : call.IsEnable :=
  hconnects.leavesCommands.isEnable

theorem opensNone_of_other (hother : ¬ call.IsEnable) : call.OpensNone := by
  cases call with
  | enable outcomes => exact absurd ⟨outcomes, rfl⟩ hother
  | _ => trivial

theorem leftOpen_of_other (hother : ¬ call.IsEnable) : call.leftOpen = 0 := by
  cases call with
  | enable outcomes => exact absurd ⟨outcomes, rfl⟩ hother
  | _ => rfl

end WifiCall

namespace SupplicantSession

variable (a : SupplicantSession) (call : WifiCall)

/-- What `enable` makes of the connections. -/
theorem attempted_ten (links : SupplicantLinks) (outcomes : Nat → AttemptOutcome) :
    let attempted := links.attempted ((List.range 10).map outcomes)
    let call := WifiCall.enable outcomes
    attempted.2.opened = links.opened + call.leftOpen ∧
      (call.Connects ∧ attempted.1 = 0 ∧ attempted.2.commands = true ∧
          attempted.2.events = true ∨
        ¬ call.Connects ∧ attempted.1 = -1 ∧
          attempted.2.commands = decide (outcomes 9).HalfOpen ∧
          (attempted.2.events = true ↔ call.OpensNone ∧ links.events = true)) := by
  have hany : ((List.range 10).map outcomes).any (·.Succeeds) = true ↔
      (WifiCall.enable outcomes).Connects := by
    simp [WifiCall.Connects]
  by_cases hconnects : (WifiCall.enable outcomes).Connects
  · have htrue := hany.mpr hconnects
    simp only [SupplicantLinks.attempted, SupplicantLinks.connected, WifiCall.leftOpen,
      htrue, ↓reduceIte]
    exact ⟨Nat.add_assoc _ _ _, .inl ⟨hconnects, trivial, trivial, trivial⟩⟩
  · have hfalse := Bool.eq_false_of_not_eq_true fun h => hconnects (hany.mp h)
    simp only [SupplicantLinks.attempted, SupplicantLinks.failed, WifiCall.leftOpen,
      hfalse, Bool.false_eq_true, ↓reduceIte,
      SupplicantLinks.attemptsMade_eq_self hfalse]
    refine ⟨rfl, .inr ⟨hconnects, trivial, rfl, ?_⟩⟩
    simp [WifiCall.OpensNone, and_comm]

theorem after_enable (outcomes : Nat → AttemptOutcome) :
    (a.after (.enable outcomes)).links =
        (a.links.attempted ((List.range 10).map outcomes)).2 ∧
      (a.after (.enable outcomes)).watched = a.watched +
        if (a.links.attempted ((List.range 10).map outcomes)).1 = 0 then 1 else 0 := by
  rw [after]
  split <;> exact ⟨rfl, rfl⟩

/-- What the other calls change. -/
theorem after_other (hother : ¬ call.IsEnable) :
    (a.after call).links = a.links ∧
      (a.after call).watched = a.watched - call.isDisable.toNat := by
  cases call with
  | enable outcomes => exact absurd ⟨outcomes, rfl⟩ hother
  | _ => exact ⟨rfl, rfl⟩

/-- A call succeeds as `enable`, fails as `enable`, or is another one. -/
theorem after_cases :
    (call.Connects ∧ (a.after call).watched = a.watched + 1 ∧
        (a.after call).links.commands = true ∧ (a.after call).links.events = true) ∨
      (call.IsEnable ∧ ¬ call.Connects ∧ (a.after call).watched = a.watched ∧
        ((a.after call).links.commands = true ↔ call.LeavesCommands) ∧
        ((a.after call).links.events = true ↔
          call.OpensNone ∧ a.links.events = true)) ∨
      (¬ call.IsEnable ∧ (a.after call).links = a.links ∧
        (a.after call).watched = a.watched - call.isDisable.toNat) := by
  by_cases henable : call.IsEnable
  · obtain ⟨outcomes, rfl⟩ := henable
    obtain ⟨hlinks, hwatched⟩ := after_enable a outcomes
    rw [hlinks, hwatched]
    rcases (attempted_ten a.links outcomes).2 with
      ⟨hyes, hzero, hcommands, hevents⟩ | ⟨hno, hne, hcommands, hevents⟩
    · exact .inl ⟨hyes, by rw [if_pos hzero], hcommands, hevents⟩
    · refine .inr (.inl ⟨⟨outcomes, rfl⟩, hno, ?_, ?_, hevents⟩)
      · rw [hne, if_neg (by decide), Nat.add_zero]
      · rw [hcommands, decide_eq_true_iff]
        exact (or_iff_right hno).symm
  · exact .inr (.inr ⟨henable, after_other a call henable⟩)

theorem after_watched :
    (a.after call).watched =
      a.watched + (decide call.Connects).toNat - call.isDisable.toNat := by
  rcases after_cases a call with
    ⟨hyes, hwatched, -⟩ | ⟨⟨outcomes, rfl⟩, hno, hwatched, -⟩ | ⟨hother, -, hwatched⟩
  · obtain ⟨outcomes, rfl⟩ := hyes.isEnable
    rw [hwatched, decide_eq_true hyes]
    rfl
  · rw [hwatched, decide_eq_false hno]
    rfl
  · rw [hwatched, decide_eq_false fun hyes => hother hyes.isEnable, Bool.toNat_false,
      Nat.add_zero]

theorem after_commands :
    (a.after call).links.commands = true ↔
      call.LeavesCommands ∨ ¬ call.IsEnable ∧ a.links.commands = true := by
  rcases after_cases a call with
    ⟨hyes, -, hcommands, -⟩ | ⟨henable, -, -, hcommands, -⟩ | ⟨hother, hlinks, -⟩
  · exact iff_of_true hcommands (.inl hyes.leavesCommands)
  · exact hcommands.trans (or_iff_left fun hkept => hkept.1 henable).symm
  · rw [hlinks, or_iff_right fun hleaves => hother hleaves.isEnable,
      and_iff_right hother]

theorem after_events :
    (a.after call).links.events = true ↔
      call.Connects ∨ call.OpensNone ∧ a.links.events = true := by
  rcases after_cases a call with
    ⟨hyes, -, -, hevents⟩ | ⟨-, hno, -, -, hevents⟩ | ⟨hother, hlinks, -⟩
  · exact iff_of_true hevents (.inl hyes)
  · exact hevents.trans (or_iff_right hno).symm
  · rw [hlinks, or_iff_right fun hyes => hother hyes.isEnable,
      and_iff_right (WifiCall.opensNone_of_other hother)]

theorem after_opened :
    (a.after call).links.opened = a.links.opened + call.leftOpen := by
  by_cases henable : call.IsEnable
  · obtain ⟨outcomes, rfl⟩ := henable
    rw [(after_enable a outcomes).1]
    exact (attempted_ten a.links outcomes).1
  · rw [(after_other a call henable).1, WifiCall.leftOpen_of_other henable]
    rfl

theorem run_opened (calls : List WifiCall) :
    (a.run calls).links.opened =
      calls.foldl (fun count call => count + call.leftOpen) a.links.opened := by
  induction calls generalizing a with
  | nil => rfl
  | cons call rest ih =>
      rw [List.foldl_cons, ← after_opened]
      exact ih (a.after call)

theorem sent_other (hother : ¬ call.IsEnable) :
    (a.after call).sent = (a.send call.commands).sent := by
  cases call with
  | enable outcomes => exact absurd ⟨outcomes, rfl⟩ hother
  | disable => simp [after, send, WifiCall.commands]
  | _ => rfl

/-- The commands of a call that arrive. -/
theorem after_sent :
    ∃ sent, (a.after call).sent = a.sent ++ sent ∧
      (call.Connects ∨ ¬ call.IsEnable ∧ a.links.commands = true →
        sent = call.commands.map cStr) ∧
      (¬ (call.Connects ∨ ¬ call.IsEnable ∧ a.links.commands = true) → sent = []) := by
  by_cases henable : call.IsEnable
  · obtain ⟨outcomes, rfl⟩ := henable
    rw [after]
    rcases (attempted_ten a.links outcomes).2 with
      ⟨hyes, hzero, hcommands, -⟩ | ⟨hno, hne, -⟩
    · rw [if_pos hzero, send, hcommands]
      exact ⟨_, rfl, fun _ => rfl, fun hnot => absurd (.inl hyes) hnot⟩
    · rw [hne]
      refine ⟨[], (List.append_nil _).symm, ?_, fun _ => rfl⟩
      rintro (hyes | ⟨hother, -⟩)
      · exact absurd hyes hno
      · exact absurd ⟨outcomes, rfl⟩ hother
  · refine ⟨_, sent_other a call henable, ?_, fun hnot => ?_⟩
    · rintro (hyes | ⟨-, hcommands⟩)
      · exact absurd hyes.isEnable henable
      · exact if_pos hcommands
    · exact if_neg fun hcommands => hnot (.inr ⟨henable, hcommands⟩)

end SupplicantSession

/-! ### Replies -/

namespace WifiManager

open ReceiveBuffer

/-- The supplicant answers a request with `OK`. -/
def CtrlRequest.Accepts (request : CtrlRequest) : Prop :=
  0 ≤ request.ret ∧ (cStr request.reply).bytes = ascii "OK\n"

instance (request : CtrlRequest) : Decidable request.Accepts :=
  inferInstanceAs (Decidable (_ ∧ _))

variable {connected : Bool} {buf : CommandBuffer} {request : CtrlRequest}

/-- A reply `OK` does not compare as `FAIL`. -/
theorem goesThrough_of_accepts (buf : CommandBuffer) (hconnected : connected = true)
    (haccepts : request.Accepts)
    (hstored : stored BUF_LEN request.reply = request.reply) :
    GoesThrough connected buf request := by
  have hok : ascii "OK\n" <+: request.reply ++ [0] :=
    haccepts.2 ▸ List.takeWhile_prefix _
  refine ⟨hconnected, haccepts.1, Bool.eq_false_of_not_eq_true fun hfail => ?_⟩
  have hbegins : ascii "FAIL" <+: buf.fill request.reply :=
    (strncmpEq_iff_begins (buf.fill request.reply) (ascii "FAIL")).mp hfail
  rw [CommandBuffer.fill, hstored] at hbegins
  cases hreply : request.reply with
  | nil =>
      rw [hreply] at hok
      exact absurd hok (by decide)
  | cons byte rest =>
      rw [hreply] at hok hbegins
      have hO : (79 : UInt8) = byte := (List.cons_prefix_cons.mp hok).1
      have hF : (70 : UInt8) = byte := (List.cons_prefix_cons.mp hbegins).1
      exact absurd (hO.trans hF.symm) (by decide)

theorem sendCommand_ok_iff (buf : CommandBuffer) (cmd : CString)
    (hshort : request.reply.length < BUF_LEN) :
    (sendCommand connected buf request cmd).1.bytes = ascii "OK\n" ↔
      connected = true ∧ request.Accepts := by
  have hstored : stored BUF_LEN request.reply = request.reply :=
    List.take_of_length_le (Nat.le_of_lt hshort)
  by_cases hgoes : GoesThrough connected buf request
  · have hzero := (requestCommand_of_goesThrough cmd hgoes).1
    simp only [sendCommand, hzero, ↓reduceIte, hstored]
    exact ⟨fun hok => ⟨hgoes.1, hgoes.2.1, hok⟩, fun haccepts => haccepts.2.2⟩
  · have hne := (requestCommand_of_not_goesThrough cmd hgoes).1
    simp only [sendCommand, hne, ↓reduceIte]
    refine iff_of_false (by decide) fun haccepts => hgoes ?_
    exact goesThrough_of_accepts buf haccepts.1 haccepts.2 hstored

end WifiManager

/-! ### Runs -/

namespace SupplicantSession

/-- `commands` is up since an `enable` that leaves a connection for commands, until
the next `enable`. -/
theorem run_commands (calls : List WifiCall) :
    (init.run calls).links.commands = true ↔
      Since WifiCall.LeavesCommands (¬ ·.IsEnable) calls :=
  Since.flag_iff (fun a : SupplicantSession => a.links.commands = true)
    Bool.false_ne_true after_commands calls

/-- The entries are as many as `enable` has added in excess of those that `disable` has
taken out. -/
theorem run_watched (calls : List WifiCall) (n : Nat) :
    n < (init.run calls).watched ↔
      Surplus (fun call => decide call.Connects) WifiCall.isDisable n calls :=
  Surplus.counter_iff SupplicantSession.watched rfl after_watched calls n

theorem run_events (calls : List WifiCall) :
    (init.run calls).links.events = true ↔
      Since WifiCall.Connects WifiCall.OpensNone calls :=
  Since.flag_iff (fun a : SupplicantSession => a.links.events = true)
    Bool.false_ne_true after_events calls

end SupplicantSession

namespace WifiSession

variable {H : Type u} [DecidableEq H] {wpa : WpaCtrl H} {base : Nat}
  {s : WifiSession H} {a : SupplicantSession}

omit [DecidableEq H] in
theorem request_result (cmd : List UInt8)
    (hshort : ∀ requests, (wpa.request requests).reply.length < WifiManager.BUF_LEN) :
    (request wpa cmd s).1 = 0 ↔ s.connections.mCtrlConn.isSome = true ∧
      (wpa.request (request wpa cmd s).2.requests).Accepts := by
  rw [← WifiManager.sendCommand_ok_iff _ (cStr cmd) (hshort _)]
  dsimp only [request]
  split
  · next hok => exact iff_of_true rfl hok
  · next hfail => exact iff_of_false (by decide) hfail

theorem enable_result (outcomes : Nat → AttemptOutcome)
    (hlinks : s.connections.Links base a.links) :
    (enable wpa outcomes s).1 = 0 ↔ (WifiCall.enable outcomes).Connects := by
  have hresult :=
    (WifiConnections.connectToSupplicant_links wpa.allocator outcomes 10 hlinks).1
  rw [show Int.toNat 10 = 10 from rfl] at hresult
  dsimp only [enable]
  rcases (SupplicantSession.attempted_ten a.links outcomes).2 with
    ⟨hyes, hzero, -⟩ | ⟨hno, hne, -⟩
  · rw [if_neg (not_not_intro (hresult.trans hzero))]
    exact iff_of_true rfl hyes
  · rw [if_pos (by rw [hresult, hne]; decide)]
    exact iff_of_false (show (-1 : Int) ≠ 0 by decide) hno

theorem perform_result {call : WifiCall}
    (hshort : ∀ requests, (wpa.request requests).reply.length < WifiManager.BUF_LEN)
    (hother : ¬ call.IsEnable) :
    (s.perform wpa call).1 = 0 ↔ call.commands = [] ∨
      s.connections.mCtrlConn.isSome = true ∧
        (wpa.request (s.perform wpa call).2.requests).Accepts := by
  have hrequest (cmd : List UInt8) : (request wpa cmd s).1 = 0 ↔ [cmd] = [] ∨
      s.connections.mCtrlConn.isSome = true ∧
        (wpa.request (request wpa cmd s).2.requests).Accepts :=
    (request_result cmd hshort).trans (or_iff_right (List.cons_ne_nil cmd [])).symm
  cases call with
  | enable outcomes => exact absurd ⟨outcomes, rfl⟩ hother
  | disable => exact iff_of_true rfl (.inl rfl)
  | p2pExtListen period interval => exact iff_of_true rfl (.inl rfl)
  | setWfdInfo wfd deviceType controlPort maxThroughput =>
      have hcommands : (WifiCall.setWfdInfo wfd deviceType controlPort
          maxThroughput).commands ≠ [] := by
        rw [WifiCall.commands_setWfdInfo fun _ => []]
        exact List.cons_ne_nil _ _
      exact (request_result (s := (sendCommand wpa _ s).2) _ hshort).trans
        (or_iff_right hcommands).symm
  | p2pFind timeout => exact hrequest _
  | p2pStopFind => exact hrequest _
  | p2pListen timeout => exact hrequest _
  | p2pStopListen => exact hrequest _
  | p2pConnect devAddr => exact hrequest _
  | p2pRemoveGroup => exact hrequest _
  | p2pFlush => exact hrequest _

/-- The manager is in the list of watchers more than `n` times exactly if, in some last
part of the calls, more than `n` calls of `enable` have succeeded in excess of those of
`disable`. The event loop gets a descriptor that is open, or none exactly if since the
last `enable` that succeeded an attempt has opened a connection for commands. `disable`
closes nothing. -/
theorem session_watched (wpa : WpaCtrl H) (opened : List H) (calls : List WifiCall) :
    let s := (start opened).run wpa calls
    (∀ n, n < s.watched ↔
        Surplus (fun call => decide call.Connects) WifiCall.isDisable n calls) ∧
      (s.getFD.isSome = true ↔ Since WifiCall.Connects WifiCall.OpensNone calls) ∧
      (∀ fd, s.getFD = some fd → s.connections.ledger.Live fd) ∧
      s.connections.ledger.opened.length = opened.length +
        calls.foldl (fun count call => count + call.leftOpen) 0 := by
  have href := run_refines wpa calls (start_refines opened)
  refine ⟨fun n => ?_, ?_, fun fd hfd => href.links.live fd (.inr hfd), ?_⟩
  · rw [href.watched]
    exact SupplicantSession.run_watched calls n
  · rw [getFD, href.links.events]
    exact SupplicantSession.run_events calls
  · rw [href.links.opened, SupplicantSession.run_opened]
    rfl

/-- A supplicant that takes every command. -/
def takesAll : WpaCtrl Nat where
  allocator := .numbered
  request _ := ⟨0, ascii "OK\n"⟩
  buf _ := ⟨List.replicate 4096 0, List.length_replicate⟩

/-- An `enable` whose attempts cannot be attached, while the event loop watches. -/
example :
    let s := (start []).run takesAll
      [.enable fun _ => ⟨true, true, 0⟩, .enable fun _ => ⟨true, true, 1⟩]
    s.watched = 1 ∧ s.getFD = none := by
  decide +kernel

/-- A manager that is still watched after `disable`. -/
example :
    let s := (start []).run takesAll
      [.enable fun _ => ⟨true, true, 0⟩, .enable fun _ => ⟨true, true, 0⟩, .disable]
    s.watched = 1 := by
  decide +kernel

/-- What the supplicant gets of a call, and whether it returns 0: `enable` sends its
commands if it succeeds, and any other call its own over a connection that is open,
exactly if the last `enable` has left one; `disable` does not end this. -/
theorem session_commands (wpa : WpaCtrl H)
    (hshort : ∀ requests, (wpa.request requests).reply.length < WifiManager.BUF_LEN)
    (opened : List H) (calls : List WifiCall) (call : WifiCall) :
    let s := (start opened).run wpa calls
    let t := s.perform wpa call
    let linked := Since WifiCall.LeavesCommands (¬ ·.IsEnable) calls
    (∃ sent, t.2.requests.map Prod.snd = s.requests.map Prod.snd ++ sent ∧
      (call.Connects ∨ ¬ call.IsEnable ∧ linked → sent = call.commands.map cStr) ∧
      (¬ (call.Connects ∨ ¬ call.IsEnable ∧ linked) → sent = [])) ∧
    (∀ request ∈ t.2.requests, t.2.connections.ledger.Live request.1) ∧
    (t.1 = 0 ↔ call.Connects ∨ ¬ call.IsEnable ∧ (call.commands = [] ∨
      linked ∧ (wpa.request t.2.requests).Accepts)) := by
  have href := run_refines wpa calls (start_refines opened)
  have hafter := perform_refines wpa call href
  have hlinked := SupplicantSession.run_commands calls
  refine ⟨?_, hafter.live, ?_⟩
  · obtain ⟨sent, hsent, hown, hnone⟩ :=
      SupplicantSession.after_sent (SupplicantSession.init.run calls) call
    rw [hlinked] at hown hnone
    refine ⟨sent, ?_, hown, hnone⟩
    rw [hafter.sent, hsent, href.sent]
  · by_cases henable : call.IsEnable
    · rw [or_iff_left fun h => h.1 henable]
      obtain ⟨outcomes, rfl⟩ := henable
      exact enable_result outcomes href.links
    · rw [or_iff_right fun hconnects : call.Connects => henable hconnects.isEnable,
        and_iff_right henable, ← hlinked, ← href.links.commands]
      exact perform_result hshort henable

/-- A search after `disable` still goes to the supplicant. -/
theorem session_commands_afterDisable :
    let s := (start []).run takesAll [.enable fun _ => ⟨true, true, 0⟩, .disable]
    (s.perform takesAll (.p2pFind 10)).1 = 0 := by
  have hlinked : Since WifiCall.LeavesCommands (¬ ·.IsEnable)
      [.enable fun _ => ⟨true, true, 0⟩, .disable] := by
    refine ⟨[], _, [.disable], rfl, .inl ⟨0, by decide, by decide⟩, ?_⟩
    rintro later hlater ⟨outcomes, rfl⟩
    simp at hlater
  have hshort : (ascii "OK\n").length < WifiManager.BUF_LEN := by decide
  refine (session_commands takesAll (fun _ => hshort) [] _ (.p2pFind 10)).2.2.mpr
    (.inr ⟨?_, .inr ⟨hlinked, by decide⟩⟩)
  rintro ⟨outcomes, hcall⟩
  cases hcall

end WifiSession

end MyDirectFB

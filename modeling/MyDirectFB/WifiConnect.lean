/-
The connection to wpa_supplicant (wifi/wifi_manager.cpp): an attempt opens a
connection for commands and one for events, and attaches the second.  Attempts
are all or nothing as long as none of them opens the first connection only: this
one is neither closed nor forgotten.
-/
import MyDirectFB.Lib.HandleLedger

namespace MyDirectFB

universe u

/-- The connections of `WifiManager`, and those of the client library. -/
structure WifiConnections (H : Type u) where
  mCtrlConn : Option H
  mMonitorConn : Option H
  ledger : HandleLedger H
deriving Repr, DecidableEq

/-- What the client library makes of an attempt: whether the two calls of
`wpa_ctrl_open` give a connection, and what `wpa_ctrl_attach` returns. -/
structure AttemptOutcome where
  ctrlOpens : Bool
  monitorOpens : Bool
  attach : Int
deriving Repr, DecidableEq

/-- `wpa_ctrl_open`. -/
def wpaCtrlOpen {H : Type u} (allocator : HandleAllocator H) (opens : Bool)
    (ledger : HandleLedger H) : Option H × HandleLedger H :=
  if opens then
    (some (allocator.next ledger), ledger.acquire (allocator.next ledger))
  else (none, ledger)

namespace WifiConnections

variable {H : Type u} [DecidableEq H]

/-- `connectToSockPath`, without the path, which is only passed on. -/
def connectToSockPath (allocator : HandleAllocator H) (outcome : AttemptOutcome)
    (m : WifiConnections H) : Int × WifiConnections H :=
  let ctrl := wpaCtrlOpen allocator outcome.ctrlOpens m.ledger
  let m := { m with mCtrlConn := ctrl.1, ledger := ctrl.2 }
  match ctrl.1 with
  | none => (-1, m)
  | some ctrlConn =>
      let monitor := wpaCtrlOpen allocator outcome.monitorOpens m.ledger
      let m := { m with mMonitorConn := monitor.1, ledger := monitor.2 }
      match monitor.1 with
      | none => (-1, m)
      | some monitorConn =>
          if outcome.attach ≠ 0 then
            let ledger := (m.ledger.release monitorConn).release ctrlConn
            (-1, ⟨none, none, ledger⟩)
          else (0, m)

/-- The loop of `connectToSupplicant`, from attempt `ii` on. -/
def connectLoop (allocator : HandleAllocator H) (outcomes : Nat → AttemptOutcome) :
    Nat → Nat → WifiConnections H → Int × WifiConnections H
  | 0, _, m => (-1, m)
  | left + 1, ii, m =>
      let attempt := connectToSockPath allocator (outcomes ii) m
      if attempt.1 = 0 then (0, attempt.2)
      else connectLoop allocator outcomes left (ii + 1) attempt.2

/-- `connectToSupplicant`, with the outcome of each attempt. -/
def connectToSupplicant (allocator : HandleAllocator H)
    (outcomes : Nat → AttemptOutcome) (tryCnt : Int) (m : WifiConnections H) :
    Int × WifiConnections H :=
  connectLoop allocator outcomes tryCnt.toNat 0 m

/-- Before the call: no connection, whatever else is open. -/
def start (opened : List H) : WifiConnections H :=
  ⟨none, none, ⟨opened, []⟩⟩

/-- If the result is 0, the two connections are distinct and open and no other
that was opened is, and if it is -1, there is none and all that were opened are
closed. -/
def AllOrNothing (result : Int × WifiConnections H) : Prop :=
  (result.1 = 0 → ∃ ctrl monitor, result.2.mCtrlConn = some ctrl ∧
    result.2.mMonitorConn = some monitor ∧ ctrl ≠ monitor ∧
    ctrl ∈ result.2.ledger.opened ∧ monitor ∈ result.2.ledger.opened ∧
    ∀ h, result.2.ledger.Live h → h = ctrl ∨ h = monitor) ∧
  (result.1 = -1 → result.2.mCtrlConn = none ∧ result.2.mMonitorConn = none ∧
    ∀ h, ¬ result.2.ledger.Live h)

end WifiConnections

namespace AttemptOutcome

def Succeeds (outcome : AttemptOutcome) : Prop :=
  outcome.ctrlOpens = true ∧ outcome.monitorOpens = true ∧ outcome.attach = 0

/-- The connection for commands is opened and the one for events is not. -/
def HalfOpen (outcome : AttemptOutcome) : Prop :=
  outcome.ctrlOpens = true ∧ outcome.monitorOpens = false

end AttemptOutcome

namespace WifiConnections

variable {H : Type u} [DecidableEq H] {allocator : HandleAllocator H}
  {outcome : AttemptOutcome} {outcomes : Nat → AttemptOutcome}
  {m : WifiConnections H}

/-! ### One attempt -/

/-- What can come of an attempt: it leaves nothing, or only the connection for
commands, or both. -/
inductive Attempted (outcome : AttemptOutcome) (m : WifiConnections H) :
    Int × WifiConnections H → Prop
  | nothing (after : WifiConnections H) (hfails : ¬ outcome.Succeeds)
      (hwhole : ¬ outcome.HalfOpen) (hctrl : after.mCtrlConn = none)
      (hmonitor : m.mMonitorConn = none → after.mMonitorConn = none)
      (hlive : ∀ h, after.ledger.Live h ↔ m.ledger.Live h) :
      Attempted outcome m (-1, after)
  | half (ctrl : H) (hhalf : outcome.HalfOpen)
      (hctrl : ctrl ∉ m.ledger.opened) :
      Attempted outcome m (-1, ⟨some ctrl, none, m.ledger.acquire ctrl⟩)
  | both (ctrl monitor : H) (hsucceeds : outcome.Succeeds)
      (hctrl : ctrl ∉ m.ledger.opened)
      (hmonitor : monitor ∉ (m.ledger.acquire ctrl).opened) :
      Attempted outcome m (0, ⟨some ctrl, some monitor,
        (m.ledger.acquire ctrl).acquire monitor⟩)

theorem connectToSockPath_attempted (allocator : HandleAllocator H)
    (outcome : AttemptOutcome) (m : WifiConnections H) :
    Attempted outcome m (connectToSockPath allocator outcome m) := by
  obtain ⟨ctrlOpens, monitorOpens, attach⟩ := outcome
  have hctrl := allocator.fresh m.ledger
  have hmonitor := allocator.fresh (m.ledger.acquire (allocator.next m.ledger))
  cases ctrlOpens with
  | false =>
      exact .nothing _ (fun h => Bool.false_ne_true h.1)
        (fun h => Bool.false_ne_true h.1) rfl id fun _ => Iff.rfl
  | true =>
      cases monitorOpens with
      | false => exact .half _ ⟨rfl, rfl⟩ hctrl
      | true =>
          by_cases hattach : attach = 0
          · subst hattach
            exact .both _ _ ⟨rfl, rfl, rfl⟩ hctrl hmonitor
          · simp only [connectToSockPath, wpaCtrlOpen, ↓reduceIte, ne_eq, hattach,
              not_false_eq_true]
            refine .nothing _ (fun h => hattach h.2.2)
              (fun h => Bool.false_ne_true h.2.symm) rfl (fun _ => rfl)
              fun h => ?_
            rw [HandleLedger.live_release,
              HandleLedger.live_acquire_release hmonitor,
              ← HandleLedger.live_release,
              HandleLedger.live_acquire_release hctrl]

/-! ### The attempts of a call -/

/-- A connection that was opened is still open when an attempt begins. -/
def Leaked (m : WifiConnections H) : Prop :=
  ∃ h, m.ledger.Live h

/-- There is no connection, and all that were opened are closed. -/
structure Clean (m : WifiConnections H) : Prop where
  mCtrlConn : m.mCtrlConn = none
  mMonitorConn : m.mMonitorConn = none
  closed : ∀ h, ¬ m.ledger.Live h

/-- What is left over is never closed. -/
theorem not_allOrNothing_of_leaked (left ii : Nat) (hleaked : m.Leaked) :
    ¬ AllOrNothing (connectLoop allocator outcomes left ii m) := by
  induction left generalizing ii m with
  | zero =>
      obtain ⟨h, hlive⟩ := hleaked
      exact fun hall => (hall.2 rfl).2.2 h hlive
  | succ left ih =>
      obtain ⟨h, hlive⟩ := hleaked
      rw [connectLoop]
      have hattempt := connectToSockPath_attempted allocator (outcomes ii) m
      generalize connectToSockPath allocator (outcomes ii) m = result at hattempt
      cases hattempt with
      | nothing after hfails hwhole hctrl hmonitor hafter =>
          exact ih (ii + 1) ⟨h, (hafter h).mpr hlive⟩
      | half ctrl hhalf hctrl =>
          exact ih (ii + 1) ⟨h, (HandleLedger.live_acquire hctrl).mpr (.inr hlive)⟩
      | both ctrl monitor hsucceeds hctrl hmonitor =>
          intro hall
          obtain ⟨c, d, hc, hd, -, -, -, honly⟩ := hall.1 rfl
          obtain rfl := Option.some.inj hc
          obtain rfl := Option.some.inj hd
          have hstill := (HandleLedger.live_acquire hmonitor).mpr
            (.inr ((HandleLedger.live_acquire hctrl).mpr (.inr hlive)))
          rcases honly h hstill with rfl | rfl
          · exact hctrl hlive.2
          · exact hmonitor (List.mem_cons_of_mem _ hlive.2)

/-- None of the attempts that are made from attempt `ii` on opens one connection
only. -/
def NoneHalfOpen (outcomes : Nat → AttemptOutcome) (left ii : Nat) : Prop :=
  ∀ i < left, (∀ j < i, ¬ (outcomes (ii + j)).Succeeds) →
    ¬ (outcomes (ii + i)).HalfOpen

theorem noneHalfOpen_succ (outcomes : Nat → AttemptOutcome) (left ii : Nat) :
    NoneHalfOpen outcomes (left + 1) ii ↔ ¬ (outcomes ii).HalfOpen ∧
      (¬ (outcomes ii).Succeeds → NoneHalfOpen outcomes left (ii + 1)) := by
  constructor
  · intro hnone
    refine ⟨hnone 0 (Nat.succ_pos left) fun j hj => absurd hj (Nat.not_lt_zero j),
      fun hfails i hi hbefore => ?_⟩
    have hi' := hnone (i + 1) (Nat.succ_lt_succ hi) fun j hj => ?_
    · rwa [Nat.add_right_comm, Nat.add_assoc]
    · cases j with
      | zero => exact hfails
      | succ j =>
          rw [← Nat.add_assoc, Nat.add_right_comm]
          exact hbefore j (Nat.lt_of_succ_lt_succ hj)
  · rintro ⟨hfirst, hlater⟩ i hi hbefore
    cases i with
    | zero => exact hfirst
    | succ i =>
        have hi' := hlater (hbefore 0 (Nat.succ_pos i)) i
          (Nat.lt_of_succ_lt_succ hi) fun j hj => ?_
        · rwa [← Nat.add_assoc, Nat.add_right_comm]
        · have hj' := hbefore (j + 1) (Nat.succ_lt_succ hj)
          rwa [← Nat.add_assoc, Nat.add_right_comm] at hj'

/-- From a clean state, attempts are all or nothing exactly if none of those that
are made opens one connection only. -/
theorem connectLoop_iff (left ii : Nat) (hclean : m.Clean) :
    AllOrNothing (connectLoop allocator outcomes left ii m) ↔
      NoneHalfOpen outcomes left ii := by
  induction left generalizing ii m with
  | zero =>
      refine iff_of_true
        ⟨fun h => absurd h (show (-1 : Int) ≠ 0 by decide), fun _ => ?_⟩
        fun i hi => absurd hi (Nat.not_lt_zero i)
      exact ⟨hclean.mCtrlConn, hclean.mMonitorConn, hclean.closed⟩
  | succ left ih =>
      rw [connectLoop, noneHalfOpen_succ]
      have hattempt := connectToSockPath_attempted allocator (outcomes ii) m
      generalize connectToSockPath allocator (outcomes ii) m = result at hattempt
      cases hattempt with
      | nothing after hfails hwhole hctrl hmonitor hafter =>
          have hnext : after.Clean := ⟨hctrl, hmonitor hclean.mMonitorConn,
            fun h hlive => hclean.closed h ((hafter h).mp hlive)⟩
          exact (ih (ii + 1) hnext).trans
            ⟨fun h => ⟨hwhole, fun _ => h⟩, fun h => h.2 hfails⟩
      | half ctrl hhalf hctrl =>
          have hleaked : Leaked (⟨some ctrl, none, m.ledger.acquire ctrl⟩ :
              WifiConnections H) :=
            ⟨ctrl, (HandleLedger.live_acquire hctrl).mpr (.inl rfl)⟩
          exact iff_of_false (not_allOrNothing_of_leaked left (ii + 1) hleaked)
            fun h => h.1 hhalf
      | both ctrl monitor hsucceeds hctrl hmonitor =>
          refine iff_of_true
            ⟨fun _ => ?_, fun h => absurd h (show (0 : Int) ≠ -1 by decide)⟩
            ⟨fun hhalf => ?_, fun hfails => absurd hsucceeds hfails⟩
          · refine ⟨ctrl, monitor, rfl, rfl, ?_, by simp, by simp,
              fun h hlive => ?_⟩
            · rintro rfl
              exact hmonitor List.mem_cons_self
            · rcases (HandleLedger.live_acquire hmonitor).mp hlive with h | hlive
              · exact .inr h
              · rcases (HandleLedger.live_acquire hctrl).mp hlive with h | hlive
                · exact .inl h
                · exact absurd hlive (hclean.closed h)
          · exact Bool.false_ne_true (hhalf.2.symm.trans hsucceeds.2.1)

omit [DecidableEq H] in
theorem start_clean (opened : List H) : (start opened).Clean :=
  ⟨rfl, rfl, fun _ hlive => List.not_mem_nil hlive.1⟩

end WifiConnections

/-- A call is all or nothing exactly if no attempt that it makes opens the
connection for commands and not the one for events. -/
theorem connectToSupplicant_iff {H : Type u} [DecidableEq H]
    (allocator : HandleAllocator H) (outcomes : Nat → AttemptOutcome)
    (tryCnt : Int) (opened : List H) :
    WifiConnections.AllOrNothing
        (WifiConnections.connectToSupplicant allocator outcomes tryCnt
          (.start opened)) ↔
      ∀ i : Nat, (i : Int) < tryCnt → (∀ j < i, ¬ (outcomes j).Succeeds) →
        ¬ (outcomes i).HalfOpen := by
  rw [WifiConnections.connectToSupplicant,
    WifiConnections.connectLoop_iff _ _ (WifiConnections.start_clean opened)]
  unfold WifiConnections.NoneHalfOpen
  simp only [Nat.zero_add, Int.lt_toNat]

/-- One attempt that opens the first connection only leaves it open. -/
theorem halfOpen_leaks :
    WifiConnections.connectToSupplicant .numbered (fun _ => ⟨true, false, 0⟩) 1
        (.start []) = (-1, ⟨some 1, none, ⟨[1], [1]⟩⟩) ∧
      ¬ WifiConnections.AllOrNothing
        (WifiConnections.connectToSupplicant .numbered
          (fun _ => ⟨true, false, 0⟩) 1 (.start [])) := by
  have hresult : WifiConnections.connectToSupplicant .numbered
      (fun _ => ⟨true, false, 0⟩) 1 (.start []) =
    (-1, ⟨some 1, none, ⟨[1], [1]⟩⟩) := by decide
  refine ⟨hresult, fun hall => ?_⟩
  rw [hresult] at hall
  exact absurd (hall.2 rfl).1 (by decide)

end MyDirectFB

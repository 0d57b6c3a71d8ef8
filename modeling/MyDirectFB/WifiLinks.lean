/-
The connections to wpa_supplicant (wifi/wifi_manager.cpp) without their handles: which
of the two there are after any number of attempts, and how many are open.  An attempt
that fails may leave the connection for commands, or take away the one for events.
-/
import MyDirectFB.WifiConnect
import Mathlib.Data.List.Range

namespace MyDirectFB

universe u

instance (outcome : AttemptOutcome) : Decidable outcome.Succeeds :=
  inferInstanceAs (Decidable (_ ∧ _))

instance (outcome : AttemptOutcome) : Decidable outcome.HalfOpen :=
  inferInstanceAs (Decidable (_ ∧ _))

/-- Whether there is a connection for commands and one for events, and how many the
supplicant has. -/
structure SupplicantLinks where
  commands : Bool
  events : Bool
  opened : Nat
deriving Repr, DecidableEq

namespace SupplicantLinks

/-- No further attempt is made after one that succeeds. -/
def attemptsMade : List AttemptOutcome → List AttemptOutcome
  | [] => []
  | outcome :: rest =>
      if outcome.Succeeds then [outcome] else outcome :: attemptsMade rest

theorem attemptsMade_eq_self {attempts : List AttemptOutcome}
    (hfail : attempts.any (·.Succeeds) = false) : attemptsMade attempts = attempts := by
  induction attempts with
  | nil => rfl
  | cons outcome rest ih =>
      rw [List.any_cons, Bool.or_eq_false_iff, decide_eq_false_iff_not] at hfail
      rw [attemptsMade, if_neg hfail.1, ih hfail.2]

/-- Attempts of which one succeeds. -/
def connected (links : SupplicantLinks) (attempts : List AttemptOutcome) :
    SupplicantLinks :=
  ⟨true, true, links.opened + (attemptsMade attempts).countP (·.HalfOpen) + 2⟩

/-- Attempts that all fail: the last one decides about the connection for commands,
and each that opens it drops the one for events. -/
def failed (links : SupplicantLinks) (attempts : List AttemptOutcome) :
    SupplicantLinks :=
  ⟨attempts.foldl (fun _ outcome => outcome.HalfOpen) links.commands,
    links.events && attempts.all (!·.ctrlOpens),
    links.opened + attempts.countP (·.HalfOpen)⟩

def attempted (links : SupplicantLinks) (attempts : List AttemptOutcome) :
    Int × SupplicantLinks :=
  if attempts.any (·.Succeeds) then (0, links.connected attempts)
  else (-1, links.failed attempts)

theorem attempted_nil (links : SupplicantLinks) : links.attempted [] = (-1, links) := by
  simp [attempted, failed]

theorem attempted_cons (links : SupplicantLinks) (outcome : AttemptOutcome)
    (rest : List AttemptOutcome) :
    links.attempted (outcome :: rest) =
      if (links.attempted [outcome]).1 = 0 then links.attempted [outcome]
      else (links.attempted [outcome]).2.attempted rest := by
  by_cases hsucceeds : outcome.Succeeds
  · simp [attempted, connected, attemptsMade, hsucceeds]
  · by_cases hany : ∃ later ∈ rest, later.Succeeds
    · simp [attempted, connected, failed, attemptsMade, hsucceeds, hany,
        List.countP_cons, Nat.add_assoc]
      exact Nat.add_left_comm _ _ _
    · simp [attempted, failed, hsucceeds, hany, List.countP_cons, Bool.and_assoc,
        Nat.add_assoc]
      exact Nat.add_comm _ _

/-- One attempt, by what the client library makes of it. -/
theorem attempted_single (links : SupplicantLinks) (outcome : AttemptOutcome) :
    links.attempted [outcome] =
      if outcome.ctrlOpens then
        if outcome.monitorOpens then
          if outcome.attach = 0 then (0, ⟨true, true, links.opened + 2⟩)
          else (-1, ⟨false, false, links.opened⟩)
        else (-1, ⟨true, false, links.opened + 1⟩)
      else (-1, ⟨false, links.events, links.opened⟩) := by
  obtain ⟨ctrlOpens, monitorOpens, attach⟩ := outcome
  cases ctrlOpens with
  | false => simp [attempted, failed, AttemptOutcome.Succeeds, AttemptOutcome.HalfOpen]
  | true =>
      cases monitorOpens with
      | false =>
          simp [attempted, failed, AttemptOutcome.Succeeds, AttemptOutcome.HalfOpen]
      | true =>
          by_cases hattach : attach = 0
          · simp [attempted, connected, attemptsMade, AttemptOutcome.Succeeds,
              AttemptOutcome.HalfOpen, hattach]
          · simp [attempted, failed, AttemptOutcome.Succeeds,
              AttemptOutcome.HalfOpen, hattach]

end SupplicantLinks

namespace WifiConnections

variable {H : Type u} [DecidableEq H] {base : Nat} {m : WifiConnections H}
  {links : SupplicantLinks}

/-- The manager has the connections of `links`, and what it has is open. -/
structure Links (base : Nat) (m : WifiConnections H) (links : SupplicantLinks) :
    Prop where
  commands : m.mCtrlConn.isSome = links.commands
  events : m.mMonitorConn.isSome = links.events
  opened : m.ledger.opened.length = base + links.opened
  live : ∀ h, m.mCtrlConn = some h ∨ m.mMonitorConn = some h → m.ledger.Live h

theorem connectToSockPath_links (allocator : HandleAllocator H)
    (outcome : AttemptOutcome) (hlinks : Links base m links) :
    let result := connectToSockPath allocator outcome m
    result.1 = (links.attempted [outcome]).1 ∧
      Links base result.2 (links.attempted [outcome]).2 ∧
      ∀ h, m.ledger.Live h → result.2.ledger.Live h := by
  obtain ⟨ctrlOpens, monitorOpens, attach⟩ := outcome
  have hctrl := allocator.fresh m.ledger
  have hmonitor := allocator.fresh (m.ledger.acquire (allocator.next m.ledger))
  have hlive {h : H} (hbefore : m.ledger.Live h) :
      (m.ledger.acquire (allocator.next m.ledger)).Live h :=
    (HandleLedger.live_acquire hctrl).mpr (.inr hbefore)
  have hnew : (m.ledger.acquire (allocator.next m.ledger)).Live
      (allocator.next m.ledger) :=
    (HandleLedger.live_acquire hctrl).mpr (.inl rfl)
  rw [SupplicantLinks.attempted_single]
  cases ctrlOpens with
  | false =>
      refine ⟨rfl, ⟨rfl, hlinks.events, hlinks.opened, ?_⟩, fun h hbefore => hbefore⟩
      rintro h (hnone | hsome)
      · cases hnone
      · exact hlinks.live h (.inr hsome)
  | true =>
      cases monitorOpens with
      | false =>
          refine ⟨rfl, ⟨rfl, rfl, congrArg Nat.succ hlinks.opened, ?_⟩,
            fun h hbefore => hlive hbefore⟩
          rintro h (hsome | hnone)
          · exact Option.some.inj hsome ▸ hnew
          · cases hnone
      | true =>
          by_cases hattach : attach = 0
          · subst hattach
            refine ⟨rfl, ⟨rfl, rfl, congrArg (· + 2) hlinks.opened, ?_⟩,
              fun h hbefore =>
                (HandleLedger.live_acquire hmonitor).mpr (.inr (hlive hbefore))⟩
            rintro h (hsome | hsome)
            · exact (HandleLedger.live_acquire hmonitor).mpr
                (.inr (Option.some.inj hsome ▸ hnew))
            · exact (HandleLedger.live_acquire hmonitor).mpr
                (.inl (Option.some.inj hsome).symm)
          · simp only [connectToSockPath, wpaCtrlOpen, ↓reduceIte, ne_eq, hattach,
              not_false_eq_true]
            refine ⟨trivial, ⟨rfl, rfl, ?_, ?_⟩, fun h hbefore => ?_⟩
            · rw [HandleLedger.opened_release,
                HandleLedger.opened_acquire_release hmonitor,
                ← HandleLedger.opened_release,
                HandleLedger.opened_acquire_release hctrl]
              exact hlinks.opened
            · rintro h (hnone | hnone) <;> cases hnone
            · rw [HandleLedger.live_release,
                HandleLedger.live_acquire_release hmonitor, ← HandleLedger.live_release,
                HandleLedger.live_acquire_release hctrl]
              exact hbefore

/-- The attempts from `ii` on. -/
def attemptsFrom (outcomes : Nat → AttemptOutcome) (left ii : Nat) :
    List AttemptOutcome :=
  (List.range' ii left).map outcomes

theorem connectLoop_links (allocator : HandleAllocator H)
    (outcomes : Nat → AttemptOutcome) (left ii : Nat) (hlinks : Links base m links) :
    let result := connectLoop allocator outcomes left ii m
    let attempted := links.attempted (attemptsFrom outcomes left ii)
    result.1 = attempted.1 ∧ Links base result.2 attempted.2 ∧
      ∀ h, m.ledger.Live h → result.2.ledger.Live h := by
  induction left generalizing ii m links with
  | zero =>
      rw [attemptsFrom, List.range'_zero, List.map_nil, SupplicantLinks.attempted_nil]
      exact ⟨rfl, hlinks, fun h hlive => hlive⟩
  | succ left ih =>
      have hattempts : attemptsFrom outcomes (left + 1) ii =
          outcomes ii :: attemptsFrom outcomes left (ii + 1) := by
        rw [attemptsFrom, List.range'_succ, List.map_cons, attemptsFrom]
      obtain ⟨hresult, hafter, hkept⟩ :=
        connectToSockPath_links allocator (outcomes ii) hlinks
      rw [connectLoop, hattempts, SupplicantLinks.attempted_cons, hresult]
      split
      · next hzero => exact ⟨hzero.symm, hafter, hkept⟩
      · obtain ⟨hlast, hlinks', hkept'⟩ := ih (ii + 1) hafter
        exact ⟨hlast, hlinks', fun h hlive => hkept' h (hkept h hlive)⟩

theorem connectToSupplicant_links (allocator : HandleAllocator H)
    (outcomes : Nat → AttemptOutcome) (tryCnt : Int) (hlinks : Links base m links) :
    let result := connectToSupplicant allocator outcomes tryCnt m
    let attempted := links.attempted ((List.range tryCnt.toNat).map outcomes)
    result.1 = attempted.1 ∧ Links base result.2 attempted.2 ∧
      ∀ h, m.ledger.Live h → result.2.ledger.Live h := by
  rw [List.range_eq_range']
  exact connectLoop_links allocator outcomes tryCnt.toNat 0 hlinks

end WifiConnections

end MyDirectFB

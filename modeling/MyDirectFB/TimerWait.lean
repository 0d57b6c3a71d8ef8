/-
The time `runTimers` tells the event loop to wait.  Over the integers it should
be the distance to the smallest remaining expiry, kept between 0 and
`WAIT_TIME`; the code narrows the 64-bit distance to 32 bits before it compares.
-/
import MyDirectFB.TimerDrain

namespace MyDirectFB

universe u

/-- A distance survives the narrowing to `int32_t` and the comparisons that
follow it. -/
def TruncationHarmless (distance : Int) : Prop :=
  (distance ≤ 0 ∧ Int.bmod distance (2 ^ 32) ≤ 0) ∨
    (0 < distance ∧ distance < WAIT_TIME) ∨
    (WAIT_TIME ≤ distance ∧ WAIT_TIME ≤ Int.bmod distance (2 ^ 32))

/-- The narrowing of a 64-bit difference depends on the difference over the
integers only. -/
theorem toInt32_sub_eq_bmod (expiry now : UInt64) :
    toInt32 (expiry - now) =
      Int.bmod ((expiry.toNat : Int) - now.toNat) (2 ^ 32) := by
  have hexpiry := expiry.toNat_lt
  have hnow := now.toNat_lt
  have hmod : (((expiry - now).toNat : Int)) % ((2 ^ 32 : Nat) : Int) =
      ((expiry.toNat : Int) - now.toNat) % ((2 ^ 32 : Nat) : Int) := by
    rw [UInt64.toNat_sub]
    omega
  calc
    toInt32 (expiry - now) =
        Int.bmod (((expiry - now).toNat : Int) % ((2 ^ 32 : Nat) : Int))
          (2 ^ 32) := (Int.emod_bmod _ _).symm
    _ = Int.bmod (((expiry.toNat : Int) - now.toNat) % ((2 ^ 32 : Nat) : Int))
          (2 ^ 32) := by rw [hmod]
    _ = Int.bmod ((expiry.toNat : Int) - now.toNat) (2 ^ 32) := Int.emod_bmod _ _

theorem clampTimeout_eq (timeout : Int) :
    clampTimeout timeout = min WAIT_TIME (max 0 timeout) := by
  unfold clampTimeout WAIT_TIME
  split
  · omega
  · split <;> omega

theorem clampTimeout_bmod_iff (distance : Int) :
    clampTimeout (Int.bmod distance (2 ^ 32)) =
        min WAIT_TIME (max 0 distance) ↔ TruncationHarmless distance := by
  have hsmall : 0 < distance → distance < WAIT_TIME →
      Int.bmod distance (2 ^ 32) = distance := by
    intro hpos hlt
    unfold WAIT_TIME at hlt
    exact Int.bmod_eq_of_le (by omega) (by omega)
  rw [clampTimeout_eq, TruncationHarmless]
  unfold WAIT_TIME at hsmall ⊢
  generalize Int.bmod distance (2 ^ 32) = narrowed at hsmall ⊢
  omega

/-! ### What a round leaves -/

variable {I : Type u}

/-- The expiries that a round at `now` leaves behind when the handler leaves the
timers alone. -/
def EventLoop.remaining (s : EventLoop I) (now : UInt64) : List UInt64 :=
  match s.mTimers with
  | [] => []
  | front :: rest =>
      if s.getExpiry front ≤ now then
        (if (s.timer front).mRepeat then
          [s.getExpiry front + (s.timer front).mInterval.toUInt64] else []) ++
        rest.map s.getExpiry
      else s.getExpiry front :: rest.map s.getExpiry

/-- `expiry` is the smallest of a list of expiries. -/
def IsSmallest (expiries : List UInt64) (expiry : UInt64) : Prop :=
  expiry ∈ expiries ∧ ∀ other ∈ expiries, expiry ≤ other

/-- The expiries of the timers that a round leaves. -/
def RunTimers.expiries (round : RunTimers I) : List UInt64 :=
  round.loop.mTimers.map round.loop.getExpiry

/-- The value of a round is the distance to the smallest expiry it leaves,
between 0 and `WAIT_TIME`; it is `WAIT_TIME` when no timer is left, and 0 only
when a timer that is left is due. -/
structure RunTimers.WaitExact (round : RunTimers I) (now : UInt64) : Prop where
  none_left : round.loop.mTimers = [] → round.timeout = WAIT_TIME
  smallest : ∀ expiry, IsSmallest round.expiries expiry →
    round.timeout = min WAIT_TIME (max 0 ((expiry.toNat : Int) - now.toNat))
  zero_due : round.timeout = 0 →
    ∃ id ∈ round.loop.mTimers, round.loop.getExpiry id ≤ now

theorem EventLoop.Sorted.isSmallest_iff {s : EventLoop I} (hs : s.Sorted)
    {front : I} {rest : List I} (hlist : s.mTimers = front :: rest)
    (expiry : UInt64) :
    IsSmallest (s.mTimers.map s.getExpiry) expiry ↔
      expiry = s.getExpiry front := by
  have hfront : IsSmallest (s.mTimers.map s.getExpiry) (s.getExpiry front) := by
    rw [EventLoop.Sorted, hlist] at hs
    refine ⟨by simp [hlist], ?_⟩
    simpa [hlist] using fun id hid => List.rel_of_pairwise_cons hs hid
  constructor
  · rintro ⟨hmem, hle⟩
    exact UInt64.le_antisymm (hle _ hfront.1) (hfront.2 _ hmem)
  · rintro rfl
    exact hfront

theorem IsSmallest.perm_iff {first second : List UInt64}
    (hperm : first.Perm second) (expiry : UInt64) :
    IsSmallest first expiry ↔ IsSmallest second expiry := by
  unfold IsSmallest
  simp only [hperm.mem_iff]

/-- A round is right exactly when the distance to the smallest expiry it leaves
survives the narrowing. -/
theorem RunTimers.waitExact_iff {round : RunTimers I} {now : UInt64}
    (hsorted : round.loop.Sorted)
    (htimeout : round.timeout = clampTimeout (match round.loop.mTimers with
      | [] => WAIT_TIME
      | front :: _ => toInt32 (round.loop.getExpiry front - now))) :
    round.WaitExact now ↔ ∀ expiry, IsSmallest round.expiries expiry →
      TruncationHarmless ((expiry.toNat : Int) - now.toNat) := by
  cases hlist : round.loop.mTimers with
  | nil =>
      have hvalue : round.timeout = WAIT_TIME := by
        rw [htimeout, hlist]
        rfl
      have hnone (expiry : UInt64) : ¬ IsSmallest round.expiries expiry := by
        simp [IsSmallest, RunTimers.expiries, hlist]
      refine iff_of_true ⟨fun _ => hvalue, ?_, ?_⟩ ?_
      · exact fun expiry hexpiry => absurd hexpiry (hnone expiry)
      · rw [hvalue]
        exact fun hzero => absurd hzero (by decide)
      · exact fun expiry hexpiry => absurd hexpiry (hnone expiry)
  | cons front rest =>
      have hsmallest := hsorted.isSmallest_iff hlist
      rw [hlist] at htimeout
      simp only [toInt32_sub_eq_bmod] at htimeout
      constructor
      · intro hround expiry hexpiry
        have hvalue := hround.smallest expiry hexpiry
        obtain rfl := (hsmallest expiry).mp hexpiry
        rw [htimeout] at hvalue
        exact (clampTimeout_bmod_iff _).mp hvalue
      · intro hharmless
        have hvalue : round.timeout = min WAIT_TIME
            (max 0 (((round.loop.getExpiry front).toNat : Int) - now.toNat)) := by
          rw [htimeout]
          apply (clampTimeout_bmod_iff _).mpr
          exact hharmless _ ((hsmallest _).mpr rfl)
        refine ⟨?_, ?_, ?_⟩
        · rw [hlist]
          exact fun hempty => absurd hempty (List.cons_ne_nil _ _)
        · intro expiry hexpiry
          obtain rfl := (hsmallest expiry).mp hexpiry
          exact hvalue
        · intro hzero
          refine ⟨front, by simp [hlist], UInt64.le_iff_toNat_le.mpr ?_⟩
          rw [hvalue] at hzero
          unfold WAIT_TIME at hzero
          omega

/-! ### Reachable lists -/

variable [DecidableEq I]

/-- The program's operations when its handlers leave the timers alone. -/
inductive IdleStep (I : Type u) where
  | call (operation : TimerCall I)
  | runTimers (now : UInt64)
deriving Repr, DecidableEq

def IdleStep.perform (s : EventLoop I) : IdleStep I → EventLoop I
  | .call operation => operation.perform s
  | .runTimers now => (s.runTimers now []).loop

/-- The state that a sequence of operations leads to. -/
def EventLoop.reached (handler : I → Bool) (expiry : I → UInt64)
    (steps : List (IdleStep I)) : EventLoop I :=
  steps.foldl IdleStep.perform (EventLoop.init handler expiry)

theorem EventLoop.runTimers_idle_consistent {s : EventLoop I}
    (hs : s.Consistent) (now : UInt64) :
    (s.runTimers now []).loop.Consistent := by
  refine (TopStep.perform_consistent_iff hs (.runTimers now [])).mpr ?_
  intro id hfront _
  have hcall : Timer.callHandler s id [] = s := by simp [Timer.callHandler]
  rw [hcall]
  exact Or.inr (Or.inr hfront)

theorem EventLoop.reached_consistent (handler : I → Bool) (expiry : I → UInt64)
    (steps : List (IdleStep I)) :
    (EventLoop.reached handler expiry steps).Consistent := by
  suffices h : ∀ s : EventLoop I, s.Consistent →
      (steps.foldl IdleStep.perform s).Consistent
    from h _ (EventLoop.init_consistent handler expiry)
  induction steps with
  | nil => exact fun s hs => hs
  | cons step rest ih =>
      intro s hs
      apply ih
      cases step with
      | call operation => exact TimerCall.perform_consistent hs operation
      | runTimers now => exact EventLoop.runTimers_idle_consistent hs now

/-- The result is computed from the front of the list that is left. -/
theorem EventLoop.timeout_runTimers (s : EventLoop I) (now : UInt64)
    (handler : List (TimerCall I)) :
    (s.runTimers now handler).timeout = clampTimeout
      (match (s.runTimers now handler).loop.mTimers with
        | [] => WAIT_TIME
        | front :: _ => toInt32
            ((s.runTimers now handler).loop.getExpiry front - now)) := by
  unfold EventLoop.runTimers
  cases hlist : s.mTimers with
  | nil => simp [hlist]
  | cons front rest =>
      by_cases hdue : s.getExpiry front ≤ now
      · simp only [hdue, ↓reduceIte]
        rfl
      · simp [hdue, hlist]

/-- The expiries after the firing of a due front timer. -/
theorem EventLoop.map_getExpiry_fire {s : EventLoop I} (hs : s.Consistent)
    (now : UInt64) {front : I} {rest : List I}
    (hlist : s.mTimers = front :: rest) :
    rest.map (s.fire now front []).loop.getExpiry = rest.map s.getExpiry := by
  have hnot : front ∉ rest := (List.nodup_cons.mp (hlist ▸ hs.nodup)).1
  apply List.map_congr_left
  intro other hother
  have hne : other ≠ front := fun h => hnot (h ▸ hother)
  rw [EventLoop.getExpiry, s.fire_idle_other now hne]
  rfl

/-- `remaining` lists the expiries of the timers that are left. -/
theorem EventLoop.remaining_perm {s : EventLoop I} (hs : s.Consistent)
    (now : UInt64) :
    (s.runTimers now []).expiries.Perm (s.remaining now) := by
  unfold RunTimers.expiries EventLoop.runTimers EventLoop.remaining
  cases hlist : s.mTimers with
  | nil => simp [hlist]
  | cons front rest =>
      by_cases hdue : s.getExpiry front ≤ now
      · simp only [hdue, ↓reduceIte]
        refine ((EventLoop.fire_idle_perm now hlist).map _).trans
          (List.Perm.of_eq ?_)
        have hrest := EventLoop.map_getExpiry_fire hs now hlist
        cases hrepeat : (s.timer front).mRepeat with
        | true =>
            have hfront : (s.fire now front []).loop.getExpiry front =
                s.getExpiry front + (s.timer front).mInterval.toUInt64 := by
              rw [EventLoop.getExpiry, EventLoop.fire_idle_self now hrepeat]
              rfl
            simp [hrest, hfront]
        | false => simp [hrest]
      · simp [hdue, hlist]

/-- For every list that the program's operations lead to and every reading: the
value of `runTimers` is right exactly when the distance from the reading to the
smallest remaining expiry survives the narrowing to 32 bits. -/
theorem runTimers_wait_iff (handler : I → Bool) (expiry : I → UInt64)
    (steps : List (IdleStep I)) (now : UInt64) :
    ((EventLoop.reached handler expiry steps).runTimers now []).WaitExact now ↔
      ∀ smallest,
        IsSmallest ((EventLoop.reached handler expiry steps).remaining now)
          smallest →
        TruncationHarmless ((smallest.toNat : Int) - now.toNat) := by
  have hs := EventLoop.reached_consistent handler expiry steps
  have hperm := EventLoop.remaining_perm hs now
  simp only [← IsSmallest.perm_iff hperm]
  apply RunTimers.waitExact_iff
  · exact (EventLoop.runTimers_idle_consistent hs now).sorted
  · exact EventLoop.timeout_runTimers _ now []

/-- One timer started with `TIMER_INFINITE`. -/
def infiniteTimer : List (IdleStep Nat) :=
  [.call (.start 0 TIMER_INFINITE false 0)]

/-- At reading 1 the distance is 2^64-2, which narrows to -2: the value is 0
although nothing is due. -/
theorem infiniteTimer_not_waitExact :
    ¬ ((EventLoop.reached (fun _ => true) (fun _ => 0)
      infiniteTimer).runTimers 1 []).WaitExact 1 := by
  intro hround
  obtain ⟨id, hid, hdue⟩ := hround.zero_due (by decide)
  have hleft : ((EventLoop.reached (fun _ => true) (fun _ => 0)
      infiniteTimer).runTimers 1 []).loop.mTimers = [0] := by decide
  obtain rfl : id = 0 := by simpa [hleft] using hid
  exact absurd hdue (by decide)

end MyDirectFB

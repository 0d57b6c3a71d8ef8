/-
What the loop `while((timeToWait = runTimers()) == 0)` does to a list of timers
whose handlers leave the timers alone.  The measure of the loop is the backlog:
the handler calls that are still due at the clock reading of the drain.  One
round makes the first of them and lowers the backlog by one.
-/
import MyDirectFB.TimerQueue
import Mathlib.Algebra.BigOperators.Group.List.Basic

namespace MyDirectFB

universe u

/-- The handler calls a timer with this state still owes at `now`. -/
def Timer.backlog (now : UInt64) (timer : Timer) : Nat :=
  if timer.mExpiry ≤ now then
    if timer.mRepeat then
      (now.toNat - timer.mExpiry.toNat) / timer.mInterval.toNat + 1
    else 1
  else 0

/-- The first expiry of a repeating timer that is not due any more, as an
unbounded number. -/
def Timer.nextExpiry (now : UInt64) (timer : Timer) : Nat :=
  timer.mExpiry.toNat + timer.backlog now * timer.mInterval.toNat

theorem Timer.backlog_eq_zero_iff (now : UInt64) (timer : Timer) :
    timer.backlog now = 0 ↔ now < timer.mExpiry := by
  unfold Timer.backlog
  by_cases hdue : timer.mExpiry ≤ now
  · simp only [hdue, ↓reduceIte]
    constructor
    · intro hzero
      split at hzero <;> simp at hzero
    · intro hlater
      exact absurd hdue (UInt64.not_le.mpr hlater)
  · simpa [hdue] using UInt64.not_le.mp hdue

theorem Timer.backlog_oneShot {now : UInt64} {timer : Timer}
    (hdue : timer.mExpiry ≤ now) (hrepeat : timer.mRepeat = false) :
    timer.backlog now = 1 := by
  simp [Timer.backlog, hdue, hrepeat]

/-- One firing of a repeating timer pays one call of its backlog. -/
theorem Timer.backlog_advance {now : UInt64} {timer : Timer}
    (hdue : timer.mExpiry ≤ now) (hrepeat : timer.mRepeat = true)
    (hinterval : 1 ≤ timer.mInterval.toNat)
    (hfits : timer.mExpiry.toNat + timer.mInterval.toNat < 2 ^ 64) :
    Timer.backlog now { timer with
      mExpiry := timer.mExpiry + timer.mInterval.toUInt64 } + 1 =
        timer.backlog now := by
  have hexpiry : (timer.mExpiry + timer.mInterval.toUInt64).toNat =
      timer.mExpiry.toNat + timer.mInterval.toNat := by
    rw [UInt64.toNat_add, UInt32.toNat_toUInt64, Nat.mod_eq_of_lt hfits]
  simp only [Timer.backlog, hdue, hrepeat, ↓reduceIte,
    @UInt64.le_iff_toNat_le _ now, hexpiry]
  split
  · rename_i hagain
    rw [← Nat.sub_sub, ← Nat.div_eq_sub_div (by omega) (by omega)]
  · rw [Nat.div_eq_of_lt (by omega)]

/-! ### The timeout -/

/-- Between two readings less than 2^31 ms apart the narrowing conversion of
the unsigned difference is the difference over the integers. -/
theorem toInt32_sub {expiry now : UInt64}
    (hbehind : now.toNat ≤ expiry.toNat + (2 ^ 31 - 1))
    (hahead : expiry.toNat ≤ now.toNat + (2 ^ 31 - 1)) :
    toInt32 (expiry - now) = (expiry.toNat : Int) - now.toNat := by
  have hexpiry := expiry.toNat_lt
  have hnow := now.toNat_lt
  unfold toInt32
  rw [UInt64.toNat_sub, Int.bmod_def]
  split <;> omega

theorem clampTimeout_eq_zero_iff (timeout : Int) :
    clampTimeout timeout = 0 ↔ timeout ≤ 0 := by
  unfold clampTimeout WAIT_TIME
  split
  · omega
  · split <;> omega

/-! ### One round -/

variable {I : Type u}

/-- The lists a drain at `now` can start from: sorted, free of duplicates, with
intervals and distances to `now` below 2^31 ms and no expiry that wraps around
2^64 on its way past `now`. -/
structure EventLoop.Drainable (s : EventLoop I) (now : UInt64) : Prop where
  sorted : s.Sorted
  nodup : s.mTimers.Nodup
  interval : ∀ id ∈ s.mTimers, 1 ≤ (s.timer id).mInterval.toNat ∧
    (s.timer id).mInterval.toNat ≤ 2 ^ 31 - 1
  near : ∀ id ∈ s.mTimers,
    now.toNat ≤ (s.getExpiry id).toNat + (2 ^ 31 - 1) ∧
      (s.getExpiry id).toNat ≤ now.toNat + (2 ^ 31 - 1)
  fits : ∀ id ∈ s.mTimers, (s.timer id).mRepeat = true →
    (s.timer id).nextExpiry now < 2 ^ 64

/-- The whole backlog of the list. -/
def EventLoop.backlog (s : EventLoop I) (now : UInt64) : Nat :=
  (s.mTimers.map fun id => (s.timer id).backlog now).sum

theorem EventLoop.Drainable.timeout_eq_zero_iff {s : EventLoop I} {now : UInt64}
    (hs : s.Drainable now) {front : I} {rest : List I}
    (hlist : s.mTimers = front :: rest) :
    clampTimeout (toInt32 (s.getExpiry front - now)) = 0 ↔
      s.getExpiry front ≤ now := by
  obtain ⟨hbehind, hahead⟩ := hs.near front (by simp [hlist])
  rw [clampTimeout_eq_zero_iff, toInt32_sub hbehind hahead,
    UInt64.le_iff_toNat_le]
  omega

/-- When the front of a sorted list is not due, nothing is. -/
theorem EventLoop.Sorted.later_of_front {s : EventLoop I} (hs : s.Sorted)
    {now : UInt64} {front : I} {rest : List I}
    (hlist : s.mTimers = front :: rest) (hlater : now < s.getExpiry front) :
    ∀ id ∈ s.mTimers, now < s.getExpiry id := by
  intro id hid
  unfold EventLoop.Sorted at hs
  rw [hlist] at hs hid
  rcases List.mem_cons.mp hid with rfl | hrest
  · exact hlater
  · exact UInt64.lt_of_lt_of_le hlater (List.rel_of_pairwise_cons hs hrest)

section

variable [DecidableEq I]

theorem EventLoop.fire_idle_timer (s : EventLoop I) (now : UInt64) (id : I) :
    (s.fire now id []).loop.timer = (Timer.rearm s id).1.timer := by
  have hcall : Timer.callHandler s id [] = s := by simp [Timer.callHandler]
  simp only [EventLoop.fire, Timer.execute, hcall, EventLoop.timer_sortTimers]
  split
  · rfl
  · exact EventLoop.timer_popIfFront _ _

theorem EventLoop.fire_idle_other (s : EventLoop I) (now : UInt64) {id other : I}
    (hne : other ≠ id) :
    (s.fire now id []).loop.timer other = s.timer other := by
  rw [s.fire_idle_timer, Timer.rearm]
  cases (s.timer id).mRepeat <;> exact s.timer_set_of_ne _ hne

theorem EventLoop.fire_idle_self {s : EventLoop I} (now : UInt64) {id : I}
    (hrepeat : (s.timer id).mRepeat = true) :
    (s.fire now id []).loop.timer id = { s.timer id with
      mExpiry := (s.timer id).mExpiry + (s.timer id).mInterval.toUInt64 } := by
  simp [s.fire_idle_timer, Timer.rearm, hrepeat]

/-- The round of a due front timer keeps it in the list if it repeats and takes
it out otherwise. -/
theorem EventLoop.fire_idle_perm {s : EventLoop I} (now : UInt64) {id : I}
    {rest : List I} (hlist : s.mTimers = id :: rest) :
    (s.fire now id []).loop.mTimers.Perm
      (if (s.timer id).mRepeat then id :: rest else rest) := by
  have hcall : Timer.callHandler s id [] = s := by simp [Timer.callHandler]
  refine (EventLoop.perm_sortTimers _).trans (List.Perm.of_eq ?_)
  cases hrepeat : (s.timer id).mRepeat with
  | true => simp [Timer.execute, hcall, Timer.rearm, hrepeat, hlist]
  | false =>
      simp [Timer.execute, hcall, Timer.rearm, hrepeat, hlist,
        EventLoop.mTimers_popIfFront]

theorem EventLoop.mem_fire_idle {s : EventLoop I} (hnodup : s.mTimers.Nodup)
    (now : UInt64) {id : I} {rest : List I} (hlist : s.mTimers = id :: rest)
    (other : I) :
    other ∈ (s.fire now id []).loop.mTimers ↔
      other ∈ s.mTimers ∧ (other = id → (s.timer id).mRepeat = true) := by
  have hnot : id ∉ rest := (List.nodup_cons.mp (hlist ▸ hnodup)).1
  rw [(EventLoop.fire_idle_perm now hlist).mem_iff, hlist]
  by_cases hother : other = id
  · subst other
    cases hrepeat : (s.timer id).mRepeat <;> simp [hnot]
  · cases hrepeat : (s.timer id).mRepeat <;> simp [hother]

/-- What the advanced expiry of the fired timer is, and where it lies. -/
theorem EventLoop.Drainable.advanced {s : EventLoop I} {now : UInt64}
    (hs : s.Drainable now) {id : I} (hid : id ∈ s.mTimers)
    (hdue : s.getExpiry id ≤ now) (hrepeat : (s.timer id).mRepeat = true) :
    ((s.fire now id []).loop.getExpiry id).toNat =
        (s.getExpiry id).toNat + (s.timer id).mInterval.toNat ∧
      ((s.fire now id []).loop.timer id).backlog now + 1 =
        (s.timer id).backlog now := by
  have hpositive : 1 ≤ (s.timer id).backlog now := by
    have hzero := mt (Timer.backlog_eq_zero_iff now (s.timer id)).mp
      (UInt64.not_lt.mpr hdue)
    omega
  have hfits : (s.timer id).mExpiry.toNat + (s.timer id).mInterval.toNat <
      2 ^ 64 := by
    refine Nat.lt_of_le_of_lt ?_ (hs.fits id hid hrepeat)
    exact Nat.add_le_add_left (Nat.le_mul_of_pos_left _ hpositive) _
  constructor
  · rw [EventLoop.getExpiry, EventLoop.fire_idle_self now hrepeat]
    change ((s.timer id).mExpiry + (s.timer id).mInterval.toUInt64).toNat = _
    rw [UInt64.toNat_add, UInt32.toNat_toUInt64, Nat.mod_eq_of_lt hfits]
    rfl
  · rw [EventLoop.fire_idle_self now hrepeat]
    exact Timer.backlog_advance hdue hrepeat (hs.interval id hid).1 hfits

/-- Where the expiries of a repeating timer lead to does not change. -/
theorem EventLoop.Drainable.nextExpiry_fire {s : EventLoop I} {now : UInt64}
    (hs : s.Drainable now) {id : I} (hid : id ∈ s.mTimers)
    (hdue : s.getExpiry id ≤ now) (hrepeat : (s.timer id).mRepeat = true) :
    ((s.fire now id []).loop.timer id).nextExpiry now =
      (s.timer id).nextExpiry now := by
  obtain ⟨hexpiry, hbacklog⟩ := hs.advanced hid hdue hrepeat
  have hinterval : ((s.fire now id []).loop.timer id).mInterval =
      (s.timer id).mInterval := by
    rw [EventLoop.fire_idle_self now hrepeat]
  rw [EventLoop.getExpiry] at hexpiry
  rw [Timer.nextExpiry, Timer.nextExpiry, ← hbacklog, hexpiry, hinterval,
    EventLoop.getExpiry, Nat.succ_mul]
  omega

theorem EventLoop.Drainable.fire {s : EventLoop I} {now : UInt64}
    (hs : s.Drainable now) {id : I} {rest : List I}
    (hlist : s.mTimers = id :: rest) (hdue : s.getExpiry id ≤ now) :
    (s.fire now id []).loop.Drainable now := by
  have hid : id ∈ s.mTimers := by simp [hlist]
  have hmem := EventLoop.mem_fire_idle hs.nodup now hlist
  have hle := UInt64.le_iff_toNat_le.mp hdue
  refine ⟨EventLoop.sortTimers_sorted _, ?_, ?_, ?_, ?_⟩
  · rw [(EventLoop.fire_idle_perm now hlist).nodup_iff]
    have hnodup : (id :: rest).Nodup := hlist ▸ hs.nodup
    split
    · exact hnodup
    · exact hnodup.of_cons
  · intro other hother
    obtain ⟨hold, hself⟩ := (hmem other).mp hother
    by_cases hne : other = id
    · subst other
      rw [EventLoop.fire_idle_self now (hself rfl)]
      exact hs.interval id hid
    · rw [s.fire_idle_other now hne]
      exact hs.interval other hold
  · intro other hother
    obtain ⟨hold, hself⟩ := (hmem other).mp hother
    by_cases hne : other = id
    · subst other
      have hadvanced := (hs.advanced hid hdue (hself rfl)).1
      have hnear := hs.near id hid
      have hinterval := hs.interval id hid
      omega
    · rw [EventLoop.getExpiry, s.fire_idle_other now hne]
      exact hs.near other hold
  · intro other hother hrepeat
    obtain ⟨hold, hself⟩ := (hmem other).mp hother
    by_cases hne : other = id
    · subst other
      rw [hs.nextExpiry_fire hid hdue (hself rfl)]
      exact hs.fits id hid (hself rfl)
    · rw [s.fire_idle_other now hne] at hrepeat ⊢
      exact hs.fits other hold hrepeat

theorem EventLoop.backlog_fire_idle {s : EventLoop I} {now : UInt64}
    (hs : s.Drainable now) {id : I} {rest : List I}
    (hlist : s.mTimers = id :: rest) (hdue : s.getExpiry id ≤ now) :
    (s.fire now id []).loop.backlog now + 1 = s.backlog now := by
  have hnot : id ∉ rest := (List.nodup_cons.mp (hlist ▸ hs.nodup)).1
  have hrest : (rest.map fun other =>
      ((s.fire now id []).loop.timer other).backlog now) =
        rest.map fun other => (s.timer other).backlog now := by
    refine List.map_congr_left fun other hother => ?_
    have hne : other ≠ id := fun h => hnot (h ▸ hother)
    rw [s.fire_idle_other now hne]
  have hperm := (EventLoop.fire_idle_perm now hlist).map fun other =>
    ((s.fire now id []).loop.timer other).backlog now
  unfold EventLoop.backlog
  rw [hperm.sum_eq, hlist]
  cases hrepeat : (s.timer id).mRepeat with
  | true =>
      have hadvanced := (hs.advanced (by simp [hlist]) hdue hrepeat).2
      simp only [↓reduceIte, List.map_cons, List.sum_cons, hrest]
      omega
  | false =>
      simp only [Bool.false_eq_true, ↓reduceIte, List.map_cons, List.sum_cons,
        hrest, Timer.backlog_oneShot hdue hrepeat]
      omega

theorem EventLoop.mHandler_fire_idle (s : EventLoop I) (now : UInt64)
    (id other : I) : ((s.fire now id []).loop.timer other).mHandler =
      (s.timer other).mHandler := by
  by_cases hother : other = id
  · subst other
    rw [s.fire_idle_timer, Timer.rearm]
    cases (s.timer id).mRepeat <;> simp
  · rw [s.fire_idle_other now hother]

/-- Expiries only move forward. -/
theorem EventLoop.Drainable.le_getExpiry_fire {s : EventLoop I} {now : UInt64}
    (hs : s.Drainable now) {id : I} {rest : List I}
    (hlist : s.mTimers = id :: rest) (hdue : s.getExpiry id ≤ now) {other : I}
    (hother : other ∈ (s.fire now id []).loop.mTimers) :
    s.getExpiry other ≤ (s.fire now id []).loop.getExpiry other := by
  have hself := ((EventLoop.mem_fire_idle hs.nodup now hlist other).mp hother).2
  by_cases hne : other = id
  · subst other
    have hadvanced := hs.advanced (by simp [hlist]) hdue (hself rfl)
    rw [UInt64.le_iff_toNat_le, hadvanced.1]
    omega
  · rw [EventLoop.getExpiry, EventLoop.getExpiry, s.fire_idle_other now hne]
    exact UInt64.le_refl _

/-! ### The whole drain -/

/-- The effect of draining `s` at `now` with the result `r`. -/
structure EventLoop.Drained (s : EventLoop I) (now : UInt64) (r : RunTimers I) :
    Prop where
  calls : ∀ id, (r.called.map HandlerCall.id).count id =
    if id ∈ s.mTimers ∧ (s.timer id).mHandler = true
    then (s.timer id).backlog now else 0
  ordered : r.called.Pairwise fun first second => first.expiry ≤ second.expiry
  remaining : ∀ id, id ∈ r.loop.mTimers ↔
    id ∈ s.mTimers ∧ ((s.timer id).mRepeat = true ∨ now < s.getExpiry id)
  nodup : r.loop.mTimers.Nodup
  later : ∀ id ∈ r.loop.mTimers, now < r.loop.getExpiry id

/-- No call of `called` has an expiry before the first one in the list. -/
def EventLoop.CallsFrom (s : EventLoop I) (called : List (HandlerCall I)) :
    Prop :=
  ∀ bound, (∀ id ∈ s.mTimers, bound ≤ s.getExpiry id) →
    ∀ call ∈ called, bound ≤ call.expiry

/-- With nothing due the drain is over and has made no call. -/
theorem EventLoop.Drained.idle {s : EventLoop I} {now : UInt64}
    (hnodup : s.mTimers.Nodup)
    (hlater : ∀ id ∈ s.mTimers, now < s.getExpiry id) (timeout : Int)
    (frontOfEmpty : Bool) : s.Drained now ⟨s, timeout, [], frontOfEmpty⟩ where
  calls id := by
    by_cases hid : id ∈ s.mTimers
    · have hzero := (Timer.backlog_eq_zero_iff now (s.timer id)).mpr
        (hlater id hid)
      simp [hzero]
    · simp [hid]
  ordered := List.Pairwise.nil
  remaining id := ⟨fun hid => ⟨hid, Or.inr (hlater id hid)⟩, And.left⟩
  nodup := hnodup
  later := hlater

section Round

variable {s : EventLoop I} {now : UInt64} {id : I} {rest : List I}

theorem EventLoop.mem_called_fire {call : HandlerCall I}
    (hcall : call ∈ (s.fire now id []).called) : call = ⟨id, s.getExpiry id⟩ := by
  simp only [EventLoop.fire] at hcall
  split at hcall
  · exact List.mem_singleton.mp hcall
  · simp at hcall

/-- A round makes one call of the backlog of its timer. -/
theorem EventLoop.Drainable.count_called_fire (hs : s.Drainable now)
    (hlist : s.mTimers = id :: rest) (hdue : s.getExpiry id ≤ now)
    {called : List (HandlerCall I)}
    (hcalls : ∀ other, (called.map HandlerCall.id).count other =
      if other ∈ (s.fire now id []).loop.mTimers ∧
        ((s.fire now id []).loop.timer other).mHandler = true
      then ((s.fire now id []).loop.timer other).backlog now else 0)
    (other : I) :
    (((s.fire now id []).called ++ called).map HandlerCall.id).count other =
      if other ∈ s.mTimers ∧ (s.timer other).mHandler = true
      then (s.timer other).backlog now else 0 := by
  have hid : id ∈ s.mTimers := by simp [hlist]
  have hcalled : (s.fire now id []).called =
      if (s.timer id).mHandler then [⟨id, s.getExpiry id⟩] else [] := rfl
  have hcount := hcalls other
  simp only [s.mHandler_fire_idle now,
    EventLoop.mem_fire_idle hs.nodup now hlist other] at hcount
  rw [List.map_append, List.count_append, hcount, hcalled]
  by_cases hne : other = id
  · subst other
    cases hhandler : (s.timer id).mHandler with
    | false => simp
    | true =>
        cases hrepeat : (s.timer id).mRepeat with
        | true =>
            have hbacklog := (hs.advanced hid hdue hrepeat).2
            simp only [↓reduceIte, List.map_cons, List.map_nil,
              List.count_singleton_self, hid, imp_self, and_self]
            omega
        | false => simp [hid, Timer.backlog_oneShot hdue hrepeat]
  · rw [s.fire_idle_other now hne]
    split <;> simp [hne, Ne.symm hne]

/-- A round calls the timer with the first expiry, and none of the later calls
has an earlier one. -/
theorem EventLoop.Drainable.ordered_fire (hs : s.Drainable now)
    (hlist : s.mTimers = id :: rest) (hdue : s.getExpiry id ≤ now)
    {called : List (HandlerCall I)}
    (hordered : called.Pairwise fun first second =>
      first.expiry ≤ second.expiry)
    (hfrom : (s.fire now id []).loop.CallsFrom called) :
    ((s.fire now id []).called ++ called).Pairwise fun first second =>
      first.expiry ≤ second.expiry := by
  rw [List.pairwise_append]
  refine ⟨?_, hordered, ?_⟩
  · simp only [EventLoop.fire]
    split <;> simp
  · intro first hfirst call hcall
    obtain rfl := EventLoop.mem_called_fire hfirst
    refine hfrom _ (fun other hother => ?_) call hcall
    refine UInt64.le_trans ?_ (hs.le_getExpiry_fire hlist hdue hother)
    have hmem := (EventLoop.mem_fire_idle hs.nodup now hlist other).mp hother
    have hsorted := hs.sorted
    unfold EventLoop.Sorted at hsorted
    rw [hlist] at hsorted
    rcases List.mem_cons.mp (hlist ▸ hmem.1) with rfl | hrest
    · exact UInt64.le_refl _
    · exact List.rel_of_pairwise_cons hsorted hrest

/-- The timers that are to remain after a round are to remain before it. -/
theorem EventLoop.Drainable.remaining_fire (hs : s.Drainable now)
    (hlist : s.mTimers = id :: rest) (hdue : s.getExpiry id ≤ now) (other : I) :
    other ∈ (s.fire now id []).loop.mTimers ∧
        (((s.fire now id []).loop.timer other).mRepeat = true ∨
          now < (s.fire now id []).loop.getExpiry other) ↔
      other ∈ s.mTimers ∧
        ((s.timer other).mRepeat = true ∨ now < s.getExpiry other) := by
  have hid : id ∈ s.mTimers := by simp [hlist]
  rw [EventLoop.mem_fire_idle hs.nodup now hlist other]
  by_cases hne : other = id
  · subst other
    cases hrepeat : (s.timer id).mRepeat with
    | true => simp [hid, EventLoop.fire_idle_self now hrepeat, hrepeat]
    | false => simpa using fun _ => hdue
  · rw [EventLoop.getExpiry, s.fire_idle_other now hne]
    simp [hne, EventLoop.getExpiry]

/-- A round with a due front timer, followed by a drain of what it leaves. -/
theorem EventLoop.Drained.fire (hs : s.Drainable now)
    (hlist : s.mTimers = id :: rest) (hdue : s.getExpiry id ≤ now)
    {r : RunTimers I} (hr : (s.fire now id []).loop.Drained now r)
    (hfrom : (s.fire now id []).loop.CallsFrom r.called) (frontOfEmpty : Bool) :
    s.Drained now { r with
      called := (s.fire now id []).called ++ r.called
      frontOfEmpty := frontOfEmpty } where
  calls := hs.count_called_fire hlist hdue hr.calls
  ordered := hs.ordered_fire hlist hdue hr.ordered hfrom
  remaining other := (hr.remaining other).trans
    (hs.remaining_fire hlist hdue other)
  nodup := hr.nodup
  later := hr.later

end Round

theorem EventLoop.CallsFrom.fire {s : EventLoop I} {now : UInt64}
    (hs : s.Drainable now) {id : I} {rest : List I}
    (hlist : s.mTimers = id :: rest) (hdue : s.getExpiry id ≤ now)
    {called : List (HandlerCall I)}
    (hfrom : (s.fire now id []).loop.CallsFrom called) :
    s.CallsFrom ((s.fire now id []).called ++ called) := by
  intro bound hbound call hcall
  have hid : id ∈ s.mTimers := by simp [hlist]
  rcases List.mem_append.mp hcall with hfirst | hlater
  · obtain rfl := EventLoop.mem_called_fire hfirst
    exact hbound id hid
  · refine hfrom bound (fun other hother => ?_) call hlater
    have hold := ((EventLoop.mem_fire_idle hs.nodup now hlist other).mp hother).1
    exact UInt64.le_trans (hbound other hold)
      (hs.le_getExpiry_fire hlist hdue hother)

/-- After a round whose result is not 0 no timer is due. -/
theorem EventLoop.later_of_timeout_fire {s : EventLoop I} {now : UInt64}
    (hs : s.Drainable now) {id : I} {rest : List I}
    (hlist : s.mTimers = id :: rest) (hdue : s.getExpiry id ≤ now)
    (htimeout : (s.fire now id []).timeout ≠ 0) :
    ∀ other ∈ (s.fire now id []).loop.mTimers,
      now < (s.fire now id []).loop.getExpiry other := by
  have hloop := hs.fire hlist hdue
  cases hleft : (s.fire now id []).loop.mTimers with
  | nil => simp
  | cons front others =>
      have hvalue : (s.fire now id []).timeout = clampTimeout
          (toInt32 ((s.fire now id []).loop.getExpiry front - now)) := by
        simp only [EventLoop.fire] at hleft ⊢
        rw [hleft]
      rw [hvalue, Ne, hloop.timeout_eq_zero_iff hleft, UInt64.not_le] at htimeout
      rw [← hleft]
      exact hloop.sorted.later_of_front hleft htimeout

theorem EventLoop.drainTimers_of_timeout_ne {s : EventLoop I} {now : UInt64}
    (htimeout : (s.runTimers now []).timeout ≠ 0) :
    EventLoop.drainTimers now 1 s = some (s.runTimers now []) := by
  simp [EventLoop.drainTimers, htimeout]

/-- The drain loop ends, and its effect is that of `Drained`.  The induction is
on the backlog, which every due round lowers. -/
theorem EventLoop.drainTimers_drained {s : EventLoop I} {now : UInt64}
    (hs : s.Drainable now) :
    ∃ fuel r, EventLoop.drainTimers now fuel s = some r ∧ s.Drained now r ∧
      s.CallsFrom r.called := by
  induction hbacklog : s.backlog now using Nat.strong_induction_on
    generalizing s with
  | h n ih =>
      have hidle (timeout : Int) (hnone : ∀ id ∈ s.mTimers, now < s.getExpiry id)
          (hround : s.runTimers now [] = ⟨s, timeout, [], false⟩)
          (htimeout : timeout ≠ 0) : ∃ fuel r,
            EventLoop.drainTimers now fuel s = some r ∧ s.Drained now r ∧
              s.CallsFrom r.called := by
        refine ⟨1, _, EventLoop.drainTimers_of_timeout_ne ?_, ?_, ?_⟩
        · rwa [hround]
        · rw [hround]
          exact EventLoop.Drained.idle hs.nodup hnone _ _
        · rw [hround]
          exact fun _ _ _ hcall => absurd hcall List.not_mem_nil
      cases hlist : s.mTimers with
      | nil =>
          exact hidle (clampTimeout WAIT_TIME) (by simp [hlist])
            (by simp [EventLoop.runTimers, hlist]) (by decide)
      | cons front rest =>
          by_cases hdue : s.getExpiry front ≤ now
          · have hround : s.runTimers now [] = s.fire now front [] := by
              simp [EventLoop.runTimers, hlist, hdue]
            by_cases htimeout : (s.fire now front []).timeout = 0
            · have hless := EventLoop.backlog_fire_idle hs hlist hdue
              obtain ⟨fuel, r, hdrain, hr, hfrom⟩ :=
                ih _ (by omega) (hs.fire hlist hdue) rfl
              refine ⟨fuel + 1, { r with
                called := (s.fire now front []).called ++ r.called
                frontOfEmpty :=
                  (s.fire now front []).frontOfEmpty || r.frontOfEmpty },
                ?_, EventLoop.Drained.fire hs hlist hdue hr hfrom _,
                hfrom.fire hs hlist hdue⟩
              simp [EventLoop.drainTimers, hround, htimeout, hdrain]
            · have hlater :=
                EventLoop.later_of_timeout_fire hs hlist hdue htimeout
              have hnothing : (s.fire now front []).loop.CallsFrom [] :=
                fun _ _ _ hcall => absurd hcall List.not_mem_nil
              have hdrained := EventLoop.Drained.fire hs hlist hdue
                (EventLoop.Drained.idle (hs.fire hlist hdue).nodup hlater
                  (s.fire now front []).timeout false) hnothing
                (s.fire now front []).frontOfEmpty
              have hfrom := hnothing.fire hs hlist hdue
              simp only [List.append_nil] at hdrained hfrom
              rw [← hround] at htimeout hdrained hfrom
              exact ⟨1, _, EventLoop.drainTimers_of_timeout_ne htimeout,
                hdrained, hfrom⟩
          · have hlater : now < s.getExpiry front := UInt64.not_le.mp hdue
            refine hidle _ (hs.sorted.later_of_front hlist hlater)
              (by simp [EventLoop.runTimers, hlist, hdue]; rfl) ?_
            rwa [Ne, hs.timeout_eq_zero_iff hlist]

/-! ### Lists built by `Timer::start` -/

/-- One call `start(msec, isRepeat)` on the timer `id` at the reading `now`. -/
structure StartCall (I : Type u) where
  id : I
  msec : UInt32
  isRepeat : Bool
  now : UInt64
deriving Repr, DecidableEq

/-- The timers after a sequence of starts. -/
def EventLoop.started (handler : I → Bool) (expiry : I → UInt64)
    (starts : List (StartCall I)) : EventLoop I :=
  starts.foldl
    (fun s call => Timer.start s call.id call.msec call.isRepeat call.now)
    (EventLoop.init handler expiry)

theorem EventLoop.started_consistent (handler : I → Bool) (expiry : I → UInt64)
    (starts : List (StartCall I)) :
    (EventLoop.started handler expiry starts).Consistent := by
  suffices h : ∀ s : EventLoop I, s.Consistent → (starts.foldl
      (fun s call => Timer.start s call.id call.msec call.isRepeat call.now)
      s).Consistent from h _ (EventLoop.init_consistent handler expiry)
  induction starts with
  | nil => exact fun s hs => hs
  | cons call rest ih =>
      exact fun s hs => ih _ (Timer.start_consistent hs _ _ _ _)

/-- Intervals from 1 to 2^31-1 ms and expiries within 2^31-1 ms of `now`. -/
structure EventLoop.InRange (s : EventLoop I) (now : UInt64) : Prop where
  interval : ∀ id ∈ s.mTimers, 1 ≤ (s.timer id).mInterval.toNat ∧
    (s.timer id).mInterval.toNat ≤ 2 ^ 31 - 1
  near : ∀ id ∈ s.mTimers,
    now.toNat ≤ (s.getExpiry id).toNat + (2 ^ 31 - 1) ∧
      (s.getExpiry id).toNat ≤ now.toNat + (2 ^ 31 - 1)

/-- Draining a list of started timers terminates, makes exactly the calls that
are due, in order, and leaves the repeating timers and the one-shot timers that
were not due, provided no repeating timer's expiry wraps around 2^64 on its way
past `now`. -/
theorem EventLoop.drainTimers_started (handler : I → Bool) (expiry : I → UInt64)
    (starts : List (StartCall I)) (now : UInt64)
    (hrange : (EventLoop.started handler expiry starts).InRange now)
    (hfits : ∀ id ∈ (EventLoop.started handler expiry starts).mTimers,
      ((EventLoop.started handler expiry starts).timer id).mRepeat = true →
        ((EventLoop.started handler expiry starts).timer id).nextExpiry now <
          2 ^ 64) :
    ∃ fuel r,
      EventLoop.drainTimers now fuel
          (EventLoop.started handler expiry starts) = some r ∧
        (EventLoop.started handler expiry starts).Drained now r := by
  have hs := EventLoop.started_consistent handler expiry starts
  obtain ⟨fuel, r, hdrain, hr, -⟩ := EventLoop.drainTimers_drained
    ⟨hs.sorted, hs.nodup, hrange.interval, hrange.near, hfits⟩
  exact ⟨fuel, r, hdrain, hr⟩

end

/-- A repeating and a one-shot timer that are both overdue at 1000. -/
theorem EventLoop.drainTimers_started_two :
    ∃ fuel r,
      EventLoop.drainTimers 1000 fuel (EventLoop.started (fun _ => true)
          (fun _ => 0) [⟨0, 300, true, 0⟩, ⟨1, 500, false, 0⟩]) = some r ∧
        (EventLoop.started (I := Nat) (fun _ => true) (fun _ => 0)
          [⟨0, 300, true, 0⟩, ⟨1, 500, false, 0⟩]).Drained 1000 r :=
  EventLoop.drainTimers_started _ _ _ _ ⟨by decide, by decide⟩ (by decide)

/-- A wrap needs a reading in the last 2^31 ms of the 64-bit range: before them every
timer meets the condition of a drain. -/
theorem Timer.nextExpiry_lt_of_now_le {now : UInt64} {timer : Timer}
    (hinterval : timer.mInterval.toNat ≤ 2 ^ 31 - 1)
    (hnow : now.toNat ≤ 2 ^ 64 - 2 ^ 31) (hrepeat : timer.mRepeat = true) :
    timer.nextExpiry now < 2 ^ 64 := by
  have hexpiry := timer.mExpiry.toNat_lt
  unfold Timer.nextExpiry Timer.backlog
  by_cases hdue : timer.mExpiry ≤ now
  · have hle := UInt64.le_iff_toNat_le.mp hdue
    have hmul := Nat.div_mul_le_self (now.toNat - timer.mExpiry.toNat)
      timer.mInterval.toNat
    simp only [hdue, hrepeat, ↓reduceIte, Nat.succ_mul]
    omega
  · simpa [hdue] using hexpiry

/-- The reading 2^64-1 of a valid monotonic clock. -/
def lastTick : Timespec :=
  ⟨18446744073709551, 615000000, by decide, by decide⟩

/-- A repeating timer started one millisecond before the last reading. -/
def wrapping : EventLoop Nat :=
  EventLoop.started (fun _ => true) (fun _ => 0)
    [⟨0, 1, true, 18446744073709551614⟩]

/-- At the last reading the timer is due, its expiry wraps to 0, and the loop
ends with the timer still due. -/
theorem EventLoop.drainTimers_wrapping :
    wrapping.InRange (getTickCountMs lastTick) ∧
      ¬ ∃ fuel r,
        EventLoop.drainTimers (getTickCountMs lastTick) fuel wrapping = some r ∧
          wrapping.Drained (getTickCountMs lastTick) r := by
  refine ⟨⟨by decide, by decide⟩, ?_⟩
  rintro ⟨fuel, r, hdrain, hr⟩
  cases fuel with
  | zero => simp [EventLoop.drainTimers] at hdrain
  | succ fuel =>
      have htimeout : (wrapping.runTimers (getTickCountMs lastTick) []).timeout ≠
        0 := by decide
      simp only [EventLoop.drainTimers, htimeout, ↓reduceIte,
        Option.some.injEq] at hdrain
      subst hdrain
      exact absurd (hr.later 0 (by decide)) (by decide)

end MyDirectFB

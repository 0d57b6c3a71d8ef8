/-
What has held since: an event of a list after which only events of one kind have
come.  A flag that some events raise and all but a kind of events lower is up
exactly if it has been raised and not lowered since.  A counter that does not go
below zero has what has been added in excess of what has been taken away, in the
last part of the events where that is most.
-/
import Mathlib.Data.List.Induction

universe u v

/-- An event that begins it has come, and since then only events that keep it. -/
def Since {A : Type u} (begun kept : A → Prop) (events : List A) : Prop :=
  ∃ before event rest, events = before ++ event :: rest ∧ begun event ∧
    ∀ later ∈ rest, kept later

namespace Since

variable {A : Type u} {begun kept : A → Prop} {events : List A}

theorem not_nil : ¬ Since begun kept ([] : List A) := by
  rintro ⟨before, event, rest, heq, -⟩
  exact List.append_ne_nil_of_right_ne_nil before (List.cons_ne_nil event rest) heq.symm

/-- The last event begins it, or keeps it. -/
theorem append_singleton {last : A} :
    Since begun kept (events ++ [last]) ↔
      begun last ∨ kept last ∧ Since begun kept events := by
  constructor
  · rintro ⟨before, event, rest, heq, hbegun, hkept⟩
    rcases List.eq_nil_or_concat rest with rfl | ⟨rest, other, rfl⟩
    · obtain ⟨-, hlast⟩ := List.append_inj' heq rfl
      exact .inl (List.singleton_inj.mp hlast ▸ hbegun)
    · rw [List.concat_eq_append] at heq hkept
      rw [← List.cons_append, ← List.append_assoc] at heq
      obtain ⟨hevents, hlast⟩ := List.append_inj' heq rfl
      obtain rfl := List.singleton_inj.mp hlast
      exact .inr ⟨hkept last (List.mem_append_right _ List.mem_cons_self),
        before, event, rest, hevents, hbegun,
        fun later hlater => hkept later (List.mem_append_left _ hlater)⟩
  · rintro (hbegun | ⟨hkept, before, event, rest, rfl, hbegun, hrest⟩)
    · exact ⟨events, last, [], rfl, hbegun, fun later hlater => nomatch hlater⟩
    · refine ⟨before, event, rest ++ [last], by simp, hbegun, fun later hlater => ?_⟩
      rcases List.mem_append.mp hlater with hlater | hlater
      · exact hrest later hlater
      · exact List.mem_singleton.mp hlater ▸ hkept

/-- A flag of a state that every event raises, keeps or lowers. -/
theorem flag_iff {S : Type v} {step : S → A → S} {init : S} (flag : S → Prop)
    (hinit : ¬ flag init)
    (hstep : ∀ s event, flag (step s event) ↔ begun event ∨ kept event ∧ flag s)
    (events : List A) :
    flag (events.foldl step init) ↔ Since begun kept events := by
  induction events using List.reverseRecOn with
  | nil => exact iff_of_false hinit not_nil
  | append_singleton events last ih =>
      rw [List.foldl_append, List.foldl_cons, List.foldl_nil, hstep, ih,
        append_singleton]

end Since

/-- In some last part of the events there are more of one kind than of another, by more
than `n`. -/
def Surplus {A : Type u} (up down : A → Bool) (n : Nat) (events : List A) : Prop :=
  ∃ before rest, events = before ++ rest ∧ rest.countP down + n < rest.countP up

namespace Surplus

variable {A : Type u} {up down : A → Bool} {events : List A}

theorem not_nil (n : Nat) : ¬ Surplus up down n ([] : List A) := by
  rintro ⟨before, rest, heq, hmore⟩
  obtain ⟨-, rfl⟩ := List.append_eq_nil_iff.mp heq.symm
  exact Nat.not_lt_zero _ hmore

theorem append_singleton {last : A} {n : Nat} :
    Surplus up down n (events ++ [last]) ↔ ∃ before rest, events = before ++ rest ∧
      rest.countP down + (down last).toNat + n <
        rest.countP up + (up last).toNat := by
  have hcount (kind : A → Bool) (rest : List A) :
      (rest ++ [last]).countP kind = rest.countP kind + (kind last).toNat := by
    rw [List.countP_append, List.countP_singleton]
    cases kind last <;> rfl
  constructor
  · rintro ⟨before, rest, heq, hmore⟩
    rcases List.eq_nil_or_concat rest with rfl | ⟨rest, other, rfl⟩
    · exact absurd hmore (Nat.not_lt_zero _)
    · rw [List.concat_eq_append] at heq hmore
      rw [← List.append_assoc] at heq
      obtain ⟨hevents, hlast⟩ := List.append_inj' heq rfl
      obtain rfl := List.singleton_inj.mp hlast
      rw [hcount, hcount] at hmore
      exact ⟨before, rest, hevents, hmore⟩
  · rintro ⟨before, rest, rfl, hmore⟩
    refine ⟨before, rest ++ [last], by rw [List.append_assoc], ?_⟩
    rwa [hcount, hcount]

/-- A counter of a state, which stays at zero when there is nothing to take away. -/
theorem counter_iff {S : Type v} {step : S → A → S} {init : S} (counter : S → Nat)
    (hinit : counter init = 0)
    (hstep : ∀ s event, counter (step s event) =
      counter s + (up event).toNat - (down event).toNat)
    (events : List A) (n : Nat) :
    n < counter (events.foldl step init) ↔ Surplus up down n events := by
  induction events using List.reverseRecOn generalizing n with
  | nil =>
      rw [List.foldl_nil, hinit]
      exact iff_of_false (Nat.not_lt_zero n) (not_nil n)
  | append_singleton events last ih =>
      rw [List.foldl_append, List.foldl_cons, List.foldl_nil, hstep, append_singleton]
      cases hup : up last with
      | false =>
          have hmore := ih (n + (down last).toNat)
          rw [Bool.toNat_false, Nat.add_zero, Nat.lt_sub_iff_add_lt, hmore, Surplus]
          simp only [Nat.add_zero, Nat.add_right_comm, Nat.add_assoc, Nat.add_comm n]
      | true =>
          rw [Bool.toNat_true]
          constructor
          · intro hlt
            rcases Nat.eq_zero_or_pos (n + (down last).toNat) with hzero | hpos
            · exact ⟨events, [], (List.append_nil _).symm, by
                rw [List.countP_nil, List.countP_nil]
                omega⟩
            · obtain ⟨before, rest, hevents, hmore⟩ :=
                (ih (n + (down last).toNat - 1)).mp (by omega)
              exact ⟨before, rest, hevents, by omega⟩
          · rintro ⟨before, rest, hevents, hmore⟩
            rcases Nat.eq_zero_or_pos (n + (down last).toNat) with hzero | hpos
            · omega
            · have hlt := (ih (n + (down last).toNat - 1)).mpr
                ⟨before, rest, hevents, by omega⟩
              omega

end Surplus

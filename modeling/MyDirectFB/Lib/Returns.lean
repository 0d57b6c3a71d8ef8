/-
Computations that may end with a fault: when one returns, and when a loop of them
does.
-/
import Mathlib.Data.List.Basic

universe u v

/-- The computation ends with a value. -/
def Returns {ε : Type u} {α : Type v} (x : Except ε α) : Prop := ∃ a, x = .ok a

namespace Returns

variable {ε : Type u} {α β : Type v}

@[simp] theorem ok (a : α) : Returns (.ok a : Except ε α) := ⟨a, rfl⟩

@[simp] theorem not_error (fault : ε) : ¬ Returns (.error fault : Except ε α) := by
  rintro ⟨a, ha⟩
  cases ha

theorem bind_iff {x : Except ε α} {f : α → Except ε β} :
    Returns (x >>= f) ↔ ∃ a, x = .ok a ∧ Returns (f a) := by
  cases x with
  | error fault => exact iff_of_false (not_error fault) fun ⟨_, h, _⟩ => nomatch h
  | ok a =>
      constructor
      · exact fun hreturns => ⟨a, rfl, hreturns⟩
      · rintro ⟨b, hb, hreturns⟩
        obtain rfl := Except.ok.inj hb
        exact hreturns

@[simp] theorem ok_bind (a : α) (f : α → Except ε β) :
    Returns ((.ok a : Except ε α) >>= f) ↔ Returns (f a) := Iff.rfl

/-- Whether the rest returns need not depend on the value. -/
theorem bind_iff_and {x : Except ε α} {f : α → Except ε β} {Q : Prop}
    (hf : ∀ a, Returns (f a) ↔ Q) : Returns (x >>= f) ↔ Returns x ∧ Q := by
  rw [bind_iff]
  constructor
  · rintro ⟨a, ha, hreturns⟩
    exact ⟨⟨a, ha⟩, (hf a).mp hreturns⟩
  · rintro ⟨⟨a, ha⟩, hq⟩
    exact ⟨a, ha, (hf a).mpr hq⟩

theorem bind_iff_of_forall {x : Except ε α} {f : α → Except ε β}
    (hf : ∀ a, Returns (f a)) : Returns (x >>= f) ↔ Returns x := by
  rw [bind_iff_and fun a => iff_true_intro (hf a), and_true]

theorem bind_ok_iff {x : Except ε α} {f : α → β} :
    (Returns (x >>= fun a => .ok (f a))) ↔ Returns x :=
  bind_iff_of_forall fun a => ok (f a)

/-- A loop that stops at certain elements returns if what is done with the
elements before the first of them does. -/
theorem forIn_iff {σ : Type v} (stop : α → Bool) {Q : α → Prop}
    {body : α → σ → Except ε (ForInStep σ)} {xs : List α}
    (hstop : ∀ x ∈ xs, ∀ s, stop x = true → body x s = .ok (.done s))
    (hgo : ∀ x ∈ xs, ∀ s, stop x = false → (Returns (body x s) ↔ Q x))
    (hyield : ∀ x ∈ xs, ∀ s step, stop x = false → body x s = .ok step →
      ∃ t, step = .yield t)
    (s : σ) : Returns (forIn xs s body) ↔ ∀ x ∈ xs.takeWhile (!stop ·), Q x := by
  induction xs generalizing s with
  | nil => exact iff_of_true (ok s) fun _ hmem => nomatch hmem
  | cons x xs ih =>
      have hfirst : x ∈ x :: xs := List.mem_cons_self
      have hrest := fun y (hy : y ∈ xs) => List.mem_cons_of_mem x hy
      have hloop := ih (fun y hy => hstop y (hrest y hy))
        (fun y hy => hgo y (hrest y hy)) fun y hy => hyield y (hrest y hy)
      rw [List.forIn_cons, bind_iff]
      cases hx : stop x with
      | true =>
          refine iff_of_true ⟨.done s, hstop x hfirst s hx, ok s⟩ fun y hy => ?_
          simp [hx] at hy
      | false =>
          have htake : (x :: xs).takeWhile (!stop ·) =
              x :: xs.takeWhile (!stop ·) := by simp [hx]
          rw [htake, List.forall_mem_cons, ← hgo x hfirst s hx]
          constructor
          · rintro ⟨step, hstep, hafter⟩
            obtain ⟨t, rfl⟩ := hyield x hfirst s step hx hstep
            exact ⟨⟨_, hstep⟩, (hloop t).mp hafter⟩
          · rintro ⟨⟨step, hstep⟩, hafter⟩
            obtain ⟨t, rfl⟩ := hyield x hfirst s step hx hstep
            exact ⟨_, hstep, (hloop t).mpr hafter⟩

end Returns

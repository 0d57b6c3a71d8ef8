/-
Runs of a labelled transition function.  An action that is not enabled in a
state makes the step function return `none`; a run is a list of actions that
are enabled one after another.  The rules below package the induction over a
run, so that a system only has to say what one of its steps preserves.
-/
import Mathlib.Data.List.Basic

namespace LabelledRun

universe u v

variable {S : Type u} {A : Type v}

/-- Perform the actions of a list in order. -/
def run (step : S → A → Option S) : S → List A → Option S
  | s, [] => some s
  | s, action :: rest => (step s action).bind fun t => run step t rest

/-- Every step the run takes starts in a state that meets `guard` for its
action. -/
def EachStep (step : S → A → Option S) (guard : S → A → Prop) :
    S → List A → Prop
  | _, [] => True
  | s, action :: rest =>
      ∀ t, step s action = some t → guard s action ∧ EachStep step guard t rest

/-- Every state the run passes through, both ends included, satisfies `P`. -/
def EachState (step : S → A → Option S) (P : S → Prop) : S → List A → Prop
  | s, [] => P s
  | s, action :: rest =>
      P s ∧ ∀ t, step s action = some t → EachState step P t rest

variable {step : S → A → Option S}

@[simp] theorem run_nil (s : S) : run step s [] = some s := rfl

theorem run_cons {s t : S} {action : A} {rest : List A} :
    run step s (action :: rest) = some t ↔
      ∃ mid, step s action = some mid ∧ run step mid rest = some t := by
  simp [run, Option.bind_eq_some_iff]

/-- A run of two lists is a run of the second behind one of the first. -/
theorem run_append {s t : S} {front back : List A} :
    run step s (front ++ back) = some t ↔
      ∃ mid, run step s front = some mid ∧ run step mid back = some t := by
  induction front generalizing s with
  | nil => simp
  | cons action rest ih =>
      simp only [List.cons_append, run_cons, ih]
      constructor
      · rintro ⟨next, hstep, mid, hfront, hback⟩
        exact ⟨mid, ⟨next, hstep, hfront⟩, hback⟩
      · rintro ⟨mid, ⟨next, hstep, hfront⟩, hback⟩
        exact ⟨next, hstep, mid, hfront, hback⟩

theorem eachState_append {P : S → Prop} {s t : S} {front back : List A}
    (hfront : EachState step P s front) (hrun : run step s front = some t)
    (hback : EachState step P t back) : EachState step P s (front ++ back) := by
  induction front generalizing s with
  | nil =>
      obtain rfl := Option.some.inj hrun
      exact hback
  | cons action rest ih =>
      obtain ⟨mid, hstep, hrest⟩ := run_cons.mp hrun
      refine ⟨hfront.1, fun next hnext => ?_⟩
      obtain rfl := Option.some.inj (hstep.symm.trans hnext)
      exact ih (hfront.2 mid hstep) hrest

theorem eachStep_cons {guard : S → A → Prop} {s t : S} {action : A}
    {rest : List A} (hstep : step s action = some t) (hfirst : guard s action)
    (hrest : EachStep step guard t rest) :
    EachStep step guard s (action :: rest) := by
  intro t' hstep'
  obtain rfl := Option.some.inj (hstep.symm.trans hstep')
  exact ⟨hfirst, hrest⟩

/-- Whether the steps of a run meet a guard can be computed. -/
instance decidableEachStep (guard : S → A → Prop)
    [∀ s action, Decidable (guard s action)] :
    ∀ (s : S) (actions : List A), Decidable (EachStep step guard s actions)
  | _, [] => isTrue trivial
  | s, action :: rest =>
      match hstep : step s action with
      | none => isTrue fun _ ht => nomatch hstep.symm.trans ht
      | some t =>
          have := decidableEachStep guard t rest
          decidable_of_iff (guard s action ∧ EachStep step guard t rest)
            ⟨fun h => eachStep_cons hstep h.1 h.2, fun h => h t hstep⟩

/-- So can whether the states of a run satisfy a predicate. -/
instance decidableEachState (P : S → Prop) [DecidablePred P] :
    ∀ (s : S) (actions : List A), Decidable (EachState step P s actions)
  | s, [] => inferInstanceAs (Decidable (P s))
  | s, action :: rest =>
      match hstep : step s action with
      | none =>
          decidable_of_iff (P s)
            ⟨fun hs => ⟨hs, fun _ ht => nomatch hstep.symm.trans ht⟩, And.left⟩
      | some t =>
          have := decidableEachState P t rest
          decidable_of_iff (P s ∧ EachState step P t rest)
            ⟨fun h => ⟨h.1, fun _ ht => Option.some.inj (hstep.symm.trans ht) ▸ h.2⟩,
              fun h => ⟨h.1, h.2 t hstep⟩⟩

theorem eachStep_of_forall {Q : A → Prop} {s : S} {actions : List A}
    (hall : ∀ action ∈ actions, Q action) :
    EachStep step (fun _ action => Q action) s actions := by
  induction actions generalizing s with
  | nil => trivial
  | cons action rest ih =>
      exact fun t _ => ⟨hall action List.mem_cons_self,
        ih fun other hother => hall other (List.mem_cons_of_mem action hother)⟩

/-- What holds of every action of a list can be added to the guard of its run. -/
theorem EachStep.and_mem {guard : S → A → Prop} {Q : A → Prop} {s : S}
    {actions : List A} (hguard : EachStep step guard s actions)
    (hall : ∀ action ∈ actions, Q action) :
    EachStep step (fun s action => guard s action ∧ Q action) s actions := by
  induction actions generalizing s with
  | nil => trivial
  | cons action rest ih =>
      intro t hstep
      obtain ⟨hfirst, hrest⟩ := hguard t hstep
      refine ⟨⟨hfirst, hall action List.mem_cons_self⟩, ih hrest ?_⟩
      exact fun other hother => hall other (List.mem_cons_of_mem action hother)

/-- What holds in every state holds in the last one. -/
theorem EachState.of_run {P : S → Prop} {s t : S} {actions : List A}
    (heach : EachState step P s actions)
    (hrun : run step s actions = some t) : P t := by
  induction actions generalizing s with
  | nil =>
      obtain rfl := Option.some.inj hrun
      exact heach
  | cons action rest ih =>
      obtain ⟨mid, hstep, hrest⟩ := run_cons.mp hrun
      exact ih (heach.2 mid hstep) hrest

/-- The invariant rule: what every step preserves, every run preserves. -/
theorem run_invariant {P : S → Prop}
    (preserves : ∀ s action t, P s → step s action = some t → P t)
    {s t : S} {actions : List A} (hs : P s)
    (hrun : run step s actions = some t) : P t := by
  induction actions generalizing s with
  | nil =>
      obtain rfl := Option.some.inj hrun
      exact hs
  | cons action rest ih =>
      obtain ⟨mid, hstep, hrest⟩ := run_cons.mp hrun
      exact ih (preserves s action mid hs hstep) hrest

/-- The guarded invariant rule: a run whose steps all meet the guard keeps what
every guarded step preserves. -/
theorem run_invariant_of_eachStep {P : S → Prop} {guard : S → A → Prop}
    (preserves : ∀ s action t, P s → guard s action →
      step s action = some t → P t)
    {s t : S} {actions : List A} (hs : P s)
    (hguard : EachStep step guard s actions)
    (hrun : run step s actions = some t) : P t := by
  induction actions generalizing s with
  | nil =>
      obtain rfl := Option.some.inj hrun
      exact hs
  | cons action rest ih =>
      obtain ⟨mid, hstep, hrest⟩ := run_cons.mp hrun
      obtain ⟨hfirst, hlater⟩ := hguard mid hstep
      exact ih (preserves s action mid hs hfirst hstep) hlater hrest

/-- The invariant rule for all the states and steps of a run at once: an
invariant that makes every step meet `guard` holds in every state, and every
step meets `guard`. -/
theorem eachState_and_eachStep {inv : S → Prop} {guard : S → A → Prop}
    (keeps : ∀ s action t, inv s → step s action = some t →
      guard s action ∧ inv t)
    {s : S} (hs : inv s) (actions : List A) :
    EachState step inv s actions ∧ EachStep step guard s actions := by
  induction actions generalizing s with
  | nil => exact ⟨hs, trivial⟩
  | cons action rest ih =>
      constructor
      · exact ⟨hs, fun t hstep => (ih (keeps s action t hs hstep).2).1⟩
      · intro t hstep
        obtain ⟨hguard, ht⟩ := keeps s action t hs hstep
        exact ⟨hguard, (ih ht).2⟩

/-- The rule for what holds at every step: an invariant that every guarded step
keeps, and that makes such a step meet `safe`. -/
theorem EachStep.of_invariant {inv : S → Prop} {guard safe : S → A → Prop}
    (keeps : ∀ s action t, inv s → guard s action → step s action = some t →
      safe s action ∧ inv t)
    {s : S} {actions : List A} (hguard : EachStep step guard s actions)
    (hs : inv s) : EachStep step safe s actions := by
  induction actions generalizing s with
  | nil => trivial
  | cons action rest ih =>
      intro t hstep
      obtain ⟨hfirst, hrest⟩ := hguard t hstep
      obtain ⟨hsafe, ht⟩ := keeps s action t hs hfirst hstep
      exact ⟨hsafe, ih hrest ht⟩

/-- Two guards that agree wherever an invariant holds guard the same runs.
`allowed` is what is known of the actions of the run. -/
theorem eachStep_iff_of_allowed {inv : S → Prop} {allowed : A → Prop}
    {guard other : S → A → Prop}
    (keeps : ∀ s action t, inv s → allowed action → step s action = some t →
      inv t)
    (agree : ∀ s action t, inv s → allowed action → step s action = some t →
      (guard s action ↔ other s action))
    {s : S} (hs : inv s) {actions : List A}
    (hall : ∀ action ∈ actions, allowed action) :
    EachStep step guard s actions ↔ EachStep step other s actions := by
  induction actions generalizing s with
  | nil => exact Iff.rfl
  | cons action rest ih =>
      have hfirst := hall action List.mem_cons_self
      refine forall_congr' fun t => imp_congr_right fun hstep => ?_
      rw [agree s action t hs hfirst hstep,
        ih (keeps s action t hs hfirst hstep) fun later hlater =>
          hall later (List.mem_cons_of_mem action hlater)]

theorem eachStep_iff_of_invariant {inv : S → Prop} {guard other : S → A → Prop}
    (keeps : ∀ s action t, inv s → step s action = some t → inv t)
    (agree : ∀ s action t, inv s → step s action = some t →
      (guard s action ↔ other s action))
    {s : S} (hs : inv s) (actions : List A) :
    EachStep step guard s actions ↔ EachStep step other s actions :=
  eachStep_iff_of_allowed (fun s action t hinv _ => keeps s action t hinv)
    (fun s action t hinv _ => agree s action t hinv) hs
    fun _ _ => trivial

/-- When a step from a good state ends in a good state exactly if it meets the
guard, a run stays good exactly if all its steps meet the guard.  `inv` is what
holds of every state in any case. -/
theorem eachState_iff_eachStep_of_invariant {inv P : S → Prop}
    {guard : S → A → Prop}
    (keeps : ∀ s action t, inv s → step s action = some t → inv t)
    (exact_guard : ∀ s action t, inv s → P s → step s action = some t →
      (P t ↔ guard s action))
    {s : S} (hinv : inv s) (hs : P s) (actions : List A) :
    EachState step P s actions ↔ EachStep step guard s actions := by
  induction actions generalizing s with
  | nil => simp [EachState, EachStep, hs]
  | cons action rest ih =>
      simp only [EachState, EachStep, hs, true_and]
      refine forall_congr' fun t => imp_congr_right fun hstep => ?_
      have hkept := keeps s action t hinv hstep
      constructor
      · intro hrest
        have ht : P t := by
          cases rest with
          | nil => exact hrest
          | cons _ _ => exact hrest.1
        exact ⟨(exact_guard s action t hinv hs hstep).mp ht,
          (ih hkept ht).mp hrest⟩
      · rintro ⟨hfirst, hrest⟩
        exact (ih hkept
          ((exact_guard s action t hinv hs hstep).mpr hfirst)).mpr hrest

theorem eachState_iff_eachStep {P : S → Prop} {guard : S → A → Prop}
    (exact_guard : ∀ s action t, P s → step s action = some t →
      (P t ↔ guard s action))
    {s : S} (hs : P s) (actions : List A) :
    EachState step P s actions ↔ EachStep step guard s actions :=
  eachState_iff_eachStep_of_invariant (fun _ _ _ _ _ => trivial)
    (fun s action t _ => exact_guard s action t) trivial hs actions

/-- The same, where nothing is known of a state that is not good: `inv` makes a
state good, a guarded step keeps it, and a step to a good state is guarded. -/
theorem eachState_iff_eachStep_of_kept {inv P : S → Prop}
    {guard : S → A → Prop} (good : ∀ s, inv s → P s)
    (keeps : ∀ s action t, inv s → guard s action → step s action = some t →
      inv t)
    (guarded : ∀ s action t, inv s → step s action = some t → P t →
      guard s action)
    {s : S} (hs : inv s) (actions : List A) :
    EachState step P s actions ↔ EachStep step guard s actions := by
  induction actions generalizing s with
  | nil => simp [EachState, EachStep, good s hs]
  | cons action rest ih =>
      simp only [EachState, EachStep, good s hs, true_and]
      refine forall_congr' fun t => imp_congr_right fun hstep => ?_
      constructor
      · intro hrest
        have ht : P t := by
          cases rest with
          | nil => exact hrest
          | cons _ _ => exact hrest.1
        have hfirst := guarded s action t hs hstep ht
        exact ⟨hfirst, (ih (keeps s action t hs hfirst hstep)).mp hrest⟩
      · rintro ⟨hfirst, hrest⟩
        exact (ih (keeps s action t hs hfirst hstep)).mpr hrest

end LabelledRun

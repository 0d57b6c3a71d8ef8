/-
Programs with a state that may end with a fault, and triples about them: a program
started in a state that meets the precondition ends with a value and a state that
meet the postcondition, or with a fault that is allowed.
-/
import Mathlib.Data.List.Basic

universe u v

/-- A program over the state `S`. -/
abbrev Program (S : Type u) (E : Type u) (A : Type u) : Type u :=
  StateT S (Except E) A

section

variable {S E A B : Type u}

def Triple (pre : S → Prop) (program : Program S E A) (post : A → S → Prop)
    (fault : E → Prop) : Prop :=
  ∀ s, pre s →
    match program s with
    | .ok (a, t) => post a t
    | .error e => fault e

namespace Triple

variable {pre : S → Prop} {post : A → S → Prop} {fault : E → Prop}
  {program : Program S E A}

/-- What comes of a run that does not end with a fault. -/
theorem of_ok (h : Triple pre program post fault) {s t : S} {a : A} (hs : pre s)
    (hrun : program s = .ok (a, t)) : post a t := by
  have hpost := h s hs
  rwa [hrun] at hpost

theorem of_error (h : Triple pre program post fault) {s : S} {e : E} (hs : pre s)
    (hrun : program s = .error e) : fault e := by
  have hfault := h s hs
  rwa [hrun] at hfault

theorem pure {a : A} (hpost : ∀ s, pre s → post a s) :
    Triple pre (Pure.pure a) post fault :=
  hpost

theorem throw {e : E} (hfault : fault e) :
    Triple pre (throw e : Program S E A) post fault :=
  fun _ _ => hfault

/-- A program that begins with reading the state. -/
theorem get_bind {next : S → Program S E B} {post : B → S → Prop}
    (hnext : ∀ s, pre s → Triple (· = s) (next s) post fault) :
    Triple pre (get >>= next) post fault :=
  fun s hs => hnext s hs s rfl

theorem set {t : S} {post : PUnit → S → Prop} (hpost : ∀ s, pre s → post ⟨⟩ t) :
    Triple pre (set t : Program S E PUnit) post fault :=
  hpost

theorem modify {f : S → S} {post : PUnit → S → Prop}
    (hpost : ∀ s, pre s → post ⟨⟩ (f s)) :
    Triple pre (modify f : Program S E PUnit) post fault :=
  hpost

theorem bind {next : A → Program S E B} {mid : A → S → Prop}
    {post : B → S → Prop} (hfirst : Triple pre program mid fault)
    (hnext : ∀ a, Triple (mid a) (next a) post fault) :
    Triple pre (program >>= next) post fault := by
  intro s hs
  have hmid := hfirst s hs
  change match (program s >>= fun result => next result.1 result.2) with
    | .ok (b, t) => post b t
    | .error e => fault e
  cases hrun : program s with
  | error e =>
      rw [hrun] at hmid
      exact hmid
  | ok result =>
      rw [hrun] at hmid
      exact hnext result.1 result.2 hmid

/-- The rule of consequence. -/
theorem mono {pre' : S → Prop} {post' : A → S → Prop}
    {fault' : E → Prop} (h : Triple pre' program post' fault')
    (hpre : ∀ s, pre s → pre' s) (hpost : ∀ a s, post' a s → post a s)
    (hfault : ∀ e, fault' e → fault e) : Triple pre program post fault := by
  intro s hs
  have hresult := h s (hpre s hs)
  cases hrun : program s with
  | error e =>
      rw [hrun] at hresult
      exact hfault e hresult
  | ok result =>
      rw [hrun] at hresult
      exact hpost _ _ hresult

/-- A fact that has nothing to do with the state. -/
theorem of_fact {P : Prop} (h : P → Triple pre program post fault) :
    Triple (fun s => P ∧ pre s) program post fault :=
  fun s hs => h hs.1 s hs.2

/-- Nothing is said of the end of the program. -/
theorem trivial : Triple pre program (fun _ _ => True) fun _ => True := by
  intro s _
  cases program s <;> exact True.intro

/-- Two triples of a program are one. -/
theorem and {pre' : S → Prop} {post' : A → S → Prop} {fault' : E → Prop}
    (h : Triple pre program post fault) (h' : Triple pre' program post' fault') :
    Triple (fun s => pre s ∧ pre' s) program (fun a s => post a s ∧ post' a s)
      fun e => fault e ∧ fault' e := by
  intro s hs
  have hfirst := h s hs.1
  have hsecond := h' s hs.2
  cases hrun : program s with
  | error e =>
      rw [hrun] at hfirst hsecond
      exact ⟨hfirst, hsecond⟩
  | ok result =>
      rw [hrun] at hfirst hsecond
      exact ⟨hfirst, hsecond⟩

/-- The rule for a loop over a list: what holds of the elements that are done
holds of all of them in the end. -/
theorem foldlM {inv : List B → A → S → Prop} {body : A → B → Program S E A}
    (hbody : ∀ done a b, Triple (inv done a) (body a b) (inv (done ++ [b])) fault)
    (done : List B) (a : A) (rest : List B) :
    Triple (inv done a) (rest.foldlM body a) (inv (done ++ rest)) fault := by
  induction rest generalizing done a with
  | nil =>
      rw [List.append_nil]
      exact pure fun _ hs => hs
  | cons b rest ih =>
      rw [List.foldlM_cons]
      refine bind (hbody done a b) fun next => ?_
      have hrest := ih (done ++ [b]) next
      rwa [List.append_assoc] at hrest

end Triple

end

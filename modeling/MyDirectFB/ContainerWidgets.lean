/-
The widgets of ui/directfb/container.cpp.  A container lists its widgets and a
widget stores its container.  Adding a widget leaves it in the list of another
container, and removing one goes through an iterator that it has erased.  `addWidget`
compares its argument with `*end()` when it is not in the list; the two are taken
to differ.
-/
import MyDirectFB.Lib.NodeList
import MyDirectFB.Lib.LabelledRun
import Mathlib.Logic.Function.Basic

namespace MyDirectFB

universe u v

/-- The lists of the containers and what the widgets store.  `afterErase` has the
nodes that were used after they were erased. -/
structure WidgetLinks (C : Type u) (W : Type v) where
  mWidgetList : C → NodeList W
  mContainer : W → Option C
  afterErase : List (C × Nat)

/-- A call of a container; `none` is the null pointer.  `held` is the pointer that is
in the memory of a node after it is erased. -/
inductive WidgetCall (C : Type u) (W : Type v) where
  | addWidget (c : C) (widget : Option W)
  | removeWidget (c : C) (widget : Option W) (held : W)
deriving Repr, DecidableEq

namespace WidgetLinks

variable {C : Type u} {W : Type v}

/-- No widget is listed, and none stores a container. -/
def start : WidgetLinks C W := ⟨fun _ => NodeList.empty, fun _ => none, []⟩

/-- The widgets that a container lists. -/
def listed (s : WidgetLinks C W) (c : C) : List W := (s.mWidgetList c).values

/-- Lists and pointers agree, and no list has a widget twice. -/
structure Linked (s : WidgetLinks C W) : Prop where
  nodup : ∀ c, (s.listed c).Nodup
  listed_iff : ∀ c widget, widget ∈ s.listed c ↔ s.mContainer widget = some c

/-- And no node was used after it was erased. -/
structure InStep (s : WidgetLinks C W) : Prop extends s.Linked where
  untouched : s.afterErase = []

/-- The call does not add a widget that another container lists, and where it removes
one the erased node still has its pointer. -/
def Relinks (s : WidgetLinks C W) : WidgetCall C W → Prop
  | .addWidget c widget => ∀ w ∈ widget, ∀ other, w ∈ s.listed other → other = c
  | .removeWidget c widget held => ∀ w ∈ widget, w ∈ s.listed c → held = w

/-- The call does not add a widget that another container lists, and does not remove
one that its container lists. -/
def Keeps (s : WidgetLinks C W) : WidgetCall C W → Prop
  | .addWidget c widget => ∀ w ∈ widget, ∀ other, w ∈ s.listed other → other = c
  | .removeWidget c widget _ => ∀ w ∈ widget, w ∉ s.listed c

/-- `setContainer` of a widget. -/
def setContainer [DecidableEq W] (s : WidgetLinks C W) (widget : W)
    (container : Option C) : WidgetLinks C W :=
  { s with mContainer := Function.update s.mContainer widget container }

/-- The list of a container changes. -/
def setList [DecidableEq C] (s : WidgetLinks C W) (c : C) (list : NodeList W) :
    WidgetLinks C W :=
  { s with mWidgetList := Function.update s.mWidgetList c list }

/-- `(*it)->setContainer`. -/
def setContainerAt [DecidableEq W] (s : WidgetLinks C W) (c : C) (it : Nat) (held : W)
    (container : Option C) : WidgetLinks C W :=
  match (s.mWidgetList c).value? it with
  | some widget => s.setContainer widget container
  | none =>
      { s.setContainer held container with afterErase := s.afterErase ++ [(c, it)] }

variable [DecidableEq C] [DecidableEq W]

/-- `addWidget`. -/
def addWidget (s : WidgetLinks C W) (c : C) : Option W → WidgetLinks C W
  | none => s
  | some widget =>
      match (s.mWidgetList c).find widget with
      | some _ => s
      | none =>
          (s.setContainer widget (some c)).setList c
            ((s.mWidgetList c).pushBack widget)

/-- `removeWidget`. -/
def removeWidget (s : WidgetLinks C W) (c : C) (widget : Option W) (held : W) :
    WidgetLinks C W :=
  match widget with
  | none => s
  | some widget =>
      match (s.mWidgetList c).find widget with
      | some it =>
          (s.setList c ((s.mWidgetList c).eraseFirst widget)).setContainerAt c it held
            none
      | none => s

def onCall (s : WidgetLinks C W) : WidgetCall C W → WidgetLinks C W
  | .addWidget c widget => s.addWidget c widget
  | .removeWidget c widget held => s.removeWidget c widget held

end WidgetLinks

/-- The containers and widgets after each call. -/
def WidgetCall.step {C : Type u} {W : Type v} [DecidableEq C] [DecidableEq W]
    (s : WidgetLinks C W) (call : WidgetCall C W) : Option (WidgetLinks C W) :=
  some (s.onCall call)

namespace WidgetLinks

variable {C : Type u} {W : Type v} {s : WidgetLinks C W} {c : C} {w held : W}
  [DecidableEq C]

@[simp] theorem mContainer_setList (list : NodeList W) :
    (s.setList c list).mContainer = s.mContainer := rfl

@[simp] theorem mWidgetList_setList_self (list : NodeList W) :
    (s.setList c list).mWidgetList c = list := by
  simp only [setList, Function.update_self]

@[simp] theorem listed_setList_self (list : NodeList W) :
    (s.setList c list).listed c = list.values :=
  congrArg NodeList.values (mWidgetList_setList_self list)

theorem listed_setList_of_ne {other : C} (hne : other ≠ c) (list : NodeList W) :
    (s.setList c list).listed other = s.listed other := by
  simp only [listed, setList, Function.update_of_ne hne]

variable [DecidableEq W]

omit [DecidableEq C] in
@[simp] theorem mContainer_setContainer_self (container : Option C) :
    (s.setContainer w container).mContainer w = container := by
  simp only [setContainer, Function.update_self]

/-- Where one list and the pointer of one widget change: the list has the widget
exactly if it stores that container, no other list has it, and nothing else changes. -/
theorem Linked.of_update (hs : s.Linked) {t : WidgetLinks C W} {list : NodeList W}
    {container : Option C}
    (hlists : t.mWidgetList = Function.update s.mWidgetList c list)
    (hstored : t.mContainer = Function.update s.mContainer w container)
    (hnodup : list.values.Nodup) (hself : w ∈ list.values ↔ container = some c)
    (hsame : ∀ widget ≠ w, (widget ∈ list.values ↔ widget ∈ s.listed c))
    (helse : ∀ other ≠ c, w ∉ s.listed other ∧ container ≠ some other) :
    t.Linked := by
  have hlisted : t.listed c = list.values := by
    simp only [listed, hlists, Function.update_self]
  have hothers : ∀ other ≠ c, t.listed other = s.listed other := by
    intro other hother
    simp only [listed, hlists, Function.update_of_ne hother]
  constructor
  · intro other
    by_cases hother : other = c
    · subst hother
      rw [hlisted]
      exact hnodup
    · rw [hothers other hother]
      exact hs.nodup other
  · intro other widget
    rw [hstored]
    by_cases hwidget : widget = w
    · subst hwidget
      rw [Function.update_self]
      by_cases hother : other = c
      · subst hother
        rw [hlisted, hself]
      · rw [hothers other hother]
        exact iff_of_false (helse other hother).1 (helse other hother).2
    · rw [Function.update_of_ne hwidget]
      by_cases hother : other = c
      · subst hother
        rw [hlisted, hsame widget hwidget, hs.listed_iff]
      · rw [hothers other hother, hs.listed_iff]

/-! ### Adding -/

/-- What adding a widget can do. -/
theorem addWidget_cases (s : WidgetLinks C W) (c : C) (w : W) :
    (w ∈ s.listed c ∧ s.addWidget c (some w) = s) ∨
      (w ∉ s.listed c ∧ s.addWidget c (some w) =
        (s.setContainer w (some c)).setList c ((s.mWidgetList c).pushBack w)) := by
  rw [addWidget]
  cases hfind : (s.mWidgetList c).find w with
  | none => exact .inr ⟨NodeList.find_eq_none_iff.mp hfind, rfl⟩
  | some it =>
      refine .inl ⟨not_not.mp fun habsent => ?_, rfl⟩
      rw [NodeList.find_eq_none_iff.mpr habsent] at hfind
      cases hfind

/-- A widget that is put at the end of a list must not be in another. -/
theorem linked_pushBack_iff (hs : s.Linked) (habsent : w ∉ s.listed c) :
    ((s.setContainer w (some c)).setList c ((s.mWidgetList c).pushBack w)).Linked ↔
      ∀ other, w ∈ s.listed other → other = c := by
  constructor
  · intro hafter other hother
    by_contra hne
    have hstill := (hafter.listed_iff other w).mp
      ((listed_setList_of_ne hne _).symm ▸ hother)
    rw [mContainer_setList, mContainer_setContainer_self] at hstill
    exact hne (Option.some.inj hstill).symm
  · intro honly
    have hvalues : ((s.mWidgetList c).pushBack w).values = (s.listed c).concat w := by
      rw [NodeList.values_pushBack, List.concat_eq_append, listed]
    refine hs.of_update rfl rfl ?_ ?_ (fun widget hwidget => ?_) fun other hother => ?_
    · rw [hvalues]
      exact (hs.nodup c).concat habsent
    · rw [hvalues]
      exact iff_of_true (by simp) rfl
    · rw [hvalues, List.concat_eq_append, List.mem_append, List.mem_singleton,
        or_iff_left hwidget]
    · exact ⟨fun hmem => hother (honly other hmem),
        fun hstores => hother (Option.some.inj hstores).symm⟩

/-! ### Removing -/

/-- What removing a widget can do: where the container lists it, `*it` is read from
the node that was erased. -/
theorem removeWidget_cases (s : WidgetLinks C W) (c : C) (w held : W) :
    (w ∉ s.listed c ∧ s.removeWidget c (some w) held = s) ∨
      (w ∈ s.listed c ∧ ∃ it, s.removeWidget c (some w) held =
        { (s.setList c ((s.mWidgetList c).eraseFirst w)).setContainer held none with
          afterErase := s.afterErase ++ [(c, it)] }) := by
  rw [removeWidget]
  cases hfind : (s.mWidgetList c).find w with
  | none => exact .inl ⟨NodeList.find_eq_none_iff.mp hfind, rfl⟩
  | some it =>
      refine .inr ⟨not_not.mp fun habsent => ?_, it, ?_⟩
      · rw [NodeList.find_eq_none_iff.mpr habsent] at hfind
        cases hfind
      · have herased : ((s.setList c ((s.mWidgetList c).eraseFirst w)).mWidgetList
            c).value? it = none := by
          rw [mWidgetList_setList_self]
          exact NodeList.value?_eraseFirst_of_find hfind
        simp only [setContainerAt, herased]
        rfl

/-- After a widget is taken out of a list, the widget whose pointer is reset must be
that one. -/
theorem linked_erase_iff (hs : s.Linked) (hlisted : w ∈ s.listed c)
    (touched : List (C × Nat)) :
    WidgetLinks.Linked
        { (s.setList c ((s.mWidgetList c).eraseFirst w)).setContainer held none with
          afterErase := touched } ↔ held = w := by
  have hvalues : ((s.mWidgetList c).eraseFirst w).values = (s.listed c).erase w :=
    NodeList.values_eraseFirst _ w
  have hnot : w ∉ ((s.mWidgetList c).eraseFirst w).values :=
    hvalues ▸ (hs.nodup c).not_mem_erase
  have hstored := (hs.listed_iff c w).mp hlisted
  constructor
  · intro hafter
    by_contra hheld
    have hstill : Function.update s.mContainer held none w = some c := by
      rw [Function.update_of_ne (Ne.symm hheld), hstored]
    have hmem := (hafter.listed_iff c w).mpr hstill
    have hlist := listed_setList_self (s := s) (c := c)
      ((s.mWidgetList c).eraseFirst w)
    exact hnot (hlist ▸ hmem)
  · rintro rfl
    refine hs.of_update rfl rfl (hvalues ▸ (hs.nodup c).erase held)
      (iff_of_false hnot (Option.some_ne_none _).symm) (fun widget hwidget => ?_)
      fun other hother => ⟨fun hmem => ?_, (Option.some_ne_none _).symm⟩
    · rw [hvalues, List.mem_erase_of_ne hwidget]
    · have hstores := (hs.listed_iff other held).mp hmem
      exact hother (Option.some.inj (hstores.symm.trans hstored))

/-! ### Calls -/

/-- A call keeps lists and pointers in agreement exactly if it relinks its widget. -/
theorem linked_onCall_iff (hs : s.Linked) (call : WidgetCall C W) :
    (s.onCall call).Linked ↔ s.Relinks call := by
  cases call with
  | addWidget c widget =>
      cases widget with
      | none => exact iff_of_true hs fun w hw => nomatch hw
      | some w =>
          simp only [onCall, Relinks, Option.mem_some_iff, forall_eq']
          rcases s.addWidget_cases c w with ⟨hlisted, hsame⟩ | ⟨habsent, hadded⟩
          · rw [hsame]
            refine iff_of_true hs fun other hother => ?_
            exact Option.some.inj (((hs.listed_iff other w).mp hother).symm.trans
              ((hs.listed_iff c w).mp hlisted))
          · rw [hadded]
            exact linked_pushBack_iff hs habsent
  | removeWidget c widget held =>
      cases widget with
      | none => exact iff_of_true hs fun w hw => nomatch hw
      | some w =>
          simp only [onCall, Relinks, Option.mem_some_iff, forall_eq']
          rcases s.removeWidget_cases c w held with
            ⟨habsent, hsame⟩ | ⟨hlisted, it, hremoved⟩
          · rw [hsame]
            exact iff_of_true hs fun hmem => absurd hmem habsent
          · rw [hremoved, linked_erase_iff hs hlisted, forall_prop_of_true hlisted]

/-- A call uses an erased node exactly if it removes a widget that is listed. -/
theorem untouched_onCall_iff (hs : s.afterErase = []) (call : WidgetCall C W) :
    (s.onCall call).afterErase = [] ↔ match call with
      | .addWidget _ _ => True
      | .removeWidget c widget _ => ∀ w ∈ widget, w ∉ s.listed c := by
  cases call with
  | addWidget c widget =>
      cases widget with
      | none => exact iff_of_true hs trivial
      | some w =>
          rcases s.addWidget_cases c w with ⟨-, hsame⟩ | ⟨-, hadded⟩
          · rw [onCall, hsame]
            exact iff_of_true hs trivial
          · rw [onCall, hadded]
            exact iff_of_true hs trivial
  | removeWidget c widget held =>
      cases widget with
      | none => exact iff_of_true hs fun w hw => nomatch hw
      | some w =>
          simp only [onCall, Option.mem_some_iff, forall_eq']
          rcases s.removeWidget_cases c w held with
            ⟨habsent, hsame⟩ | ⟨hlisted, it, hremoved⟩
          · rw [hsame]
            exact iff_of_true hs habsent
          · rw [hremoved]
            exact iff_of_false (List.append_ne_nil_of_right_ne_nil _
              (List.cons_ne_nil _ _)) (not_not_intro hlisted)

theorem inStep_onCall_iff (hs : s.InStep) (call : WidgetCall C W) :
    (s.onCall call).InStep ↔ s.Keeps call := by
  have hinStep : (s.onCall call).InStep ↔
      (s.onCall call).Linked ∧ (s.onCall call).afterErase = [] :=
    ⟨fun h => ⟨h.toLinked, h.untouched⟩, fun h => ⟨h.1, h.2⟩⟩
  rw [hinStep, linked_onCall_iff hs.toLinked, untouched_onCall_iff hs.untouched]
  cases call with
  | addWidget c widget => rw [and_true, Relinks, Keeps]
  | removeWidget c widget held =>
      refine and_iff_right_of_imp fun habsent w hw hlisted => ?_
      exact absurd hlisted (habsent w hw)

omit [DecidableEq C] [DecidableEq W] in
theorem inStep_start : (start : WidgetLinks C W).InStep :=
  { nodup := fun _ => List.nodup_nil
    listed_iff := fun _ _ => iff_of_false List.not_mem_nil (Option.some_ne_none _).symm
    untouched := rfl }

end WidgetLinks

/-- Lists and pointers agree over a sequence of calls, and no node is used after it was
erased, exactly if no call adds a widget that another container lists or removes one
that its container lists. -/
theorem widgetLinks_inStep_iff {C : Type u} {W : Type v} [DecidableEq C]
    [DecidableEq W] (calls : List (WidgetCall C W)) :
    LabelledRun.EachState WidgetCall.step WidgetLinks.InStep .start calls ↔
      LabelledRun.EachStep WidgetCall.step WidgetLinks.Keeps .start calls := by
  refine LabelledRun.eachState_iff_eachStep (fun s call after hs hstep => ?_)
    WidgetLinks.inStep_start calls
  obtain rfl := Option.some.inj hstep
  exact WidgetLinks.inStep_onCall_iff hs call

/-- Where erased nodes still have the pointers that were in them, lists and pointers
agree exactly if no call adds a widget that another container lists. -/
theorem widgetLinks_linked_iff {C : Type u} {W : Type v} [DecidableEq C]
    [DecidableEq W] (calls : List (WidgetCall C W)) :
    LabelledRun.EachState WidgetCall.step WidgetLinks.Linked .start calls ↔
      LabelledRun.EachStep WidgetCall.step WidgetLinks.Relinks .start calls := by
  refine LabelledRun.eachState_iff_eachStep (fun s call after hs hstep => ?_)
    WidgetLinks.inStep_start.toLinked calls
  obtain rfl := Option.some.inj hstep
  exact WidgetLinks.linked_onCall_iff hs call

/-- A widget that is added and removed is reached through the node that was erased, and
one that is added to two containers is listed by the one that it does not store. -/
theorem removedWidget_not_inStep :
    ¬ LabelledRun.EachState WidgetCall.step WidgetLinks.InStep
        (.start : WidgetLinks Bool Unit)
        [.addWidget false (some ()), .removeWidget false (some ()) ()] ∧
      ¬ LabelledRun.EachState WidgetCall.step WidgetLinks.InStep
        (.start : WidgetLinks Bool Unit)
        [.addWidget false (some ()), .addWidget true (some ())] := by
  constructor
  · intro hinStep
    have hlast := hinStep.of_run rfl
    exact absurd hlast.untouched (List.cons_ne_nil _ _)
  · intro hinStep
    have hlast := hinStep.of_run rfl
    have hstored := (hlast.listed_iff false ()).mp (by decide)
    exact absurd hstored (by decide)

end MyDirectFB

/-
What the loops over the list registries owe to the entries that stay.  The
iterator survives every change but the removal of the entry whose callback is
being called: the invariant splits the list into the nodes the loop has passed
and the nodes ahead of it, and the node in between.
-/
import MyDirectFB.ListenerList
import MyDirectFB.Lib.LabelledRun

namespace MyDirectFB

universe u

variable {L : Type u}

namespace DispatchLoop

/-- The nodes whose callbacks are to be called: of the watchers those that the
loop has come to and that are ready, of the listeners all that it has come to. -/
def owed (registry : Registry) (s : DispatchLoop L) : List Nat :=
  if registry = .mFdWatchers then s.ready else s.visited

/-- What a loop owes to its registry, in every state: the iterator is never
advanced from an erased node or to one, the entries that were registered when the
loop began and are still there are visited once, in order, and all of them by the
time the loop comes to the end, and exactly the watchers among them that are ready,
and all the listeners, are called, in that order. -/
structure Sound (registry : Registry) (s : DispatchLoop L) : Prop where
  live : s.pc ≠ .dangling
  listed : ∀ name, s.pc = .atTest (some name) → name ∈ s.list.names
  once : s.visited.Nodup
  order : (s.visited.filter (· ∈ s.registered)).Sublist s.registered
  behind : ∀ name ∈ s.registered, name ∈ s.list.names → name ∉ s.visited →
    ∀ earlier ∈ s.visited, earlier ∈ s.registered →
      [earlier, name].Sublist s.registered
  complete : s.pc = .atTest none → ∀ name ∈ s.registered,
    name ∈ s.list.names → name ∈ s.visited
  ready_visited : s.ready.Sublist s.visited
  called : s.called.map Prod.fst = s.owed registry

/-- The entry whose callback returns is still in the list, or the loop ends
with it. -/
def KeepsCurrent (registry : Registry) (s : DispatchLoop L) :
    DispatchStep L → Prop
  | .returns result => ∀ name, s.pc = .inCallback name →
      name ∈ s.list.names ∨ (registry = .mKeyListeners ∧ result = true)
  | _ => True

/-- The loop has passed the nodes of `passed`, and those of `ahead` lie ahead of
it. -/
structure Split (s : DispatchLoop L) (passed ahead : List Nat) : Prop where
  registered_lt : ∀ name ∈ s.registered, name < s.list.fresh
  visited_lt : ∀ name ∈ s.visited, name < s.list.fresh
  once : s.visited.Nodup
  passed_visited : ∀ name ∈ passed, name ∈ s.registered → name ∈ s.visited
  ahead_new : ∀ name ∈ ahead, name ∉ s.visited
  order : ((s.visited ++ ahead).filter (· ∈ s.registered)).Sublist s.registered

end DispatchLoop

/-- How the place of the loop splits the list. -/
def LoopPc.Splits (names visited passed ahead : List Nat) : LoopPc → Prop
  | .outside => names = passed ++ ahead
  | .atTest it => names = passed ++ ahead ∧ it = ahead.head?
  | .inCallback name => name ∈ visited ∧
      (names = passed ++ name :: ahead ∨
        name ∉ names ∧ names = passed ++ ahead)
  | .dangling => False

namespace DispatchLoop

/-- The invariant of a loop that has not advanced from an erased node. -/
structure Inv (registry : Registry) (s : DispatchLoop L) : Prop where
  split : ∃ passed ahead, s.Split passed ahead ∧
    s.pc.Splits s.list.names s.visited passed ahead
  ready_visited : s.ready.Sublist s.visited
  called : s.called.map Prod.fst = s.owed registry

theorem init_inv (registry : Registry) (list : NodeList L) :
    (init list).Inv registry where
  split := by
    refine ⟨list.names, [], ⟨?_, ?_, List.nodup_nil, ?_, ?_, ?_⟩,
      (List.append_nil _).symm⟩
    · exact List.forall_mem_nil _
    · exact List.forall_mem_nil _
    · exact fun _ _ hname => absurd hname List.not_mem_nil
    · exact List.forall_mem_nil _
    · exact List.nil_sublist _
  ready_visited := List.nil_sublist _
  called := (ite_self _).symm

theorem splits_cases {pc : LoopPc} {names visited passed ahead : List Nat}
    (hpc : pc.Splits names visited passed ahead) :
    ∀ name ∈ names, name ∈ passed ∨ name ∈ visited ∨ name ∈ ahead := by
  intro name hname
  cases pc with
  | outside =>
      rw [show names = passed ++ ahead from hpc, List.mem_append] at hname
      exact hname.imp_right .inr
  | atTest it =>
      rw [hpc.1, List.mem_append] at hname
      exact hname.imp_right .inr
  | inCallback current =>
      obtain ⟨hvisited, hnames | ⟨-, hnames⟩⟩ := hpc
      · rw [hnames, List.mem_append, List.mem_cons] at hname
        rcases hname with hpassed | rfl | hahead
        · exact .inl hpassed
        · exact .inr (.inl hvisited)
        · exact .inr (.inr hahead)
      · rw [hnames, List.mem_append] at hname
        exact hname.imp_right .inr
  | dangling => exact hpc.elim

/-- The invariant makes the loop sound. -/
theorem Inv.sound {registry : Registry} {s : DispatchLoop L}
    (hs : s.Inv registry) : s.Sound registry := by
  obtain ⟨passed, ahead, hsplit, hpc⟩ := hs.split
  have horder := hsplit.order
  rw [List.filter_append] at horder
  refine ⟨?_, ?_, hsplit.once, (List.sublist_append_left _ _).trans horder, ?_,
    ?_, hs.ready_visited, hs.called⟩
  · intro hdangling
    rw [hdangling] at hpc
    exact hpc
  · intro name htest
    rw [htest] at hpc
    rw [hpc.1]
    exact List.mem_append_right _ (List.mem_of_mem_head? hpc.2.symm)
  · intro name hregistered hname hnew earlier hearlier hregistered'
    have hahead : name ∈ ahead := by
      rcases splits_cases hpc name hname with hpassed | hvisited | hahead
      · exact absurd (hsplit.passed_visited name hpassed hregistered) hnew
      · exact absurd hvisited hnew
      · exact hahead
    have hfirst : [earlier].Sublist (s.visited.filter (· ∈ s.registered)) :=
      List.singleton_sublist.mpr (by simp [hearlier, hregistered'])
    have hsecond : [name].Sublist (ahead.filter (· ∈ s.registered)) :=
      List.singleton_sublist.mpr (by simp [hahead, hregistered])
    exact (hfirst.append hsecond).trans horder
  · intro hend name hregistered hname
    rw [hend] at hpc
    have hahead : ahead = [] := List.head?_eq_none_iff.mp hpc.2.symm
    have hnames : s.list.names = passed := by
      rw [hpc.1, hahead, List.append_nil]
    exact hsplit.passed_visited name (hnames ▸ hname) hregistered

/-! ### Steps of the loop -/

theorem Inv.begin {registry : Registry} {s : DispatchLoop L} :
    Inv registry (⟨s.list, .atTest s.list.first, s.list.names, [], [], []⟩ :
      DispatchLoop L) where
  split := by
    refine ⟨[], s.list.names, ⟨s.list.lt_fresh, List.forall_mem_nil _,
      List.nodup_nil, List.forall_mem_nil _, fun _ _ => List.not_mem_nil, ?_⟩,
      rfl, rfl⟩
    exact List.filter_sublist
  ready_visited := List.nil_sublist _
  called := (ite_self _).symm

/-- The first node ahead has been visited. -/
theorem Split.visit {s : DispatchLoop L} {passed rest : List Nat} {name : Nat}
    (hs : s.Split passed (name :: rest)) (hin : name ∈ s.list.names)
    (hnot : name ∉ rest) (pc : LoopPc) (ready : List Nat) (called : List (Nat × L))
    {passed' : List Nat} (hpassed : ∀ other ∈ passed', other ∈ passed ∨ other = name) :
    Split ⟨s.list, pc, s.registered, s.visited ++ [name], ready, called⟩ passed'
      rest where
  registered_lt := hs.registered_lt
  visited_lt other hother := by
    rcases List.mem_append.mp hother with hold | hlast
    · exact hs.visited_lt other hold
    · obtain rfl := List.mem_singleton.mp hlast
      exact s.list.lt_fresh other hin
  once := by
    rw [← List.concat_eq_append]
    exact List.Nodup.concat (hs.ahead_new name List.mem_cons_self) hs.once
  passed_visited other hother hregistered := by
    rcases hpassed other hother with hold | rfl
    · exact List.mem_append_left _ (hs.passed_visited other hold hregistered)
    · exact List.mem_append_right _ (List.mem_singleton.mpr rfl)
  ahead_new other hother hmem := by
    rcases List.mem_append.mp hmem with hold | hlast
    · exact hs.ahead_new other (List.mem_cons_of_mem name hother) hold
    · obtain rfl := List.mem_singleton.mp hlast
      exact hnot hother
  order := by
    rw [List.append_assoc]
    exact hs.order

/-- What is owed grows by the node that the loop comes to, unless it is a watcher
that is not ready. -/
theorem owed_visit (registry : Registry) (s : DispatchLoop L) (name : Nat)
    (listener : L) (ready : Bool) :
    (s.visit registry name listener ready).owed registry =
      if registry = .mFdWatchers ∧ ready = false then s.owed registry
      else s.owed registry ++ [name] := by
  cases registry <;> cases ready <;> rfl

theorem ready_visit (registry : Registry) {s : DispatchLoop L}
    (hready : s.ready.Sublist s.visited) (name : Nat) (listener : L) (ready : Bool) :
    (s.visit registry name listener ready).ready.Sublist
      (s.visit registry name listener ready).visited := by
  have hvisited : (s.visit registry name listener ready).visited =
      s.visited ++ [name] := by
    cases registry <;> cases ready <;> rfl
  have hnext : (s.visit registry name listener ready).ready =
      if ready then s.ready ++ [name] else s.ready := by
    cases registry <;> cases ready <;> rfl
  rw [hvisited, hnext]
  split
  · exact hready.append (List.Sublist.refl _)
  · exact hready.trans (List.sublist_append_left _ _)

/-- The loop comes to the next node. -/
theorem Inv.visit {registry : Registry} {s : DispatchLoop L}
    (hs : s.Inv registry) {name : Nat} (hpc : s.pc = .atTest (some name))
    (listener : L) (ready : Bool) :
    Inv registry (s.visit registry name listener ready) := by
  have howed := owed_visit registry s name listener ready
  have hlater := ready_visit registry hs.ready_visited name listener ready
  obtain ⟨⟨passed, ahead, hsplit, hplace⟩, -, hcalled⟩ := hs
  rw [hpc] at hplace
  obtain ⟨hnames, hhead⟩ := hplace
  obtain ⟨rest, rfl⟩ : ∃ rest, ahead = name :: rest :=
    List.head?_eq_some_iff.mp hhead.symm
  have hin : name ∈ s.list.names := by
    rw [hnames]
    exact List.mem_append_right _ List.mem_cons_self
  have hnot : name ∉ rest := by
    have hnodup := s.list.names_nodup
    rw [hnames, List.nodup_append] at hnodup
    exact (List.nodup_cons.mp hnodup.2.1).1
  unfold DispatchLoop.visit at howed hlater ⊢
  by_cases hskip : registry = .mFdWatchers ∧ ready = false
  · simp only [if_pos hskip] at howed hlater ⊢
    refine ⟨⟨passed ++ [name], rest, hsplit.visit hin hnot _ _ _ ?_, ?_, ?_⟩,
      hlater, ?_⟩
    · simp
    · rw [hnames, List.append_assoc]
      rfl
    · exact NodeList.next_eq_head? hnames
    · exact hcalled.trans howed.symm
  · simp only [if_neg hskip] at howed hlater ⊢
    refine ⟨⟨passed, rest, hsplit.visit hin hnot _ _ _ fun _ => .inl, ?_,
      .inl hnames⟩, hlater, ?_⟩
    · exact List.mem_append_right _ (List.mem_singleton.mpr rfl)
    · rw [howed, List.map_append, hcalled]
      rfl

/-- The node whose callback has returned is one that the loop has passed. -/
theorem Split.pass {s : DispatchLoop L} {passed ahead : List Nat}
    (hs : s.Split passed ahead) {name : Nat} (hvisited : name ∈ s.visited)
    (pc : LoopPc) : Split { s with pc := pc } (passed ++ [name]) ahead where
  registered_lt := hs.registered_lt
  visited_lt := hs.visited_lt
  once := hs.once
  passed_visited other hother hregistered := by
    rcases List.mem_append.mp hother with hold | hlast
    · exact hs.passed_visited other hold hregistered
    · obtain rfl := List.mem_singleton.mp hlast
      exact hvisited
  ahead_new := hs.ahead_new
  order := hs.order

/-- The loop goes on from the node whose callback has returned. -/
theorem Inv.returns {registry : Registry} {s : DispatchLoop L}
    (hs : s.Inv registry) {name : Nat} (hpc : s.pc = .inCallback name)
    (hname : name ∈ s.list.names) :
    Inv registry { s with pc := .atTest (s.list.next name) } := by
  obtain ⟨⟨passed, ahead, hsplit, hplace⟩, hready, hcalled⟩ := hs
  rw [hpc] at hplace
  obtain ⟨hvisited, hnames | ⟨hgone, -⟩⟩ := hplace
  · refine ⟨⟨passed ++ [name], ahead, hsplit.pass hvisited _, ?_, ?_⟩,
      hready, hcalled⟩
    · rw [hnames, List.append_assoc]
      rfl
    · exact NodeList.next_eq_head? hnames
  · exact absurd hname hgone

/-- The loop ends, at the end of the list or in a callback. -/
theorem Inv.leave {registry : Registry} {s : DispatchLoop L}
    (hs : s.Inv registry) : Inv registry { s with pc := .outside } := by
  obtain ⟨⟨passed, ahead, hsplit, hplace⟩, hready, hcalled⟩ := hs
  refine ⟨?_, hready, hcalled⟩
  cases hpc : s.pc with
  | outside =>
      rw [hpc] at hplace
      exact ⟨passed, ahead, { hsplit with }, hplace⟩
  | atTest it =>
      rw [hpc] at hplace
      exact ⟨passed, ahead, { hsplit with }, hplace.1⟩
  | inCallback name =>
      rw [hpc] at hplace
      obtain ⟨hvisited, hnames | ⟨-, hnames⟩⟩ := hplace
      · refine ⟨passed ++ [name], ahead, hsplit.pass hvisited _, ?_⟩
        change s.list.names = (passed ++ [name]) ++ ahead
        rw [hnames, List.append_assoc]
        rfl
      · exact ⟨passed, ahead, { hsplit with }, hnames⟩
  | dangling =>
      rw [hpc] at hplace
      exact hplace.elim

/-! ### Changes of the registry -/

/-- A new node in front of the list is one that the loop has passed, and a new
node at the back lies ahead of it. -/
theorem Split.pushFront {s : DispatchLoop L} {passed ahead : List Nat}
    (hs : s.Split passed ahead) (listener : L) :
    Split { s with list := s.list.pushFront listener }
      (s.list.fresh :: passed) ahead where
  registered_lt name hname := Nat.lt_succ_of_lt (hs.registered_lt name hname)
  visited_lt name hname := Nat.lt_succ_of_lt (hs.visited_lt name hname)
  once := hs.once
  passed_visited name hname hregistered := by
    rcases List.mem_cons.mp hname with rfl | hold
    · exact absurd (hs.registered_lt _ hregistered) (Nat.lt_irrefl _)
    · exact hs.passed_visited name hold hregistered
  ahead_new := hs.ahead_new
  order := hs.order

theorem Split.pushBack {s : DispatchLoop L} {passed ahead : List Nat}
    (hs : s.Split passed ahead) (listener : L) :
    Split { s with list := s.list.pushBack listener } passed
      (ahead ++ [s.list.fresh]) where
  registered_lt name hname := Nat.lt_succ_of_lt (hs.registered_lt name hname)
  visited_lt name hname := Nat.lt_succ_of_lt (hs.visited_lt name hname)
  once := hs.once
  passed_visited := hs.passed_visited
  ahead_new name hname := by
    rcases List.mem_append.mp hname with hold | hnew
    · exact hs.ahead_new name hold
    · obtain rfl := List.mem_singleton.mp hnew
      exact fun hvisited => absurd (hs.visited_lt _ hvisited) (Nat.lt_irrefl _)
  order := by
    have hnew : s.list.fresh ∉ s.registered :=
      fun hmem => absurd (hs.registered_lt _ hmem) (Nat.lt_irrefl _)
    rw [← List.append_assoc, List.filter_append, List.filter_singleton]
    simpa [hnew] using hs.order

theorem Split.filter {s : DispatchLoop L} {passed ahead : List Nat}
    (hs : s.Split passed ahead) (list : NodeList L)
    (hfresh : list.fresh = s.list.fresh) (keep : Nat → Bool) :
    Split { s with list := list } (passed.filter keep) (ahead.filter keep) where
  registered_lt name hname := hfresh ▸ hs.registered_lt name hname
  visited_lt name hname := hfresh ▸ hs.visited_lt name hname
  once := hs.once
  passed_visited name hname :=
    hs.passed_visited name (List.mem_of_mem_filter hname)
  ahead_new name hname := hs.ahead_new name (List.mem_of_mem_filter hname)
  order := by
    have hfewer : (s.visited ++ ahead.filter keep).Sublist (s.visited ++ ahead) :=
      (List.Sublist.refl _).append List.filter_sublist
    exact (hfewer.filter _).trans hs.order

variable [DecidableEq L]

/-- What a call of an add or a remove does to the list. -/
inductive Changed (list : NodeList L) : NodeList L → Prop where
  | same : Changed list list
  | pushBack (listener : L) : Changed list (list.pushBack listener)
  | pushFront (listener : L) : Changed list (list.pushFront listener)
  | eraseFirst (listener : L) : Changed list (list.eraseFirst listener)

theorem changed_add (registry : Registry) (list : NodeList L)
    (listener : Option L) : Changed list (registry.add list listener) := by
  have habsent : Changed list (addIfAbsent list listener) := by
    cases listener with
    | none => exact .same
    | some listener =>
        simp only [addIfAbsent]
        split
        · exact .same
        · exact .pushFront listener
  cases registry with
  | mFdWatchers =>
      cases listener with
      | none => exact .same
      | some watcher => exact .pushBack watcher
  | mKeyListeners => exact habsent
  | mWifiListeners => exact habsent

theorem changed_remove (registry : Registry) (list : NodeList L)
    (listener : Option L) : Changed list (registry.remove list listener) := by
  have hremove : registry.remove list listener = removeFirst list listener := by
    cases registry <;> rfl
  rw [hremove]
  cases listener with
  | none => exact .same
  | some listener => exact .eraseFirst listener

theorem mayChange_cases {pc : LoopPc} (hmay : pc.mayChange = true) :
    pc = .outside ∨ ∃ current, pc = .inCallback current := by
  cases pc with
  | outside => exact .inl rfl
  | inCallback current => exact .inr ⟨current, rfl⟩
  | atTest it => cases hmay
  | dangling => cases hmay

section

variable {pc : LoopPc} {names visited passed ahead : List Nat} {fresh : Nat}

theorem splits_pushFront (hmay : pc.mayChange = true) (hfresh : fresh ∉ visited)
    (hpc : pc.Splits names visited passed ahead) :
    pc.Splits (fresh :: names) visited (fresh :: passed) ahead := by
  rcases mayChange_cases hmay with rfl | ⟨current, rfl⟩
  · exact congrArg (fresh :: ·) hpc
  · obtain ⟨hvisited, hnames | ⟨hgone, hnames⟩⟩ := hpc
    · exact ⟨hvisited, .inl (congrArg (fresh :: ·) hnames)⟩
    · have hne : current ≠ fresh := fun h => hfresh (h ▸ hvisited)
      refine ⟨hvisited, .inr ⟨?_, congrArg (fresh :: ·) hnames⟩⟩
      exact List.not_mem_cons_of_ne_of_not_mem hne hgone

theorem splits_pushBack (hmay : pc.mayChange = true) (hfresh : fresh ∉ visited)
    (hpc : pc.Splits names visited passed ahead) :
    pc.Splits (names ++ [fresh]) visited passed (ahead ++ [fresh]) := by
  rcases mayChange_cases hmay with rfl | ⟨current, rfl⟩
  · rw [show names = passed ++ ahead from hpc, List.append_assoc]
    rfl
  · obtain ⟨hvisited, hnames | ⟨hgone, hnames⟩⟩ := hpc
    · refine ⟨hvisited, .inl ?_⟩
      rw [hnames, List.append_assoc, List.cons_append]
    · have hne : current ≠ fresh := fun h => hfresh (h ▸ hvisited)
      refine ⟨hvisited, .inr ⟨?_, ?_⟩⟩
      · simp [hgone, hne]
      · rw [hnames, List.append_assoc]

/-- The entries that are kept are split as before. -/
theorem splits_filter (hmay : pc.mayChange = true) (keep : Nat → Bool)
    (hpc : pc.Splits names visited passed ahead) :
    pc.Splits (names.filter keep) visited (passed.filter keep)
      (ahead.filter keep) := by
  rcases mayChange_cases hmay with rfl | ⟨current, rfl⟩
  · rw [show names = passed ++ ahead from hpc]
    exact List.filter_append _ _
  · obtain ⟨hvisited, hnames | ⟨hgone, hnames⟩⟩ := hpc
    · refine ⟨hvisited, ?_⟩
      cases hcurrent : keep current with
      | false =>
          refine .inr ⟨by simp [hcurrent], ?_⟩
          rw [hnames, List.filter_append, List.filter_cons_of_neg (by simp [hcurrent])]
      | true =>
          refine .inl ?_
          rw [hnames, List.filter_append, List.filter_cons_of_pos hcurrent]
    · refine ⟨hvisited, .inr ⟨?_, ?_⟩⟩
      · exact fun hmem => hgone (List.mem_of_mem_filter hmem)
      · rw [hnames, List.filter_append]

end

/-- A change of the registry outside of the loop or in a callback. -/
theorem Inv.changed {registry : Registry} {s : DispatchLoop L}
    (hs : s.Inv registry) (hmay : s.pc.mayChange = true) {list : NodeList L}
    (hlist : Changed s.list list) : Inv registry { s with list := list } := by
  obtain ⟨⟨passed, ahead, hsplit, hpc⟩, hready, hcalled⟩ := hs
  have hfresh : s.list.fresh ∉ s.visited :=
    fun hmem => Nat.lt_irrefl _ (hsplit.visited_lt _ hmem)
  refine ⟨?_, hready, hcalled⟩
  cases hlist with
  | same => exact ⟨passed, ahead, hsplit, hpc⟩
  | pushFront listener =>
      refine ⟨_, _, hsplit.pushFront listener, ?_⟩
      rw [NodeList.names_pushFront]
      exact splits_pushFront hmay hfresh hpc
  | pushBack listener =>
      refine ⟨_, _, hsplit.pushBack listener, ?_⟩
      rw [NodeList.names_pushBack]
      exact splits_pushBack hmay hfresh hpc
  | eraseFirst listener =>
      obtain ⟨erased, herased⟩ := s.list.names_eraseFirst listener
      refine ⟨_, _, hsplit.filter (s.list.eraseFirst listener) rfl
        (fun name => decide (name ≠ erased)), ?_⟩
      rw [herased]
      exact splits_filter hmay _ hpc

/-! ### Runs -/

/-- A step keeps the invariant, unless the loop goes on from an entry that is
not in the list any more. -/
theorem step_inv {registry : Registry} {s t : DispatchLoop L}
    (hs : s.Inv registry) {action : DispatchStep L}
    (hstep : s.step registry action = some t) :
    s.KeepsCurrent registry action ∧ t.Inv registry ∨
      ¬ s.KeepsCurrent registry action ∧ t.pc = .dangling := by
  cases step_move hstep with
  | begin hpc => exact .inl ⟨trivial, .begin⟩
  | visit name listener ready hpc hvalue =>
      exact .inl ⟨trivial, hs.visit hpc listener ready⟩
  | finish hpc => exact .inl ⟨trivial, hs.leave⟩
  | add listener hmay => exact .inl ⟨trivial, hs.changed hmay (changed_add _ _ _)⟩
  | remove listener hmay =>
      exact .inl ⟨trivial, hs.changed hmay (changed_remove _ _ _)⟩
  | ends name hpc hkey => exact .inl ⟨fun _ _ => .inr ⟨hkey, rfl⟩, hs.leave⟩
  | goesOn name result hpc hnot hname =>
      refine .inl ⟨fun other hother => ?_, hs.returns hpc hname⟩
      rw [hpc] at hother
      cases hother
      exact .inl hname
  | dangles name result hpc hnot hname =>
      exact .inr ⟨fun hkeeps => (hkeeps name hpc).elim hname hnot, rfl⟩

/-- For every list and every behaviour of the callbacks, the loop is sound
exactly when each entry is still in the list when its callback returns, or the
loop ends with it. -/
theorem dispatch_sound_iff (registry : Registry) (list : NodeList L)
    (steps : List (DispatchStep L)) :
    LabelledRun.EachState (step registry) (Sound registry) (init list) steps ↔
      LabelledRun.EachStep (step registry) (KeepsCurrent registry) (init list)
        steps := by
  have hgood (s : DispatchLoop L) (hs : s.Inv registry) : s.Sound registry :=
    hs.sound
  refine LabelledRun.eachState_iff_eachStep_of_kept hgood ?_ ?_
    (init_inv registry list) steps
  · intro s action t hs hguard hstep
    rcases step_inv hs hstep with ⟨-, ht⟩ | ⟨hnot, -⟩
    · exact ht
    · exact absurd hguard hnot
  · intro s action t hs hstep hsound
    rcases step_inv hs hstep with ⟨hguard, -⟩ | ⟨-, hdangling⟩
    · exact hguard
    · exact absurd hdangling hsound.live

/-- A listener that removes itself. -/
def removesItself : List (DispatchStep Nat) :=
  [.add (some 7), .begin, .visit true, .remove (some 7), .returns false]

theorem removesItself_not_sound :
    ¬ LabelledRun.EachState (step .mFdWatchers) (Sound .mFdWatchers)
        (init NodeList.empty) removesItself ∧
      ¬ LabelledRun.EachState (step .mKeyListeners) (Sound .mKeyListeners)
        (init NodeList.empty) removesItself ∧
      ¬ LabelledRun.EachState (step .mWifiListeners) (Sound .mWifiListeners)
        (init NodeList.empty) removesItself :=
  ⟨fun hsound => (hsound.of_run rfl).live rfl,
    fun hsound => (hsound.of_run rfl).live rfl,
    fun hsound => (hsound.of_run rfl).live rfl⟩

end DispatchLoop

end MyDirectFB

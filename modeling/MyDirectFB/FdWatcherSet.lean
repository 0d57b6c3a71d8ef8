/-
The watchers of the event loop as a set: what the list holds is what the calls
of `addFdWatcher` and `removeFdWatcher` have asked for last, and a pass of the
loop calls a watcher once.  `addFdWatcher` logs that a watcher is in the list
and inserts it all the same, where the other two registries return.
-/
import MyDirectFB.ListenerListDispatch

namespace MyDirectFB

universe u

/-- The loop over the watchers, with the watchers whose last call was an add,
and those that have been added again since the loop has called them. -/
structure WatchedLoop (L : Type u) where
  loop : DispatchLoop L
  wanted : L → Bool
  again : List L

variable {L : Type u}

def DispatchLoop.watchersCalled (s : DispatchLoop L) : List L :=
  s.called.map Prod.snd

namespace WatchedLoop

def init : WatchedLoop L :=
  ⟨DispatchLoop.init NodeList.empty, fun _ => false, []⟩

/-- The registry is a set, and the loop calls what is in it. -/
structure IsSet (s : WatchedLoop L) : Prop where
  live : s.loop.pc ≠ .dangling
  nodup : s.loop.list.values.Nodup
  wanted : ∀ watcher, watcher ∈ s.loop.list.values ↔ s.wanted watcher = true
  next : ∀ name watcher, s.loop.pc = .atTest (some name) →
    s.loop.list.value? name = some watcher → s.wanted watcher = true
  once : s.loop.watchersCalled.Nodup

/-! ### The invariant -/

/-- The invariant of a registry that has been a set. -/
structure Inv (s : WatchedLoop L) : Prop where
  loop : s.loop.Inv .mFdWatchers
  nodup : s.loop.list.values.Nodup
  wanted : ∀ watcher, watcher ∈ s.loop.list.values ↔ s.wanted watcher = true
  once : s.loop.watchersCalled.Nodup
  again_called : ∀ watcher ∈ s.again, watcher ∈ s.loop.watchersCalled
  unvisited : ∀ name watcher, (name, watcher) ∈ s.loop.list.nodes →
    name ∉ s.loop.visited → watcher ∈ s.loop.watchersCalled →
    watcher ∈ s.again

theorem init_inv : (init : WatchedLoop L).Inv where
  loop := DispatchLoop.init_inv .mFdWatchers NodeList.empty
  nodup := List.nodup_nil
  wanted _ := iff_of_false List.not_mem_nil Bool.false_ne_true
  once := List.nodup_nil
  again_called := List.forall_mem_nil _
  unvisited _ _ hnode := absurd hnode List.not_mem_nil

theorem Inv.isSet {s : WatchedLoop L} (hs : s.Inv) : s.IsSet where
  live := hs.loop.sound.live
  nodup := hs.nodup
  wanted := hs.wanted
  next _ watcher _ hvalue :=
    (hs.wanted watcher).mp (NodeList.mem_values_of_value? hvalue)
  once := hs.once

/-- The node that the loop comes to next has not been visited. -/
theorem Inv.next_unvisited {s : WatchedLoop L} (hs : s.Inv) {name : Nat}
    (hpc : s.loop.pc = .atTest (some name)) : name ∉ s.loop.visited := by
  obtain ⟨passed, ahead, hsplit, hplace⟩ := hs.loop.split
  rw [hpc] at hplace
  exact hsplit.ahead_new name (List.mem_of_mem_head? hplace.2.symm)

/-- Only a watcher that has been added again is met a second time. -/
theorem Inv.called_iff_again {s : WatchedLoop L} (hs : s.Inv) {name : Nat}
    {watcher : L} (hpc : s.loop.pc = .atTest (some name))
    (hvalue : s.loop.list.value? name = some watcher) :
    watcher ∈ s.loop.watchersCalled ↔ watcher ∈ s.again :=
  ⟨hs.unvisited name watcher (NodeList.mem_nodes_of_value? hvalue)
    (hs.next_unvisited hpc), hs.again_called watcher⟩

/-- The loop comes to a watcher. -/
theorem Inv.visit {s : WatchedLoop L} (hs : s.Inv) {name : Nat} {watcher : L}
    (hpc : s.loop.pc = .atTest (some name))
    (hvalue : s.loop.list.value? name = some watcher) {ready : Bool}
    (hnew : ready = true → watcher ∉ s.again) :
    Inv { s with loop := s.loop.visit .mFdWatchers name watcher ready } := by
  have hloop := hs.loop.visit hpc watcher ready
  have hnode := NodeList.mem_nodes_of_value? hvalue
  cases ready with
  | false =>
      refine ⟨hloop, hs.nodup, hs.wanted, hs.once, hs.again_called, ?_⟩
      intro other watcher' hother hunvisited
      apply hs.unvisited other watcher' hother
      exact fun hmem => hunvisited (List.mem_append_left _ hmem)
  | true =>
      have hcalled : watcher ∉ s.loop.watchersCalled :=
        fun hmem => hnew rfl ((hs.called_iff_again hpc hvalue).mp hmem)
      have hcalls : (s.loop.visit .mFdWatchers name watcher true).watchersCalled =
          s.loop.watchersCalled ++ [watcher] := by
        simp [DispatchLoop.watchersCalled, DispatchLoop.visit]
      refine ⟨hloop, hs.nodup, hs.wanted, ?_, fun other hother => ?_, ?_⟩
      · rw [hcalls, ← List.concat_eq_append]
        exact List.Nodup.concat hcalled hs.once
      · rw [hcalls]
        exact List.mem_append_left _ (hs.again_called other hother)
      · intro other watcher' hother hunvisited hmem
        change other ∉ s.loop.visited ++ [name] at hunvisited
        change watcher' ∈ DispatchLoop.watchersCalled _ at hmem
        rw [hcalls] at hmem
        rcases List.mem_append.mp hmem with hold | hlast
        · apply hs.unvisited other watcher' hother _ hold
          exact fun hmem => hunvisited (List.mem_append_left _ hmem)
        · obtain rfl := List.mem_singleton.mp hlast
          obtain rfl := NodeList.eq_of_values_nodup hs.nodup hother hnode
          exact absurd (List.mem_append_right _ (List.mem_singleton.mpr rfl))
            hunvisited

/-! ### The steps -/

variable [DecidableEq L]

/-- What is recorded of a step. -/
def record (s : WatchedLoop L) (loop : DispatchLoop L) :
    DispatchStep L → WatchedLoop L
  | .begin => ⟨loop, s.wanted, []⟩
  | .add (some watcher) =>
      ⟨loop, Function.update s.wanted watcher true,
        if watcher ∈ s.loop.watchersCalled then s.again ++ [watcher]
        else s.again⟩
  | .remove (some watcher) =>
      ⟨loop, Function.update s.wanted watcher false, s.again⟩
  | _ => { s with loop := loop }

def step (s : WatchedLoop L) (action : DispatchStep L) :
    Option (WatchedLoop L) :=
  (s.loop.step .mFdWatchers action).map fun loop => s.record loop action

/-- A watcher is added only when it is not in the list, a watcher that has been
called and added again is not ready when the loop comes to it, and a watcher is
in the list when its callback returns. -/
def KeepsSet (s : WatchedLoop L) : DispatchStep L → Prop
  | .add listener => ∀ watcher, listener = some watcher →
      watcher ∉ s.loop.list.values
  | .visit ready => ready = true → ∀ name watcher,
      s.loop.pc = .atTest (some name) →
      s.loop.list.value? name = some watcher → watcher ∉ s.again
  | .returns _ => ∀ name, s.loop.pc = .inCallback name →
      name ∈ s.loop.list.names
  | _ => True

/-! ### Changes of the registry -/

/-- A watcher that is not in the list is added. -/
theorem Inv.add {s : WatchedLoop L} (hs : s.Inv)
    (hmay : s.loop.pc.mayChange = true) {watcher : L}
    (hnew : watcher ∉ s.loop.list.values) :
    Inv (s.record { s.loop with list := s.loop.list.pushBack watcher }
      (.add (some watcher))) := by
  refine ⟨hs.loop.changed hmay (.pushBack watcher), ?_, fun other => ?_,
    hs.once, fun other hother => ?_, ?_⟩
  · change (s.loop.list.pushBack watcher).values.Nodup
    rw [NodeList.values_pushBack, ← List.concat_eq_append]
    exact List.Nodup.concat hnew hs.nodup
  · change other ∈ (s.loop.list.pushBack watcher).values ↔
      Function.update s.wanted watcher true other = true
    rw [NodeList.values_pushBack, List.mem_append, List.mem_singleton]
    by_cases hother : other = watcher
    · simp [hother]
    · simp [hother, hs.wanted other]
  · change other ∈ (if watcher ∈ s.loop.watchersCalled then
      s.again ++ [watcher] else s.again) at hother
    change other ∈ s.loop.watchersCalled
    split at hother
    · rename_i hcalled
      rcases List.mem_append.mp hother with hold | hlast
      · exact hs.again_called other hold
      · obtain rfl := List.mem_singleton.mp hlast
        exact hcalled
    · exact hs.again_called other hother
  · intro name other hnode hunvisited hcalled
    change other ∈ s.loop.watchersCalled at hcalled
    change other ∈ (if watcher ∈ s.loop.watchersCalled then
      s.again ++ [watcher] else s.again)
    rcases List.mem_append.mp hnode with hold | hlast
    · have hagain := hs.unvisited name other hold hunvisited hcalled
      split
      · exact List.mem_append_left _ hagain
      · exact hagain
    · obtain ⟨-, rfl⟩ := Prod.mk.inj (List.mem_singleton.mp hlast)
      rw [if_pos hcalled]
      exact List.mem_append_right _ (List.mem_singleton.mpr rfl)

/-- A watcher is removed. -/
theorem Inv.remove {s : WatchedLoop L} (hs : s.Inv)
    (hmay : s.loop.pc.mayChange = true) (watcher : L) :
    Inv (s.record { s.loop with list := s.loop.list.eraseFirst watcher }
      (.remove (some watcher))) := by
  refine ⟨hs.loop.changed hmay (.eraseFirst watcher), ?_, fun other => ?_,
    hs.once, hs.again_called, fun name other hnode => ?_⟩
  · change (s.loop.list.eraseFirst watcher).values.Nodup
    rw [NodeList.values_eraseFirst]
    exact hs.nodup.erase watcher
  · change other ∈ (s.loop.list.eraseFirst watcher).values ↔
      Function.update s.wanted watcher false other = true
    rw [NodeList.values_eraseFirst, hs.nodup.mem_erase_iff]
    by_cases hother : other = watcher
    · simp [hother]
    · simp [hother, hs.wanted other]
  · exact hs.unvisited name other (List.mem_of_mem_eraseP hnode)

/-! ### Runs -/

/-- A guarded step keeps the invariant. -/
theorem step_inv (s : WatchedLoop L) (action : DispatchStep L)
    (t : WatchedLoop L) (hs : s.Inv) (hguard : s.KeepsSet action)
    (hstep : s.step action = some t) : t.Inv := by
  obtain ⟨loop, hloop, rfl⟩ := Option.map_eq_some_iff.mp hstep
  cases DispatchLoop.step_move hloop with
  | begin hpc =>
      refine ⟨.begin, hs.nodup, hs.wanted, List.nodup_nil,
        List.forall_mem_nil _, ?_⟩
      exact fun _ _ _ _ hcalled => absurd hcalled List.not_mem_nil
  | visit name watcher ready hpc hvalue =>
      exact hs.visit hpc hvalue fun hready => hguard hready name watcher hpc hvalue
  | finish hpc => exact { hs with loop := hs.loop.leave }
  | add listener hmay =>
      cases listener with
      | none => exact hs
      | some watcher => exact hs.add hmay (hguard watcher rfl)
  | remove listener hmay =>
      cases listener with
      | none => exact hs
      | some watcher => exact hs.remove hmay watcher
  | ends name hpc hkey => cases hkey
  | goesOn name result hpc hnot hname =>
      exact { hs with loop := hs.loop.returns hpc hname }
  | dangles name result hpc hnot hname => exact absurd (hguard name hpc) hname

/-- A step that leaves a set has been guarded. -/
theorem keepsSet_of_isSet (s : WatchedLoop L) (action : DispatchStep L)
    (t : WatchedLoop L) (hs : s.Inv) (hstep : s.step action = some t)
    (ht : t.IsSet) : s.KeepsSet action := by
  obtain ⟨loop, hloop, rfl⟩ := Option.map_eq_some_iff.mp hstep
  cases DispatchLoop.step_move hloop with
  | begin hpc => trivial
  | visit name watcher ready hpc hvalue =>
      intro hready other listener hother hlistener hagain
      rw [hpc] at hother
      cases hother
      obtain rfl := Option.some.inj (hvalue.symm.trans hlistener)
      have hcalled := (hs.called_iff_again hpc hvalue).mpr hagain
      have honce := ht.once
      subst hready
      have hcalls : (s.loop.visit .mFdWatchers name watcher
          true).watchersCalled = s.loop.watchersCalled ++ [watcher] := by
        simp [DispatchLoop.watchersCalled, DispatchLoop.visit]
      change (s.loop.visit .mFdWatchers name watcher true).watchersCalled.Nodup
        at honce
      rw [hcalls, List.nodup_append] at honce
      exact honce.2.2 watcher hcalled watcher List.mem_cons_self rfl
  | finish hpc => trivial
  | add listener hmay =>
      rintro watcher rfl hmem
      have hnodup := ht.nodup
      change (s.loop.list.pushBack watcher).values.Nodup at hnodup
      rw [NodeList.values_pushBack, List.nodup_append] at hnodup
      exact hnodup.2.2 watcher hmem watcher List.mem_cons_self rfl
  | remove listener hmay => trivial
  | ends name hpc hkey => cases hkey
  | goesOn name result hpc hnot hname =>
      intro other hother
      rw [hpc] at hother
      cases hother
      exact hname
  | dangles name result hpc hnot hname => exact absurd rfl ht.live

/-- The registry is a set in every state of a run, and every pass of the loop
calls a watcher in it once at most, exactly when no watcher is added while it is
in the list, none is called again after it has been added again, and each is in
the list when its callback returns. -/
theorem watchers_isSet_iff (steps : List (DispatchStep L)) :
    LabelledRun.EachState step IsSet (init : WatchedLoop L) steps ↔
      LabelledRun.EachStep step KeepsSet (init : WatchedLoop L) steps := by
  have hgood (s : WatchedLoop L) (hs : s.Inv) : s.IsSet := hs.isSet
  exact LabelledRun.eachState_iff_eachStep_of_kept hgood step_inv
    keepsSet_of_isSet init_inv steps

/-- A watcher that is registered twice and removed once. -/
def addedTwice : List (DispatchStep Nat) :=
  [.add (some 7), .add (some 7), .remove (some 7)]

theorem addedTwice_not_isSet :
    ¬ LabelledRun.EachState step IsSet (init : WatchedLoop Nat) addedTwice := by
  intro hset
  have hstill := ((hset.of_run rfl).wanted 7).mp (by decide)
  exact absurd hstill (by decide)

end WatchedLoop

end MyDirectFB

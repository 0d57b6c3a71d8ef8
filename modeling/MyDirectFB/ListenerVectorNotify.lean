/-
What the loops over the listener vectors owe to the listeners that stay.  The
loop knows its place by an index: it holds through every change behind it, a
removal at or before it makes the loop pass over the next listener, and a
removal that no add makes up for leads it beyond the end.
-/
import MyDirectFB.ListenerVector
import MyDirectFB.Lib.LabelledRun

namespace MyDirectFB

universe u

variable {L : Type u}

/-- The index from which on the loop has yet to call; `size` outside of it. -/
def NotifyPc.next (size : Nat) : NotifyPc → Nat
  | .outside => size
  | .atTest ii => ii
  | .inCallback ii => ii + 1
  | .outOfRange => 0

namespace NotifyLoop

/-- The entries the loop has yet to come to. -/
def ahead (s : NotifyLoop L) : List Nat :=
  s.mListeners.names.drop (s.pc.next s.mListeners.names.length)

/-- The entries that were registered when the loop began, are still there and
have not been called. -/
def Waiting (s : NotifyLoop L) (name : Nat) : Prop :=
  name ∈ s.registered ∧ name ∈ s.mListeners.names ∧ name ∉ s.called

/-- What a loop owes to its listeners, in every state: it uses no index beyond
the end, calls no entry twice, does not pass over one that waits for its call,
and has called all of them when it comes to its end. -/
structure Sound (s : NotifyLoop L) : Prop where
  live : s.pc ≠ .outOfRange
  once : s.called.Nodup
  not_passed : ∀ name, s.Waiting name → name ∈ s.ahead
  complete : ∀ ii, s.pc = .atTest ii → s.count ≤ ii → ∀ name, ¬ s.Waiting name

/-- The invariant of a loop that has been sound. -/
structure Inv (s : NotifyLoop L) : Prop where
  live : s.pc ≠ .outOfRange
  /-- The entries that have been there since the loop began come first. -/
  split : ∃ old new, s.mListeners.names = old ++ new ∧
    (∀ name ∈ old, name ∈ s.registered) ∧
    (∀ name ∈ new, name ∉ s.registered) ∧ old.length ≤ s.count
  registered_lt : ∀ name ∈ s.registered, name < s.mListeners.fresh
  called_lt : ∀ name ∈ s.called, name < s.mListeners.fresh
  once : s.called.Nodup
  not_passed : ∀ name, s.Waiting name → name ∈ s.ahead
  behind : ∀ name ∈ s.called, name ∉ s.ahead
  size : s.pc ≠ .outside →
    s.mListeners.names.length + s.removed = s.count + s.added

theorem init_inv (mListeners : NodeList L) : (init mListeners).Inv where
  live := nofun
  split := ⟨[], mListeners.names, rfl, List.forall_mem_nil _,
    fun _ _ => List.not_mem_nil, Nat.le_refl 0⟩
  registered_lt := List.forall_mem_nil _
  called_lt := List.forall_mem_nil _
  once := List.nodup_nil
  not_passed _ hwaiting := absurd hwaiting.1 List.not_mem_nil
  behind := List.forall_mem_nil _
  size hne := absurd rfl hne

/-- Behind the entries that have been there since the loop began there is none
that was registered then. -/
theorem not_registered_drop {old new registered : List Nat}
    (hnew : ∀ name ∈ new, name ∉ registered) {ii : Nat} (hii : old.length ≤ ii) :
    ∀ name ∈ (old ++ new).drop ii, name ∉ registered := by
  intro name hname
  rw [List.drop_append, List.drop_of_length_le hii, List.nil_append] at hname
  exact hnew name (List.mem_of_mem_drop hname)

theorem Inv.sound {s : NotifyLoop L} (hs : s.Inv) : s.Sound where
  live := hs.live
  once := hs.once
  not_passed := hs.not_passed
  complete ii hpc hend name hwaiting := by
    obtain ⟨old, new, hnames, -, hnew, hlength⟩ := hs.split
    have hahead := hs.not_passed name hwaiting
    rw [ahead, hpc, hnames] at hahead
    exact not_registered_drop hnew (Nat.le_trans hlength hend) name hahead
      hwaiting.1

/-! ### Steps of the loop -/

theorem Inv.begin {s : NotifyLoop L} :
    Inv (⟨s.mListeners, .atTest 0, s.mListeners.names.length,
      s.mListeners.names, [], 0, 0⟩ : NotifyLoop L) where
  live := nofun
  split := ⟨s.mListeners.names, [], (List.append_nil _).symm, fun _ => id,
    List.forall_mem_nil _, Nat.le_refl _⟩
  registered_lt := s.mListeners.lt_fresh
  called_lt := List.forall_mem_nil _
  once := List.nodup_nil
  not_passed _ hwaiting := hwaiting.2.1
  behind := List.forall_mem_nil _
  size _ := rfl

/-- The loop calls the entry of its index. -/
theorem Inv.visit {s : NotifyLoop L} (hs : s.Inv) {ii name : Nat}
    (hpc : s.pc = .atTest ii) (hname : s.mListeners.names[ii]? = some name) :
    Inv { s with pc := .inCallback ii, called := s.called ++ [name] } := by
  obtain ⟨hlt, hget⟩ := List.getElem?_eq_some_iff.mp hname
  have hdrop : s.ahead = name :: s.mListeners.names.drop (ii + 1) := by
    rw [ahead, hpc, ← hget]
    exact List.drop_eq_getElem_cons hlt
  have hnew : name ∉ s.called :=
    fun hcalled => hs.behind name hcalled (hdrop ▸ List.mem_cons_self)
  have hnot : name ∉ s.mListeners.names.drop (ii + 1) := by
    have hnodup : s.ahead.Nodup :=
      s.mListeners.names_nodup.sublist (List.drop_sublist _ _)
    rw [hdrop] at hnodup
    exact (List.nodup_cons.mp hnodup).1
  refine ⟨nofun, hs.split, hs.registered_lt, fun other hother => ?_, ?_,
    fun other hwaiting => ?_, fun other hother => ?_, fun _ => hs.size ?_⟩
  · rcases List.mem_append.mp hother with hold | hlast
    · exact hs.called_lt other hold
    · obtain rfl := List.mem_singleton.mp hlast
      exact s.mListeners.lt_fresh other (List.mem_of_getElem? hname)
  · rw [← List.concat_eq_append]
    exact List.Nodup.concat hnew hs.once
  · obtain ⟨hregistered, hpresent, huncalled⟩ := hwaiting
    have hahead := hs.not_passed other ⟨hregistered, hpresent,
      fun hold => huncalled (List.mem_append_left _ hold)⟩
    rw [hdrop] at hahead
    rcases List.mem_cons.mp hahead with rfl | hlater
    · exact absurd (List.mem_append_right _ (List.mem_singleton.mpr rfl))
        huncalled
    · exact hlater
  · change other ∉ s.mListeners.names.drop (ii + 1)
    rcases List.mem_append.mp hother with hold | hlast
    · have hbehind := hs.behind other hold
      rw [hdrop] at hbehind
      exact fun hmem => hbehind (List.mem_cons_of_mem name hmem)
    · obtain rfl := List.mem_singleton.mp hlast
      exact hnot
  · rw [hpc]
    exact nofun

theorem Inv.returns {s : NotifyLoop L} (hs : s.Inv) {ii : Nat}
    (hpc : s.pc = .inCallback ii) : Inv { s with pc := .atTest (ii + 1) } := by
  have hahead : ahead { s with pc := .atTest (ii + 1) } = s.ahead := by
    simp only [ahead, hpc, NotifyPc.next]
  refine ⟨nofun, hs.split, hs.registered_lt, hs.called_lt, hs.once, ?_, ?_,
    fun _ => hs.size ?_⟩
  · rw [hahead]
    exact hs.not_passed
  · rw [hahead]
    exact hs.behind
  · rw [hpc]
    exact nofun

theorem Inv.finish {s : NotifyLoop L} (hs : s.Inv) {ii : Nat}
    (hpc : s.pc = .atTest ii) (hend : s.count ≤ ii) :
    Inv { s with pc := .outside } := by
  have hahead : ahead { s with pc := .outside } = [] := List.drop_length
  refine ⟨nofun, hs.split, hs.registered_lt, hs.called_lt, hs.once,
    fun name hwaiting => ?_, ?_, fun hne => absurd rfl hne⟩
  · exact absurd hwaiting (hs.sound.complete ii hpc hend name)
  · rw [hahead]
    exact fun _ _ => List.not_mem_nil

/-! ### Listeners that come and go -/

theorem mayChange_cases {pc : NotifyPc} (hmay : pc.mayChange = true) :
    pc = .outside ∨ ∃ ii, pc = .inCallback ii := by
  cases pc with
  | outside => exact .inl rfl
  | inCallback ii => exact .inr ⟨ii, rfl⟩
  | atTest ii => cases hmay
  | outOfRange => cases hmay

/-- The part of the names in a list that the loop has yet to come to. -/
def aheadIn (pc : NotifyPc) (names : List Nat) : List Nat :=
  names.drop (pc.next names.length)

section

variable {pc : NotifyPc} {names front back : List Nat} {name last erased : Nat}

/-- What is ahead stays there when an entry is added behind it. -/
theorem mem_ahead_append (hmay : pc.mayChange = true)
    (hname : name ∈ aheadIn pc names) : name ∈ aheadIn pc (names ++ [last]) := by
  rcases mayChange_cases hmay with rfl | ⟨ii, rfl⟩
  · simp [aheadIn, NotifyPc.next] at hname
  · rw [aheadIn, NotifyPc.next, List.drop_append]
    exact List.mem_append_left _ hname

theorem of_mem_ahead_append (hmay : pc.mayChange = true)
    (hname : name ∈ aheadIn pc (names ++ [last])) :
    name ∈ aheadIn pc names ∨ name = last := by
  rcases mayChange_cases hmay with rfl | ⟨ii, rfl⟩
  · simp [aheadIn, NotifyPc.next] at hname
  · rw [aheadIn, NotifyPc.next, List.drop_append] at hname
    exact (List.mem_append.mp hname).imp_right fun hlast =>
      List.mem_singleton.mp (List.mem_of_mem_drop hlast)

/-- The removal of an entry behind the current one leaves the others ahead. -/
theorem mem_ahead_erased (hmay : pc.mayChange = true)
    (hplace : ∀ ii, pc = .inCallback ii → ii < front.length) (hne : name ≠ erased)
    (hname : name ∈ aheadIn pc (front ++ erased :: back)) :
    name ∈ aheadIn pc (front ++ back) := by
  rcases mayChange_cases hmay with rfl | ⟨ii, rfl⟩
  · simp [aheadIn, NotifyPc.next] at hname
  · rw [aheadIn, NotifyPc.next] at hname ⊢
    rw [List.drop_append_of_le_length (hplace ii rfl)] at hname ⊢
    simpa [hne] using hname

/-- After a removal there is nothing ahead that was not ahead before. -/
theorem of_mem_ahead_erased (hmay : pc.mayChange = true)
    (hname : name ∈ aheadIn pc (front ++ back)) :
    name ∈ aheadIn pc (front ++ erased :: back) := by
  rcases mayChange_cases hmay with rfl | ⟨ii, rfl⟩
  · simp [aheadIn, NotifyPc.next] at hname
  · rw [aheadIn, NotifyPc.next] at hname ⊢
    rw [List.drop_append] at hname ⊢
    rcases List.mem_append.mp hname with hfront | hback
    · exact List.mem_append_left _ hfront
    · apply List.mem_append_right
      cases hrest : ii + 1 - front.length with
      | zero => exact List.mem_cons_of_mem erased (List.mem_of_mem_drop hback)
      | succ k =>
          rw [hrest] at hback
          rw [List.drop_succ_cons]
          exact (List.drop_sublist_drop_left back (Nat.le_succ k)).subset hback

end

/-- A new listener comes last, behind those that wait. -/
theorem Inv.add {s : NotifyLoop L} (hs : s.Inv) (hmay : s.pc.mayChange = true)
    (listener : L) :
    Inv { s with
      mListeners := s.mListeners.pushBack listener
      added := s.added + 1 } := by
  obtain ⟨old, new, hnames, hold, hnew, hlength⟩ := hs.split
  have hfresh : s.mListeners.fresh ∉ s.registered :=
    fun hmem => Nat.lt_irrefl _ (hs.registered_lt _ hmem)
  have hfreshCalled : s.mListeners.fresh ∉ s.called :=
    fun hmem => Nat.lt_irrefl _ (hs.called_lt _ hmem)
  have hlater := s.mListeners.names_pushBack listener
  refine ⟨hs.live, ⟨old, new ++ [s.mListeners.fresh], ?_, hold, ?_, hlength⟩,
    fun name hname => Nat.lt_succ_of_lt (hs.registered_lt name hname),
    fun name hname => Nat.lt_succ_of_lt (hs.called_lt name hname), hs.once,
    ?_, ?_, ?_⟩
  · rw [hlater, hnames, List.append_assoc]
  · intro name hname
    rcases List.mem_append.mp hname with hmem | hlast
    · exact hnew name hmem
    · obtain rfl := List.mem_singleton.mp hlast
      exact hfresh
  · rintro name ⟨hregistered, hpresent, huncalled⟩
    change name ∈ aheadIn s.pc (s.mListeners.pushBack listener).names
    rw [hlater] at hpresent ⊢
    rcases List.mem_append.mp hpresent with hmem | hlast
    · exact mem_ahead_append hmay
        (hs.not_passed name ⟨hregistered, hmem, huncalled⟩)
    · obtain rfl := List.mem_singleton.mp hlast
      exact absurd hregistered hfresh
  · intro name hcalled hmem
    change name ∈ aheadIn s.pc (s.mListeners.pushBack listener).names at hmem
    rw [hlater] at hmem
    rcases of_mem_ahead_append hmay hmem with hahead | rfl
    · exact hs.behind name hcalled hahead
    · exact hfreshCalled hcalled
  · intro hne
    have hsize := hs.size hne
    simp only [NodeList.names_pushBack, List.length_append,
      List.length_singleton]
    omega

/-- After a removal at or before index `n`, the entry behind it is the one at
`n`. -/
theorem drop_succ_erased {front back : List Nat} {erased n : Nat}
    (hn : front.length ≤ n) :
    (front ++ back).drop (n + 1) =
      ((front ++ erased :: back).drop (n + 1)).tail := by
  have hfront : front.drop (n + 1) = [] := List.drop_of_length_le (by omega)
  have hrest : n + 1 - front.length = (n - front.length) + 1 := by omega
  rw [List.drop_append, List.drop_append, hfront, List.nil_append,
    List.nil_append, hrest, List.drop_succ_cons, List.tail_drop]

theorem addListener_eq (notification : Notification) (mListeners : NodeList L)
    (listener : L) :
    notification.addListener mListeners listener =
      mListeners.pushBack listener := by
  cases notification <;> rfl

variable [DecidableEq L]

/-- A listener is removed, in a callback behind the current index or when no
entry waits. -/
theorem Inv.remove {s : NotifyLoop L} (hs : s.Inv)
    (hmay : s.pc.mayChange = true) {listener : L}
    (hguard : ∀ ii, s.pc = .inCallback ii → listener ∈ s.mListeners.values →
      ii < s.mListeners.values.idxOf listener ∨ ∀ name, ¬ s.Waiting name) :
    Inv { s with
      mListeners := s.mListeners.eraseFirst listener
      removed := s.removed + (s.mListeners.names.length -
        (s.mListeners.eraseFirst listener).names.length) } := by
  obtain ⟨old, new, hnames, hold, hnew, hlength⟩ := hs.split
  obtain ⟨erased, herased⟩ := s.mListeners.names_eraseFirst listener
  have hsublist : (s.mListeners.eraseFirst listener).names.Sublist
      s.mListeners.names := herased ▸ List.filter_sublist
  have hwaiting (name : Nat) (hname : name ∈ s.registered ∧
      name ∈ (s.mListeners.eraseFirst listener).names ∧ name ∉ s.called) :
      s.Waiting name :=
    ⟨hname.1, hsublist.subset hname.2.1, hname.2.2⟩
  refine ⟨hs.live, ⟨old.filter fun name => decide (name ≠ erased),
      new.filter fun name => decide (name ≠ erased), ?_, ?_, ?_, ?_⟩,
    hs.registered_lt, hs.called_lt, hs.once, ?_, ?_, ?_⟩
  · rw [herased, hnames, List.filter_append]
  · exact fun name hname => hold name (List.mem_of_mem_filter hname)
  · exact fun name hname => hnew name (List.mem_of_mem_filter hname)
  · exact Nat.le_trans (List.length_filter_le _ _) hlength
  · intro name hname
    have hahead := hs.not_passed name (hwaiting name hname)
    change name ∈ aheadIn s.pc s.mListeners.names at hahead
    change name ∈ aheadIn s.pc (s.mListeners.eraseFirst listener).names
    rcases s.mListeners.eraseFirst_cases listener with
      ⟨-, hsame⟩ | ⟨hlistener, front, gone, back, hbefore, hafter, hindex⟩
    · rw [hsame]
      exact hahead
    · have hpresent := hname.2.1
      rw [hafter] at hpresent ⊢
      rw [hbefore] at hahead
      have hnodup := s.mListeners.names_nodup
      rw [hbefore, List.nodup_middle, List.nodup_cons] at hnodup
      have hne : name ≠ gone := by
        rintro rfl
        exact hnodup.1 hpresent
      refine mem_ahead_erased hmay (fun ii hpc => ?_) hne hahead
      rcases hguard ii hpc hlistener with hlt | hnone
      · rw [hindex]
        exact hlt
      · exact absurd (hwaiting name hname) (hnone name)
  · intro name hcalled hmem
    have hbehind := hs.behind name hcalled
    change name ∉ aheadIn s.pc s.mListeners.names at hbehind
    change name ∈ aheadIn s.pc (s.mListeners.eraseFirst listener).names at hmem
    rcases s.mListeners.eraseFirst_cases listener with
      ⟨-, hsame⟩ | ⟨-, front, gone, back, hbefore, hafter, -⟩
    · exact hbehind (hsame ▸ hmem)
    · rw [hbefore] at hbehind
      rw [hafter] at hmem
      exact hbehind (of_mem_ahead_erased hmay hmem)
  · intro hne
    have hsize := hs.size hne
    have hle := hsublist.length_le
    change (s.mListeners.eraseFirst listener).names.length +
      (s.removed + (s.mListeners.names.length -
        (s.mListeners.eraseFirst listener).names.length)) = s.count + s.added
    omega

/-! ### Runs -/

/-- At each index, the entries that have gone since the loop began are made up
for, and a callback removes no entry at or before the current one while another
one waits for its call. -/
def KeepsIndex (s : NotifyLoop L) : NotifyStep L → Prop
  | .visit => ∀ ii, s.pc = .atTest ii → ii < s.count →
      s.removed + ii < s.count + s.added
  | .remove listener => ∀ ii, s.pc = .inCallback ii →
      listener ∈ s.mListeners.values →
      ii < s.mListeners.values.idxOf listener ∨ ∀ name, ¬ s.Waiting name
  | _ => True

theorem removeListener_eq (notification : Notification)
    (mListeners : NodeList L) (listener : L) :
    notification.removeListener mListeners listener =
      mListeners.eraseFirst listener := by
  cases notification <;> rfl

/-- A guarded step keeps the invariant. -/
theorem step_inv {notification : Notification} (s : NotifyLoop L)
    (action : NotifyStep L) (t : NotifyLoop L) (hs : s.Inv)
    (hguard : s.KeepsIndex action)
    (hstep : s.step notification action = some t) : t.Inv := by
  cases action with
  | begin =>
      cases hpc : s.pc <;> simp [step, hpc] at hstep
      subst hstep
      exact .begin
  | visit =>
      cases hpc : s.pc <;> simp only [step, hpc, reduceCtorEq] at hstep
      rename_i ii
      obtain ⟨hlt, hstep⟩ := Option.ite_none_right_eq_some.mp hstep
      have hmade := hguard ii hpc hlt
      have hsize := hs.size (by rw [hpc]; exact nofun)
      have hin : ii < s.mListeners.names.length := by omega
      rw [List.getElem?_eq_getElem hin] at hstep
      obtain rfl := Option.some.inj hstep
      exact hs.visit hpc (List.getElem?_eq_getElem hin)
  | finish =>
      cases hpc : s.pc <;> simp only [step, hpc, reduceCtorEq] at hstep
      rename_i ii
      obtain ⟨hend, hstep⟩ := Option.ite_none_left_eq_some.mp hstep
      obtain rfl := Option.some.inj hstep
      exact hs.finish hpc (Nat.le_of_not_lt hend)
  | add listener =>
      obtain ⟨hmay, hnext⟩ := Option.ite_none_right_eq_some.mp hstep
      obtain rfl := Option.some.inj hnext
      rw [addListener_eq]
      exact hs.add hmay listener
  | remove listener =>
      obtain ⟨hmay, hnext⟩ := Option.ite_none_right_eq_some.mp hstep
      obtain rfl := Option.some.inj hnext
      rw [removeListener_eq]
      exact hs.remove hmay hguard
  | returns =>
      cases hpc : s.pc <;> simp only [step, hpc, reduceCtorEq] at hstep
      obtain rfl := Option.some.inj hstep
      exact hs.returns hpc

/-- A removal at or before the current index makes the loop pass over the entry
behind it, which waits if any does. -/
theorem Inv.passes_over {s : NotifyLoop L} (hs : s.Inv) {ii : Nat}
    (hpc : s.pc = .inCallback ii) {listener : L}
    (hlistener : listener ∈ s.mListeners.values)
    (hindex : s.mListeners.values.idxOf listener ≤ ii) {name : Nat}
    (hname : s.Waiting name) {removed : Nat}
    (hnot_passed : ∀ other, Waiting { s with
        mListeners := s.mListeners.eraseFirst listener
        removed := removed } other →
      other ∈ ahead { s with
        mListeners := s.mListeners.eraseFirst listener
        removed := removed }) : False := by
  rcases s.mListeners.eraseFirst_cases listener with
    ⟨hnone, -⟩ | ⟨-, front, gone, back, hbefore, hafter, hfront⟩
  · exact hnone hlistener
  obtain ⟨old, new, hnames, hold, hnew, -⟩ := hs.split
  have hahead := hs.not_passed name hname
  rw [ahead, hpc] at hahead
  have hshort : ii + 1 < old.length := by
    by_contra hlong
    rw [hnames] at hahead
    exact not_registered_drop hnew (Nat.le_of_not_lt hlong) name hahead hname.1
  obtain ⟨next, rest, hdrop, hnext⟩ : ∃ next rest,
      s.mListeners.names.drop (ii + 1) = next :: rest ∧ next ∈ old := by
    refine ⟨old[ii + 1], old.drop (ii + 1 + 1) ++ new, ?_,
      List.getElem_mem hshort⟩
    rw [hnames, List.drop_append_of_le_length (Nat.le_of_lt hshort),
      List.drop_eq_getElem_cons hshort, List.cons_append]
  have hnodup : (next :: rest).Nodup :=
    hdrop ▸ s.mListeners.names_nodup.sublist (List.drop_sublist _ _)
  have huncalled : next ∉ s.called := by
    intro hcalled
    have hbehind := hs.behind next hcalled
    simp only [ahead, hpc, NotifyPc.next, hdrop] at hbehind
    exact hbehind List.mem_cons_self
  have hpresent : next ∈ (s.mListeners.eraseFirst listener).names := by
    have hrest : ii + 1 - front.length = (ii - front.length) + 1 := by omega
    have hin : next ∈ s.mListeners.names.drop (ii + 1) :=
      hdrop ▸ List.mem_cons_self
    rw [hbefore, List.drop_append, List.drop_of_length_le (by omega),
      List.nil_append, hrest, List.drop_succ_cons] at hin
    rw [hafter]
    exact List.mem_append_right front (List.mem_of_mem_drop hin)
  have hpassed := hnot_passed next ⟨hold next hnext, hpresent, huncalled⟩
  simp only [ahead, hpc, NotifyPc.next] at hpassed
  rw [hafter, drop_succ_erased (by omega), ← hbefore, hdrop] at hpassed
  exact (List.nodup_cons.mp hnodup).1 hpassed

/-- A step that leaves the loop sound has been guarded. -/
theorem keepsIndex_of_sound {notification : Notification} (s : NotifyLoop L)
    (action : NotifyStep L) (t : NotifyLoop L) (hs : s.Inv)
    (hstep : s.step notification action = some t) (ht : t.Sound) :
    s.KeepsIndex action := by
  cases action with
  | begin => trivial
  | visit =>
      intro ii hpc hlt
      have hsize := hs.size (by rw [hpc]; exact nofun)
      simp only [step, hpc, hlt, ↓reduceIte] at hstep
      by_contra hgone
      rw [List.getElem?_eq_none (by omega)] at hstep
      obtain rfl := Option.some.inj hstep
      exact ht.live rfl
  | finish => trivial
  | add listener => trivial
  | remove listener =>
      intro ii hpc hlistener
      obtain ⟨-, hnext⟩ := Option.ite_none_right_eq_some.mp hstep
      obtain rfl := Option.some.inj hnext
      rw [removeListener_eq] at ht
      by_contra hskips
      obtain ⟨hindex, hwaiting⟩ := not_or.mp hskips
      obtain ⟨name, hname⟩ := not_forall_not.mp hwaiting
      exact hs.passes_over hpc hlistener (Nat.le_of_not_lt hindex) hname
        ht.not_passed
  | returns => trivial

/-- For every vector of listeners and every behaviour of the callbacks, the loop
is sound exactly when what goes is made up for at each index, and no entry goes
at or before the current one while another one waits. -/
theorem notify_sound_iff (notification : Notification) (mListeners : NodeList L)
    (steps : List (NotifyStep L)) :
    LabelledRun.EachState (step notification) Sound (init mListeners) steps ↔
      LabelledRun.EachStep (step notification) KeepsIndex (init mListeners)
        steps := by
  have hgood (s : NotifyLoop L) (hs : s.Inv) : s.Sound := hs.sound
  exact LabelledRun.eachState_iff_eachStep_of_kept hgood step_inv
    keepsIndex_of_sound (init_inv mListeners) steps

/-- Of two listeners, the first one removes itself. -/
def firstRemovesItself : List (NotifyStep Nat) :=
  [.add 7, .add 8, .begin, .visit, .remove 7, .returns, .visit]

/-- The second one is not called, and the index 1 is beyond the end. -/
theorem firstRemovesItself_not_sound :
    ¬ LabelledRun.EachState (step .notifyHotplugEvent) Sound
        (init NodeList.empty) firstRemovesItself ∧
      ∃ s, LabelledRun.run (step .notifyHotplugEvent) (init NodeList.empty)
        firstRemovesItself = some s ∧ s.pc = .outOfRange ∧ s.Waiting 1 := by
  constructor
  · intro hsound
    exact (hsound.of_run rfl).live rfl
  · exact ⟨_, rfl, rfl, by decide, by decide, by decide⟩

end NotifyLoop

end MyDirectFB

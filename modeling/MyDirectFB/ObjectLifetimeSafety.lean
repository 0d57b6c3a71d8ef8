/-
No event reaches a destroyed object, as long as an object is destroyed when
neither the pipe nor `mTimers` points to it.  An object that is destroyed
earlier is reached by a later step.
-/
import MyDirectFB.ObjectLifetime
import MyDirectFB.ContainerEventOrder
import MyDirectFB.TimerDrain

namespace MyDirectFB

universe u

/-! ### Reading back what has been posted -/

theorem ContainerCall.event_container (call : ContainerCall) :
    call.event.container = call.container.this := by
  cases call <;> rfl

/-- An event that has been posted as a whole is read as a whole. -/
theorem onFdReadable_bytes (call : ContainerCall) (rest : List UInt8) :
    onFdReadable (call.bytes ++ rest) = some ([call.event], rest) := by
  rcases call.cases_writes with
    ⟨eventID, container, hnull, hid, hwrites, hevent⟩ |
    ⟨container, messageId, param, hnull, hwrites, hevent⟩
  · simp [onFdReadable, ReaderPc.readEvent, ReaderPc.asked, ReaderPc.onRead,
      ContainerCall.bytes, hwrites, hevent, post, hid, dispatch, hnull]
  · have hother : ¬ (CONTAINER_REUEST_MESSAGE = CONTAINER_REUEST_SHOW ∨
        CONTAINER_REUEST_MESSAGE = CONTAINER_REUEST_HIDE ∨
        CONTAINER_REUEST_MESSAGE = CONTAINER_REUEST_FOCUS) := by decide
    simp [onFdReadable, ReaderPc.readEvent, ReaderPc.asked, ReaderPc.onRead,
      ContainerCall.bytes, hwrites, hevent, postMessage, hother, dispatch,
      hnull]

theorem ContainerCall.length_bytes_pos (call : ContainerCall) :
    0 < call.bytes.length := by
  rcases call.cases_writes with ⟨_, _, -, -, hwrites, -⟩ | ⟨_, _, _, -, hwrites, -⟩
  · simp [ContainerCall.bytes, hwrites, post]
  · simp [ContainerCall.bytes, hwrites, postMessage]

theorem length_le_flatMap_bytes (calls : List ContainerCall) :
    calls.length ≤ (calls.flatMap ContainerCall.bytes).length := by
  induction calls with
  | nil => exact Nat.le_refl 0
  | cons call rest ih =>
      have hpos := call.length_bytes_pos
      rw [List.flatMap_cons, List.length_append, List.length_cons]
      omega

theorem pendingEvents_flatMap {calls : List ContainerCall} {fuel : Nat}
    (hfuel : calls.length ≤ fuel) :
    pendingEvents fuel (calls.flatMap ContainerCall.bytes) =
      calls.map ContainerCall.event := by
  induction calls generalizing fuel with
  | nil => cases fuel <;> rfl
  | cons call rest ih =>
      cases fuel with
      | zero => cases hfuel
      | succ fuel =>
          rw [List.flatMap_cons, pendingEvents, onFdReadable_bytes]
          simp only [ih (Nat.le_of_succ_le_succ hfuel), List.map_cons,
            List.singleton_append]

/-! ### What the queues point to -/

variable {I : Type u}

namespace Objects

/-- The condition on a step: an object is destroyed when no event in the pipe
names it and `mTimers` does not list it. -/
def Unreferenced (s : Objects I) : ObjectStep I → Prop
  | .destroyContainer container =>
      ∀ event ∈ pendingEvents s.pipe.length s.pipe,
        event.container ≠ container.this
  | .destroyTimer id => id ∉ s.loop.mTimers
  | _ => True

/-- The queues point to objects that exist; `pending` are the calls whose events
are in the pipe. -/
structure Referenced (s : Objects I) (pending : List ContainerCall) :
    Prop where
  pipe : s.pipe = pending.flatMap ContainerCall.bytes
  containers : ∀ call ∈ pending, s.containerLive call.container.this = true
  timers : ∀ id ∈ s.loop.mTimers, s.timerLive id = true

theorem init_referenced (timer : I → Timer) : (init timer).Referenced [] where
  pipe := rfl
  containers _ hcall := by cases hcall
  timers _ hid := by cases hid

theorem Referenced.pendingEvents_eq {s : Objects I}
    {pending : List ContainerCall} (hs : s.Referenced pending) :
    pendingEvents s.pipe.length s.pipe = pending.map ContainerCall.event := by
  rw [hs.pipe]
  exact pendingEvents_flatMap (length_le_flatMap_bytes pending)

/-- What `onFdReadable` finds: nothing, or the event of the first call. -/
theorem Referenced.onFdReadable_cases {s : Objects I}
    {pending : List ContainerCall} (hs : s.Referenced pending) :
    MyDirectFB.onFdReadable s.pipe = none ∨
      ∃ call rest, pending = call :: rest ∧
        MyDirectFB.onFdReadable s.pipe =
          some ([call.event], rest.flatMap ContainerCall.bytes) := by
  rw [hs.pipe]
  cases pending with
  | nil => exact .inl rfl
  | cons call rest => exact .inr ⟨call, rest, rfl, onFdReadable_bytes call _⟩

/-- The events a callback posts are of containers that exist. -/
theorem containers_append {s : Objects I} {pending : List ContainerCall}
    (hpending : ∀ call ∈ pending, s.containerLive call.container.this = true)
    {callback : CallbackBody I} (hlive : callback.OnLive s) :
    ∀ call ∈ pending ++ callback.posts,
      s.containerLive call.container.this = true := by
  intro call hcall
  rcases List.mem_append.mp hcall with hold | hnew
  · exact hpending call hold
  · exact hlive.2 call hnew

end Objects

/-! ### What a call leaves in the timer list -/

variable [DecidableEq I]

theorem Timer.mem_start {s : EventLoop I} {id other : I} {msec : UInt32}
    {isRepeat : Bool} {now : UInt64}
    (hmem : other ∈ (Timer.start s id msec isRepeat now).mTimers) :
    other ∈ s.mTimers ∨ other = id := by
  unfold Timer.start at hmem
  split at hmem
  · exact .inl hmem
  · have hadded := (EventLoop.perm_sortTimers _).mem_iff.mp hmem
    simpa using hadded

theorem Timer.mem_stop {s : EventLoop I} {id other : I}
    (hmem : other ∈ (Timer.stop s id).mTimers) : other ∈ s.mTimers := by
  unfold Timer.stop EventLoop.removeTimer at hmem
  split at hmem
  · have herased := (EventLoop.perm_sortTimers _).mem_iff.mp hmem
    exact List.mem_of_mem_erase herased
  · exact hmem

theorem TimerCall.mem_perform {s : EventLoop I} {operation : TimerCall I}
    {id : I} (hmem : id ∈ (operation.perform s).mTimers) :
    id ∈ s.mTimers ∨ id = operation.target := by
  cases operation with
  | start other msec isRepeat now => exact Timer.mem_start hmem
  | stop other => exact .inl (Timer.mem_stop hmem)
  | restart other now =>
      simp only [TimerCall.perform, Timer.restart] at hmem
      rcases Timer.mem_start hmem with hold | hid
      · split at hold
        · exact .inl (Timer.mem_stop hold)
        · exact .inl hold
      · exact .inr hid

theorem TimerCall.mem_foldl_perform {s : EventLoop I}
    {calls : List (TimerCall I)} {id : I}
    (hmem : id ∈ (calls.foldl TimerCall.perform s).mTimers) :
    id ∈ s.mTimers ∨ ∃ call ∈ calls, id = call.target := by
  induction calls generalizing s with
  | nil => exact .inl hmem
  | cons operation rest ih =>
      rcases ih hmem with hfirst | ⟨call, hcall, hid⟩
      · rcases TimerCall.mem_perform hfirst with hold | hid
        · exact .inl hold
        · exact .inr ⟨operation, List.mem_cons_self, hid⟩
      · exact .inr ⟨call, List.mem_cons_of_mem _ hcall, hid⟩

theorem Timer.mem_execute {s : EventLoop I} (id : I) {other : I}
    {handler : List (TimerCall I)}
    (hmem : other ∈ (Timer.execute s id handler).1.mTimers) :
    other ∈ s.mTimers ∨ ∃ call ∈ handler, other = call.target := by
  have hreturned : other ∈ (Timer.callHandler s id handler).mTimers := by
    simp only [Timer.execute, Timer.rearm] at hmem
    split at hmem
    · exact hmem
    · exact hmem
  unfold Timer.callHandler at hreturned
  split at hreturned
  · exact TimerCall.mem_foldl_perform hreturned
  · exact .inl hreturned

theorem EventLoop.mem_fire {s : EventLoop I} {now : UInt64} {id other : I}
    {handler : List (TimerCall I)}
    (hmem : other ∈ (s.fire now id handler).loop.mTimers) :
    other ∈ s.mTimers ∨ ∃ call ∈ handler, other = call.target := by
  have hpopped := (EventLoop.perm_sortTimers _).mem_iff.mp hmem
  apply Timer.mem_execute id
  split at hpopped
  · exact hpopped
  · rw [EventLoop.mTimers_popIfFront] at hpopped
    split at hpopped
    · exact List.mem_of_mem_tail hpopped
    · exact hpopped

theorem EventLoop.mem_runTimers {s : EventLoop I} {now : UInt64} {id : I}
    {handler : List (TimerCall I)}
    (hmem : id ∈ (s.runTimers now handler).loop.mTimers) :
    id ∈ s.mTimers ∨ ∃ call ∈ handler, id = call.target := by
  unfold EventLoop.runTimers at hmem
  split at hmem
  · exact .inl hmem
  · split at hmem
    · exact EventLoop.mem_fire hmem
    · exact .inl hmem

/-! ### Runs -/

namespace Objects

/-- Every object a step calls or reads exists. -/
def TouchesLive (s : Objects I) (action : ObjectStep I) : Prop :=
  (∀ container ∈ action.containersTouched s,
      s.containerLive container = true) ∧
    ∀ id ∈ action.timersTouched s, s.timerLive id = true

theorem Referenced.touchesLive {s : Objects I} {pending : List ContainerCall}
    (hs : s.Referenced pending) {action : ObjectStep I} {t : Objects I}
    (hstep : s.step action = some t) : s.TouchesLive action := by
  constructor
  · intro container htouched
    cases action with
    | onFdReadable callback =>
        simp only [ObjectStep.containersTouched] at htouched
        rcases hs.onFdReadable_cases with hnone | ⟨call, rest, rfl, hread⟩
        · simp [hnone] at htouched
        · simp only [hread, List.map_cons, List.map_nil, List.mem_singleton]
            at htouched
          rw [htouched, call.event_container]
          exact hs.containers call List.mem_cons_self
    | _ => cases htouched
  · intro id htouched
    cases action with
    | runTimers now callback =>
        obtain ⟨hlive, -⟩ := Option.ite_none_right_eq_some.mp hstep
        simp only [ObjectStep.timersTouched] at htouched
        split at htouched
        · cases htouched
        · rename_i front rest hlist
          have hfront : s.timerLive front = true :=
            hs.timers front (hlist ▸ List.mem_cons_self)
          split at htouched
          · rcases List.mem_cons.mp htouched with rfl | hleft
            · exact hfront
            · rcases EventLoop.mem_runTimers hleft with hold | ⟨call, hcall, rfl⟩
              · exact hs.timers id hold
              · exact hlive.1 call hcall
          · obtain rfl := List.mem_singleton.mp htouched
            exact hfront
    | _ => cases htouched

/-- The read of an event takes the call it comes from out of the pipe, and adds
what the callback posts. -/
theorem Referenced.onFdReadable {s t : Objects I} {pending : List ContainerCall}
    (hs : s.Referenced pending) {callback : CallbackBody I}
    (hstep : s.step (.onFdReadable callback) = some t) :
    ∃ pending, t.Referenced pending := by
  obtain ⟨hlive, hstep⟩ := Option.ite_none_right_eq_some.mp hstep
  obtain ⟨result, hread, rfl⟩ := Option.map_eq_some_iff.mp hstep
  rcases hs.onFdReadable_cases with hnone | ⟨call, rest, rfl, hevent⟩
  · rw [hnone] at hread
    cases hread
  · obtain rfl := Option.some.inj (hevent.symm.trans hread)
    rw [if_neg (List.cons_ne_nil _ _)]
    refine ⟨rest ++ callback.posts, ?_, ?_, fun id hid => ?_⟩
    · simp [CallbackBody.bytes]
    · exact containers_append (fun other hother =>
        hs.containers other (List.mem_cons_of_mem call hother)) hlive
    · rcases TimerCall.mem_foldl_perform hid with hold | ⟨other, hother, rfl⟩
      · exact hs.timers id hold
      · exact hlive.1 other hother

/-- A round of the timers adds what the handler posts, if one is called. -/
theorem Referenced.runTimers {s t : Objects I} {pending : List ContainerCall}
    (hs : s.Referenced pending) {now : UInt64} {callback : CallbackBody I}
    (hstep : s.step (.runTimers now callback) = some t) :
    ∃ pending, t.Referenced pending := by
  obtain ⟨hlive, hnext⟩ := Option.ite_none_right_eq_some.mp hstep
  cases hnext
  have htimers (id : I)
      (hid : id ∈ (s.loop.runTimers now callback.calls).loop.mTimers) :
      s.timerLive id = true := by
    rcases EventLoop.mem_runTimers hid with hold | ⟨call, hcall, rfl⟩
    · exact hs.timers id hold
    · exact hlive.1 call hcall
  by_cases hcalled : (s.loop.runTimers now callback.calls).called = []
  · refine ⟨pending, ?_, hs.containers, htimers⟩
    simp [hcalled, hs.pipe]
  · refine ⟨pending ++ callback.posts, ?_,
      containers_append hs.containers hlive, htimers⟩
    simp [hcalled, hs.pipe, CallbackBody.bytes]

/-- A step that meets its condition keeps the invariant. -/
theorem step_referenced (s : Objects I) (action : ObjectStep I) (t : Objects I)
    (hs : ∃ pending, s.Referenced pending) (hguard : s.Unreferenced action)
    (hstep : s.step action = some t) :
    s.TouchesLive action ∧ ∃ pending, t.Referenced pending := by
  obtain ⟨pending, hs⟩ := hs
  refine ⟨hs.touchesLive hstep, ?_⟩
  cases action with
  | createContainer container =>
      obtain ⟨-, hnext⟩ := Option.ite_none_right_eq_some.mp hstep
      cases hnext
      refine ⟨pending, hs.pipe, fun call hcall => ?_, hs.timers⟩
      by_cases hsame : call.container.this = container.this
      · simp [hsame]
      · simpa [hsame] using hs.containers call hcall
  | destroyContainer container =>
      obtain ⟨-, hnext⟩ := Option.ite_none_right_eq_some.mp hstep
      cases hnext
      refine ⟨pending, hs.pipe, fun call hcall => ?_, hs.timers⟩
      have hother : call.container.this ≠ container.this := by
        rw [← call.event_container]
        apply hguard
        rw [hs.pendingEvents_eq]
        exact List.mem_map_of_mem hcall
      simpa [hother] using hs.containers call hcall
  | createTimer id mHandler mExpiry =>
      obtain ⟨-, hnext⟩ := Option.ite_none_right_eq_some.mp hstep
      cases hnext
      refine ⟨pending, hs.pipe, hs.containers, fun other hother => ?_⟩
      by_cases hsame : other = id
      · simp [hsame]
      · simpa [hsame] using hs.timers other hother
  | destroyTimer id =>
      obtain ⟨-, hnext⟩ := Option.ite_none_right_eq_some.mp hstep
      cases hnext
      refine ⟨pending, hs.pipe, hs.containers, fun other hother => ?_⟩
      have hsame : other ≠ id := fun h => hguard (h ▸ hother)
      simpa [hsame] using hs.timers other hother
  | post call =>
      obtain ⟨hlive, hnext⟩ := Option.ite_none_right_eq_some.mp hstep
      cases hnext
      refine ⟨pending ++ [call], ?_, ?_, hs.timers⟩
      · simp [hs.pipe]
      · intro other hother
        rcases List.mem_append.mp hother with hold | hnew
        · exact hs.containers other hold
        · obtain rfl := List.mem_singleton.mp hnew
          exact hlive
  | timer operation =>
      obtain ⟨hlive, hnext⟩ := Option.ite_none_right_eq_some.mp hstep
      cases hnext
      refine ⟨pending, hs.pipe, hs.containers, fun id hid => ?_⟩
      rcases TimerCall.mem_perform hid with hold | rfl
      · exact hs.timers id hold
      · exact hlive
  | onFdReadable callback => exact hs.onFdReadable hstep
  | runTimers now callback => exact hs.runTimers hstep

/-- A read of the event loop whose callback does nothing takes the first event
out of the pipe. -/
theorem step_onFdReadable (s : Objects I) (call : ContainerCall)
    (rest : List UInt8) (hpipe : s.pipe = call.bytes ++ rest) :
    s.step (.onFdReadable ⟨[], []⟩) = some { s with pipe := rest } := by
  have hlive : (⟨[], []⟩ : CallbackBody I).OnLive s :=
    ⟨fun _ hcall => absurd hcall List.not_mem_nil,
      fun _ hcall => absurd hcall List.not_mem_nil⟩
  simp only [Objects.step, if_pos hlive, hpipe, onFdReadable_bytes,
    Option.map_some, if_neg (List.cons_ne_nil _ _), CallbackBody.bytes,
    List.flatMap_nil, List.append_nil, List.foldl_nil]

/-- The event loop reads the events in the pipe one after another. -/
theorem run_onFdReadable (s : Objects I) (calls : List ContainerCall)
    (rest : List UInt8)
    (hpipe : s.pipe = calls.flatMap ContainerCall.bytes ++ rest) :
    LabelledRun.run step s
        (List.replicate calls.length (.onFdReadable ⟨[], []⟩)) =
      some { s with pipe := rest } := by
  induction calls generalizing s with
  | nil =>
      obtain rfl : s.pipe = rest := hpipe
      rfl
  | cons call later ih =>
      rw [List.flatMap_cons, List.append_assoc] at hpipe
      rw [List.length_cons, List.replicate_succ]
      apply LabelledRun.run_cons.mpr
      exact ⟨_, s.step_onFdReadable call _ hpipe, ih _ rfl⟩

/-- The timers that are in the list are all read or executed by a round that
finds the front timer due. -/
theorem mem_timersTouched {s : Objects I} {id : I}
    (hid : id ∈ s.loop.mTimers) :
    id ∈ (ObjectStep.runTimers 0xFFFFFFFFFFFFFFFF
      ⟨[], []⟩ : ObjectStep I).timersTouched s := by
  simp only [ObjectStep.timersTouched]
  cases hlist : s.loop.mTimers with
  | nil =>
      rw [hlist] at hid
      cases hid
  | cons front rest =>
      have hdue : s.loop.getExpiry front ≤ 0xFFFFFFFFFFFFFFFF :=
        UInt64.le_iff_toNat_le.mpr
          (Nat.le_of_lt_succ (s.loop.getExpiry front).toNat_lt)
      have hround : s.loop.runTimers 0xFFFFFFFFFFFFFFFF [] =
          s.loop.fire 0xFFFFFFFFFFFFFFFF front [] := by
        simp [EventLoop.runTimers, hlist, hdue]
      simp only [hdue, ↓reduceIte, hround]
      rw [hlist] at hid
      rcases List.mem_cons.mp hid with rfl | hrest
      · exact List.mem_cons_self
      · apply List.mem_cons_of_mem
        rw [(EventLoop.fire_idle_perm _ hlist).mem_iff]
        split
        · exact List.mem_cons_of_mem front hrest
        · exact hrest

/-- An object that is destroyed while a queue points to it is reached later. -/
theorem Referenced.reached_of_referenced {s t : Objects I}
    {pending : List ContainerCall} (hs : s.Referenced pending)
    {action : ObjectStep I} (hstep : s.step action = some t)
    (hguard : ¬ s.Unreferenced action) :
    ∃ rest u last, LabelledRun.run step t rest = some u ∧
      (u.step last).isSome ∧ ¬ u.TouchesLive last := by
  cases action with
  | destroyContainer container =>
      obtain ⟨-, hnext⟩ := Option.ite_none_right_eq_some.mp hstep
      cases hnext
      obtain ⟨call, hcall, hsame⟩ : ∃ call ∈ pending,
          call.event.container = container.this := by
        simpa [Unreferenced, hs.pendingEvents_eq] using hguard
      obtain ⟨earlier, later, rfl⟩ := List.append_of_mem hcall
      have hpipe : s.pipe = earlier.flatMap ContainerCall.bytes ++
          (call.bytes ++ later.flatMap ContainerCall.bytes) := by
        simp [hs.pipe]
      refine ⟨_, _, .onFdReadable ⟨[], []⟩,
        run_onFdReadable _ earlier _ hpipe, ?_, fun htouches => ?_⟩
      · rw [step_onFdReadable _ call _ rfl]
        rfl
      · have hlive := htouches.1 container.this (by
          simp [ObjectStep.containersTouched, onFdReadable_bytes, hsame])
        simp at hlive
  | destroyTimer id =>
      obtain ⟨-, hnext⟩ := Option.ite_none_right_eq_some.mp hstep
      cases hnext
      have hid : id ∈ s.loop.mTimers := not_not.mp hguard
      refine ⟨[], _, .runTimers 0xFFFFFFFFFFFFFFFF ⟨[], []⟩, rfl, rfl,
        fun htouches => ?_⟩
      have hlive := htouches.2 id (mem_timersTouched hid)
      simp at hlive
  | createContainer container => exact absurd trivial hguard
  | createTimer id mHandler mExpiry => exact absurd trivial hguard
  | post call => exact absurd trivial hguard
  | timer operation => exact absurd trivial hguard
  | onFdReadable callback => exact absurd trivial hguard
  | runTimers now callback => exact absurd trivial hguard

end Objects

/-- In every run in which an object is destroyed only when no queue points to
it, every object the event loop touches exists; and a further step that destroys
an object otherwise has a run after it in which the event loop reaches it. -/
theorem objects_touched_live (timer : I → Timer) (steps : List (ObjectStep I))
    (hguard : LabelledRun.EachStep Objects.step Objects.Unreferenced
      (.init timer) steps) :
    LabelledRun.EachStep Objects.step Objects.TouchesLive (.init timer) steps ∧
      ∀ s, LabelledRun.run Objects.step (.init timer) steps = some s →
        ∀ action t, s.step action = some t → ¬ s.Unreferenced action →
          ∃ rest u last, LabelledRun.run Objects.step t rest = some u ∧
            (u.step last).isSome ∧ ¬ u.TouchesLive last := by
  have hinit : ∃ pending, (Objects.init timer).Referenced pending :=
    ⟨[], Objects.init_referenced timer⟩
  refine ⟨hguard.of_invariant Objects.step_referenced hinit, ?_⟩
  intro s hrun action t hstep hbroken
  obtain ⟨pending, hs⟩ := LabelledRun.run_invariant_of_eachStep
    (fun s action t hs hguard hstep =>
      (Objects.step_referenced s action t hs hguard hstep).2)
    hinit hguard hrun
  exact hs.reached_of_referenced hstep hbroken

def shownContainer : Container :=
  ⟨4096, by decide⟩

/-- A container is shown and destroyed after the event loop has read the event,
and a timer is destroyed after it has been stopped. -/
def destroyedUnreferenced : List (ObjectStep Nat) :=
  [.createContainer shownContainer, .post (.show shownContainer),
    .onFdReadable ⟨[], []⟩, .destroyContainer shownContainer,
    .createTimer 0 true 0, .timer (.start 0 100 false 0), .timer (.stop 0),
    .destroyTimer 0, .runTimers 100 ⟨[], []⟩]

open LabelledRun in
theorem objects_touched_live_unreferenced :
    EachStep Objects.step Objects.TouchesLive
      (.init fun _ => Timer.new true 0) destroyedUnreferenced := by
  refine (objects_touched_live _ destroyedUnreferenced ?_).1
  refine eachStep_cons rfl trivial <| eachStep_cons rfl trivial <|
    eachStep_cons rfl trivial <| eachStep_cons rfl ?_ <|
    eachStep_cons rfl trivial <| eachStep_cons rfl trivial <|
    eachStep_cons rfl trivial <| eachStep_cons rfl ?_ <|
    eachStep_cons rfl trivial trivial
  · exact fun event hevent => absurd hevent List.not_mem_nil
  · exact List.not_mem_nil

/-- A container is destroyed while the event of its `show` is in the pipe. -/
def destroyedWhileShown : List (ObjectStep Nat) :=
  [.createContainer shownContainer, .post (.show shownContainer),
    .destroyContainer shownContainer, .onFdReadable ⟨[], []⟩]

/-- A timer is destroyed while it is running. -/
def destroyedWhileRunning : List (ObjectStep Nat) :=
  [.createTimer 0 true 0, .timer (.start 0 100 false 0), .destroyTimer 0,
    .runTimers 100 ⟨[], []⟩]

/-- Both are reached. -/
theorem destroyed_touched :
    ¬ LabelledRun.EachStep Objects.step Objects.TouchesLive
        (.init fun _ => Timer.new true 0) destroyedWhileShown ∧
      ¬ LabelledRun.EachStep Objects.step Objects.TouchesLive
        (.init fun _ => Timer.new true 0) destroyedWhileRunning := by
  constructor
  · intro htouches
    have hlast := (((htouches _ rfl).2 _ rfl).2 _ rfl).2 _ rfl
    exact absurd (hlast.1.1 4096 (by decide)) (by decide)
  · intro htouches
    have hlast := (((htouches _ rfl).2 _ rfl).2 _ rfl).2 _ rfl
    exact absurd (hlast.1.2 0 (by decide)) (by decide)

end MyDirectFB

/-
When do the events dispatched by the event loop merge the calls of the threads?
In every run in which no call begins while another thread is between its writes,
the bytes in the pipe are the encoding of the calls that are not yet dispatched.
Two calls that interleave their writes mix their fields.
-/
import MyDirectFB.ContainerEvent
import MyDirectFB.Lib.LabelledRun

namespace MyDirectFB

universe u

/-- Either a call posts an event alone, with one of the three ids, or it posts a
message. -/
theorem ContainerCall.cases_writes (call : ContainerCall) :
    (∃ eventID container, container ≠ 0 ∧
      (eventID = CONTAINER_REUEST_SHOW ∨ eventID = CONTAINER_REUEST_HIDE ∨
        eventID = CONTAINER_REUEST_FOCUS) ∧
      call.writes = post eventID container ∧
      call.event = ⟨eventID, container, none⟩) ∨
    ∃ container messageId param, container ≠ 0 ∧
      call.writes = postMessage container messageId param ∧
      call.event =
        ⟨CONTAINER_REUEST_MESSAGE, container, some (messageId, param)⟩ := by
  cases call with
  | «show» container =>
      exact .inl ⟨_, _, container.ne_null, .inl rfl, rfl, rfl⟩
  | hide container =>
      exact .inl ⟨_, _, container.ne_null, .inr (.inl rfl), rfl, rfl⟩
  | requestFocus container =>
      exact .inl ⟨_, _, container.ne_null, .inr (.inr rfl), rfl, rfl⟩
  | sendMessage container id param =>
      exact .inr ⟨_, _, _, container.ne_null, rfl, rfl⟩

theorem intBytes_append_inj {a b : Int32} {xs ys : List UInt8}
    (heq : intBytes a ++ xs = intBytes b ++ ys) : a = b ∧ xs = ys := by
  obtain ⟨hbytes, hrest⟩ := List.append_inj heq (by simp)
  refine ⟨?_, hrest⟩
  rw [← intOfBytes_intBytes a, hbytes, intOfBytes_intBytes]

theorem pointerBytes_append_inj {a b : UInt64} {xs ys : List UInt8}
    (heq : pointerBytes a ++ xs = pointerBytes b ++ ys) : a = b ∧ xs = ys := by
  obtain ⟨hbytes, hrest⟩ := List.append_inj heq (by simp)
  refine ⟨?_, hrest⟩
  rw [← pointerOfBytes_pointerBytes a, hbytes, pointerOfBytes_pointerBytes]

/-- The bytes the event loop has read of the current event. -/
def ReaderPc.consumed : ReaderPc → List UInt8
  | .atEventID => []
  | .atContainer eventID => intBytes eventID
  | .atMessageId container =>
      intBytes CONTAINER_REUEST_MESSAGE ++ pointerBytes container
  | .atParam container messageId =>
      intBytes CONTAINER_REUEST_MESSAGE ++ pointerBytes container ++
        intBytes messageId

/-- What a read of the event loop does that is inside the bytes of `call`: it
goes on to the next field, or dispatches the event of the call. -/
def ReaderPc.Reads (pc : ReaderPc) (call : ContainerCall) (bytes : List UInt8) :
    Prop :=
  (pc.onRead bytes).2 = [] ∧
      (pc.onRead bytes).1.consumed = pc.consumed ++ bytes ∨
    pc.onRead bytes = (.atEventID, [call.event]) ∧
      pc.consumed ++ bytes = call.writes.flatten

theorem ReaderPc.onRead_spec (pc : ReaderPc) (call : ContainerCall)
    {xs ys : List UInt8}
    (hstream : pc.consumed ++ xs = call.writes.flatten ++ ys) :
    pc.asked ≤ xs.length ∧ pc.Reads call (xs.take pc.asked) := by
  rcases call.cases_writes with
    ⟨eventID, container, hnull, hid, hwrites, hevent⟩ |
    ⟨container, messageId, param, hnull, hwrites, hevent⟩
  · have hmessage : eventID ≠ CONTAINER_REUEST_MESSAGE := by
      rcases hid with rfl | rfl | rfl <;> decide
    simp only [hwrites, post, List.flatten_cons, List.flatten_nil,
      List.append_nil, List.append_assoc] at hstream
    unfold Reads
    rw [hwrites, hevent]
    cases pc with
    | atEventID =>
        simp only [consumed, List.nil_append] at hstream
        subst hstream
        simp [asked, onRead, consumed]
    | atContainer eventID' =>
        obtain ⟨rfl, rfl⟩ := intBytes_append_inj hstream
        simp [asked, onRead, hid, dispatch, hnull, consumed, post]
    | atMessageId container' =>
        simp only [consumed, List.append_assoc] at hstream
        exact absurd (intBytes_append_inj hstream).1.symm hmessage
    | atParam container' messageId' =>
        simp only [consumed, List.append_assoc] at hstream
        exact absurd (intBytes_append_inj hstream).1.symm hmessage
  · simp only [hwrites, postMessage, List.flatten_cons, List.flatten_nil,
      List.append_nil, List.append_assoc] at hstream
    unfold Reads
    rw [hwrites, hevent]
    cases pc with
    | atEventID =>
        simp only [consumed, List.nil_append] at hstream
        subst hstream
        simp [asked, onRead, consumed]
    | atContainer eventID' =>
        obtain ⟨rfl, rfl⟩ := intBytes_append_inj hstream
        have hother : ¬ (CONTAINER_REUEST_MESSAGE = CONTAINER_REUEST_SHOW ∨
            CONTAINER_REUEST_MESSAGE = CONTAINER_REUEST_HIDE ∨
            CONTAINER_REUEST_MESSAGE = CONTAINER_REUEST_FOCUS) := by decide
        simp [asked, onRead, hother, consumed]
    | atMessageId container' =>
        simp only [consumed, List.append_assoc] at hstream
        obtain ⟨-, hrest⟩ := intBytes_append_inj hstream
        obtain ⟨rfl, rfl⟩ := pointerBytes_append_inj hrest
        simp [asked, onRead, consumed]
    | atParam container' messageId' =>
        simp only [consumed, List.append_assoc] at hstream
        obtain ⟨-, hrest⟩ := intBytes_append_inj hstream
        obtain ⟨rfl, hlast⟩ := pointerBytes_append_inj hrest
        obtain ⟨rfl, rfl⟩ := intBytes_append_inj hlast
        simp [asked, onRead, dispatch, hnull, consumed, postMessage]

/-! ### The merge -/

variable {T : Type u} [DecidableEq T]

/-- The calls of the threads in one order. -/
abbrev Order (T : Type u) := List (T × ContainerCall)

/-- The calls of one thread, in their order. -/
def Order.calls (order : Order T) (thread : T) : List ContainerCall :=
  (order.filter fun entry => entry.1 = thread).map Prod.snd

/-- Nobody is between the writes of a call, and the event loop waits for more
bytes. -/
def EventPipe.Settled (s : EventPipe T) : Prop :=
  (∀ thread, s.posting thread = []) ∧ s.step .read = none

/-- The events dispatched so far begin a merge of the calls of the threads, and
when all has settled they are all of it. -/
def EventPipe.Merged (s : EventPipe T) : Prop :=
  ∃ order : Order T, (∀ thread, order.calls thread = s.posted thread) ∧
    s.dispatched <+: order.map (·.2.event) ∧
    (s.Settled → s.dispatched = order.map (·.2.event))

/-- The condition on a step: a call begins when no thread is between the writes
of one. -/
def EventPipe.Alone (s : EventPipe T) : PipeStep T → Prop
  | .call _ _ => ∀ thread, s.posting thread = []
  | _ => True

/-- The pipe in the middle of a merge: `done` are the calls that are dispatched,
`pending` the others, and `remaining` the bytes that are not yet written. -/
structure EventPipe.Merging (s : EventPipe T) (order : Order T)
    (done pending : List ContainerCall) (remaining : List UInt8) : Prop where
  posted : ∀ thread, order.calls thread = s.posted thread
  split : order.map Prod.snd = done ++ pending
  dispatched : s.dispatched = done.map ContainerCall.event
  stream : s.reader.consumed ++ (s.pipe ++ remaining) =
    pending.flatMap fun call => call.writes.flatten
  turn : (∀ thread, s.posting thread = []) ∧ remaining = [] ∨
    ∃ thread, remaining = (s.posting thread).flatten ∧
      ∀ other, other ≠ thread → s.posting other = []

theorem EventPipe.init_merging :
    (EventPipe.init : EventPipe T).Merging [] [] [] [] where
  posted _ := rfl
  split := rfl
  dispatched := rfl
  stream := rfl
  turn := .inl ⟨fun _ => rfl, rfl⟩

theorem Order.calls_append (order : Order T) (thread other : T)
    (call : ContainerCall) :
    Order.calls (order ++ [(other, call)]) thread =
      if thread = other then order.calls thread ++ [call]
      else order.calls thread := by
  unfold Order.calls
  by_cases heq : thread = other
  · simp [heq]
  · simp [heq, Ne.symm heq]

/-- The calls that are still pending decide what the next read finds. -/
theorem EventPipe.Merging.next_read {s : EventPipe T} {order : Order T}
    {done pending : List ContainerCall} {call : ContainerCall}
    {remaining : List UInt8}
    (hs : s.Merging order done (call :: pending) remaining) :
    s.reader.asked ≤ (s.pipe ++ remaining).length ∧
      s.reader.Reads call ((s.pipe ++ remaining).take s.reader.asked) :=
  s.reader.onRead_spec call (by simpa using hs.stream)

theorem EventPipe.Merging.call {s t : EventPipe T} {order : Order T}
    {done pending : List ContainerCall} {remaining : List UInt8}
    (hs : s.Merging order done pending remaining) {thread : T}
    {call : ContainerCall} (halone : ∀ thread, s.posting thread = [])
    (hstep : s.step (.call thread call) = some t) :
    ∃ remaining', t.Merging (order ++ [(thread, call)]) done
      (pending ++ [call]) remaining' := by
  simp only [EventPipe.step, halone, ↓reduceIte] at hstep
  cases hwrites : call.writes with
  | nil => simp [hwrites, EventPipe.write] at hstep
  | cons bytes rest =>
      rw [hwrites] at hstep
      cases hstep
      have hremaining : remaining = [] := by
        rcases hs.turn with ⟨-, hnone⟩ | ⟨other, hother, -⟩
        · exact hnone
        · rw [hother, halone other]
          rfl
      refine ⟨rest.flatten, ?_, ?_, hs.dispatched, ?_, .inr ⟨thread, ?_, ?_⟩⟩
      · intro other
        rw [Order.calls_append]
        by_cases heq : other = thread
        · simp [heq, hs.posted]
        · simp [heq, hs.posted]
      · simp [hs.split]
      · have hstream := hs.stream
        rw [hremaining, List.append_nil] at hstream
        simp only [List.flatMap_append, ← hstream, List.flatMap_cons, hwrites,
          List.flatMap_nil, List.flatten_cons, List.append_nil,
          List.append_assoc]
      · simp
      · intro other hother
        simp [hother, halone]

theorem EventPipe.Merging.write {s t : EventPipe T} {order : Order T}
    {done pending : List ContainerCall} {remaining : List UInt8}
    (hs : s.Merging order done pending remaining) {thread : T}
    (hstep : s.step (.write thread) = some t) :
    ∃ remaining', t.Merging order done pending remaining' := by
  simp only [EventPipe.step] at hstep
  cases hwrites : s.posting thread with
  | nil => simp [hwrites, EventPipe.write] at hstep
  | cons bytes rest =>
      rw [hwrites] at hstep
      cases hstep
      -- the thread that writes is the one whose turn it is
      obtain ⟨hremaining, hothers⟩ : remaining = (bytes :: rest).flatten ∧
          ∀ other, other ≠ thread → s.posting other = [] := by
        rcases hs.turn with ⟨hnone, -⟩ | ⟨turn, hturn, hothers⟩
        · simp [hnone] at hwrites
        · by_cases heq : thread = turn
          · subst heq
            exact ⟨by rw [hturn, hwrites], hothers⟩
          · simp [hothers thread heq] at hwrites
      refine ⟨rest.flatten, hs.posted, hs.split, hs.dispatched, ?_,
        .inr ⟨thread, ?_, ?_⟩⟩
      · have hstream := hs.stream
        rw [hremaining] at hstream
        simpa using hstream
      · simp
      · intro other hother
        simp [hother, hothers]

theorem EventPipe.Merging.read {s t : EventPipe T} {order : Order T}
    {done pending : List ContainerCall} {remaining : List UInt8}
    (hs : s.Merging order done pending remaining)
    (hstep : s.step .read = some t) :
    ∃ done' pending', t.Merging order done' pending' remaining := by
  obtain ⟨hasked, hnext⟩ := Option.ite_none_right_eq_some.mp hstep
  cases hnext
  cases pending with
  | nil =>
      -- nothing is pending, so there is nothing in the pipe to read
      have hstream := congrArg List.length hs.stream
      simp only [List.length_append, List.flatMap_nil, List.length_nil]
        at hstream
      have hpos : 0 < s.reader.asked := by
        cases s.reader <;> simp [ReaderPc.asked]
      omega
  | cons call pending =>
      obtain ⟨-, hreads⟩ := hs.next_read
      rw [List.take_append_of_le_length hasked] at hreads
      have hstream := hs.stream
      rw [← List.take_append_drop s.reader.asked s.pipe, List.append_assoc,
        ← List.append_assoc, List.flatMap_cons] at hstream
      rcases hreads with ⟨hnone, hconsumed⟩ | ⟨hdone, hconsumed⟩
      · refine ⟨done, call :: pending, hs.posted, hs.split, ?_, ?_, hs.turn⟩
        · simp [hnone, hs.dispatched]
        · rw [List.flatMap_cons, ← hstream, hconsumed]
      · refine ⟨done ++ [call], pending, hs.posted, ?_, ?_, ?_, hs.turn⟩
        · simp [hs.split]
        · simp [hdone, hs.dispatched]
        · rw [hconsumed, List.append_cancel_left_eq] at hstream
          simpa [hdone, ReaderPc.consumed] using hstream

/-- What a step preserves that meets its condition. -/
theorem EventPipe.step_merging (s : EventPipe T) (action : PipeStep T)
    (t : EventPipe T)
    (hs : ∃ order done pending remaining, s.Merging order done pending remaining)
    (halone : s.Alone action) (hstep : s.step action = some t) :
    ∃ order done pending remaining,
      t.Merging order done pending remaining := by
  obtain ⟨order, done, pending, remaining, hs⟩ := hs
  cases action with
  | call thread call => exact ⟨_, _, _, hs.call halone hstep⟩
  | write thread => exact ⟨_, _, _, hs.write hstep⟩
  | read =>
      obtain ⟨done', pending', ht⟩ := hs.read hstep
      exact ⟨_, _, _, _, ht⟩

theorem EventPipe.Merging.merged {s : EventPipe T} {order : Order T}
    {done pending : List ContainerCall} {remaining : List UInt8}
    (hs : s.Merging order done pending remaining) : s.Merged := by
  have hevents : order.map (·.2.event) =
      done.map ContainerCall.event ++ pending.map ContainerCall.event := by
    rw [← List.map_append, ← hs.split, List.map_map]
    rfl
  refine ⟨order, hs.posted, ?_, ?_⟩
  · rw [hs.dispatched, hevents]
    exact List.prefix_append _ _
  · rintro ⟨hidle, hblocked⟩
    have hremaining : remaining = [] := by
      rcases hs.turn with ⟨-, hnone⟩ | ⟨thread, hturn, -⟩
      · exact hnone
      · rw [hturn, hidle thread]
        rfl
    cases pending with
    | nil => rw [hs.dispatched, hevents, List.map_nil, List.append_nil]
    | cons call pending =>
        have hasked := hs.next_read.1
        rw [hremaining, List.append_nil] at hasked
        simp [EventPipe.step, hasked] at hblocked

/-- In every run of any number of threads in which a call begins only when no
other thread is between its writes, the event loop dispatches a merge of the
calls. -/
theorem containerEvent_merged (steps : List (PipeStep T)) (s : EventPipe T)
    (halone : LabelledRun.EachStep EventPipe.step EventPipe.Alone
      EventPipe.init steps)
    (hrun : LabelledRun.run EventPipe.step EventPipe.init steps = some s) :
    s.Merged := by
  obtain ⟨order, done, pending, remaining, hs⟩ :=
    LabelledRun.run_invariant_of_eachStep EventPipe.step_merging
      ⟨_, _, _, _, EventPipe.init_merging⟩ halone hrun
  exact hs.merged

/-- Two threads post one after the other. -/
def postedInTurn : List (PipeStep Bool) :=
  [.call false (.show ⟨1, by decide⟩), .write false,
    .call true (.hide ⟨2, by decide⟩), .read, .write true, .read]

open LabelledRun in
theorem containerEvent_merged_inTurn :
    ∃ s, run EventPipe.step EventPipe.init postedInTurn = some s ∧
      s.dispatched = [⟨CONTAINER_REUEST_SHOW, 1, none⟩] ∧ s.Merged := by
  refine ⟨_, rfl, rfl, containerEvent_merged postedInTurn _ ?_ rfl⟩
  refine eachStep_cons rfl ?_ <| eachStep_cons rfl trivial <|
    eachStep_cons rfl ?_ <| eachStep_cons rfl trivial <|
    eachStep_cons rfl trivial <| eachStep_cons rfl trivial trivial
  · intro thread
    cases thread <;> rfl
  · intro thread
    cases thread <;> rfl

/-- The same two calls, with their writes interleaved. -/
def postedTogether : List (PipeStep Bool) :=
  [.call false (.show ⟨1, by decide⟩), .call true (.hide ⟨2, by decide⟩),
    .write true, .write false, .read, .read]

/-- The event loop dispatches an event for a container that nobody has
named. -/
theorem postedTogether_not_merged :
    ∃ s, LabelledRun.run EventPipe.step EventPipe.init postedTogether = some s ∧
      ¬ s.Merged := by
  refine ⟨_, rfl, ?_⟩
  rintro ⟨order, hposted, hprefix, -⟩
  cases order with
  | nil => exact absurd hprefix (by decide)
  | cons entry rest =>
      obtain ⟨thread, call⟩ := entry
      have hevent : ⟨0, 8589934593, none⟩ = call.event :=
        (List.cons_prefix_cons.mp hprefix).1
      have hmem : call ∈ Order.calls ((thread, call) :: rest) thread := by
        simp [Order.calls]
      rw [hposted] at hmem
      cases thread with
      | false =>
          obtain rfl : call = .show ⟨1, by decide⟩ := List.mem_singleton.mp hmem
          exact absurd hevent (by decide)
      | true =>
          obtain rfl : call = .hide ⟨2, by decide⟩ := List.mem_singleton.mp hmem
          exact absurd hevent (by decide)

end MyDirectFB

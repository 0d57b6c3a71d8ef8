/-
When a call on the byte buffer waits, what a read returns, and whether a call
that may wait for ever comes back with something.  The test before the wait of
`ByteBuffer_Read` joins its two parts with `||` where `ByteBuffer_Write` has
`&&`, and neither call makes its test again after the wait.
-/
import MyDirectFB.ByteBufferFifo

namespace MyDirectFB

universe u

/-! ### Waiting -/

/-- The call has found that it cannot proceed: it enters its wait, or returns 0
because it may not wait. -/
def Entered.Waits : Entered → Prop
  | .returned result => result.ret = 0
  | .waiting _ => True

/-- The call returns `min(len, mSize)` and the oldest bytes.  With bytes stored
that is no wait, no 0 and no error code. -/
def ByteBuffer.Delivers (b : ByteBuffer) (len : Int) (entered : Entered) : Prop :=
  ∃ result, entered = .returned result ∧ result.ret = min len b.mSize ∧
    result.bytes = b.contents.take (min len b.mSize).toNat

/-- A read delivers what is stored while the stream goes on, and waits only for
bytes that can still come. -/
structure ByteBuffer.ReadDelivers (b : ByteBuffer) (len timeout : Int)
    (now : Timeval) : Prop where
  delivers : 0 < b.mSize → b.mEOS = false →
    b.Delivers len (b.read len timeout now)
  waits : (b.read len timeout now).Waits → b.mSize = 0 ∧ b.mEOS = false

theorem ByteBuffer.enterWait_waits (b : ByteBuffer) (timeout : Int)
    (now : Timeval) : (b.enterWait timeout now).Waits := by
  unfold ByteBuffer.enterWait
  split
  · rfl
  · split <;> trivial

theorem ByteBuffer.read_eq_enterWait {b : ByteBuffer} {len : Int}
    (hlen : 1 ≤ len) (hguard : b.mSize = 0 ∨ b.mEOS = false) (timeout : Int)
    (now : Timeval) : b.read len timeout now = b.enterWait timeout now := by
  have hvalid : ¬ len < 1 := by omega
  have hwait : b.mSize = 0 ∨ ¬ b.mEOS := by simpa using hguard
  rw [ByteBuffer.read, if_neg hvalid, if_pos hwait]

theorem ByteBuffer.read_eq_error {b : ByteBuffer} {len : Int} (hlen : 1 ≤ len)
    (hsize : b.mSize ≠ 0) (heos : b.mEOS = true) (timeout : Int)
    (now : Timeval) :
    b.read len timeout now = .returned (b.error BUFFER_ERROR_EOS) := by
  have hvalid : ¬ len < 1 := by omega
  simp [ByteBuffer.read, ByteBuffer.finishRead, hvalid, hsize, heos]

theorem ByteBuffer.write_eq_finishWrite {b : ByteBuffer} {data : List UInt8}
    (hdata : 1 ≤ data.length)
    (hguard : ¬ (b.availableSpace = 0 ∧ b.mEOS = false)) (timeout : Int)
    (now : Timeval) :
    b.write data timeout now = .returned (b.finishWrite data) := by
  have hvalid : ¬ data.length < 1 := by omega
  have hproceed : ¬ (b.availableSpace = 0 ∧ ¬ b.mEOS) := by simpa using hguard
  rw [ByteBuffer.write, if_neg hvalid, if_neg hproceed]

/-! ### The result of a call after its wait -/

theorem ByteBuffer.ret_finishWrite_eq_zero_iff {b : ByteBuffer} (hb : b.Valid)
    {data : List UInt8} (hdata : 1 ≤ data.length) :
    (b.finishWrite data).ret = 0 ↔
      b.mEOS = false ∧ b.availableSpace = 0 := by
  cases heos : b.mEOS with
  | true =>
      simp [ByteBuffer.finishWrite, heos, ByteBuffer.error, BUFFER_ERROR_EOS]
  | false =>
      obtain ⟨copies, -, hresult⟩ := ByteBuffer.finishWrite_eq hb heos data
      have hsize := hb.size_le
      have hroom : b.room data = 0 ↔ b.availableSpace = 0 := by
        unfold ByteBuffer.room ByteBuffer.availableSpace
        omega
      simpa [hresult] using hroom

theorem ByteBuffer.ret_finishRead_eq_zero_iff {b : ByteBuffer} (hb : b.Valid)
    {len : Int} (hlen : 1 ≤ len) :
    (b.finishRead len).ret = 0 ↔ b.mEOS = false ∧ b.mSize = 0 := by
  cases heos : b.mEOS with
  | true =>
      simp [ByteBuffer.finishRead, heos, ByteBuffer.error, BUFFER_ERROR_EOS]
  | false =>
      obtain ⟨copies, -, hresult⟩ := ByteBuffer.finishRead_eq hb heos hlen
      have hsize := hb.size_nonneg
      have havailable : b.available len = 0 ↔ b.mSize = 0 := by
        unfold ByteBuffer.available
        omega
      simpa [hresult] using havailable

/-! ### Reading what is stored -/

/-- The two parts of the test are joined with `||`, so a read is right exactly
where both hold or neither does. -/
theorem ByteBuffer.Valid.readDelivers_iff {b : ByteBuffer} (hb : b.Valid)
    {len : Int} (hlen : 1 ≤ len) (timeout : Int) (now : Timeval) :
    b.ReadDelivers len timeout now ↔ (b.mSize = 0 ↔ b.mEOS = false) := by
  have hsize := hb.size_nonneg
  by_cases hguard : b.mSize = 0 ∨ b.mEOS = false
  · have hread := ByteBuffer.read_eq_enterWait hlen hguard timeout now
    have hwaits : (b.read len timeout now).Waits :=
      hread ▸ b.enterWait_waits timeout now
    constructor
    · intro hright
      obtain ⟨hzero, heos⟩ := hright.waits hwaits
      exact ⟨fun _ => heos, fun _ => hzero⟩
    · intro hboth
      have hzero : b.mSize = 0 := hguard.elim id hboth.mpr
      exact ⟨fun hpos => by omega, fun _ => ⟨hzero, hboth.mp hzero⟩⟩
  · obtain ⟨hstored, hended⟩ := not_or.mp hguard
    have hread := ByteBuffer.read_eq_error hlen hstored (by simpa using hended)
      timeout now
    refine iff_of_true ⟨fun _ heos => absurd heos hended, ?_⟩
      (iff_of_false hstored hended)
    rw [hread]
    intro hzero
    have hcode : BUFFER_ERROR_EOS = 0 := hzero
    exact absurd hcode (by decide)

/-- A write waits only when there is no space and the stream goes on. -/
theorem ByteBuffer.Valid.write_waits {b : ByteBuffer} (hb : b.Valid)
    {data : List UInt8} (hdata : 1 ≤ data.length) {timeout : Int}
    {now : Timeval} (hwaits : (b.write data timeout now).Waits) :
    b.availableSpace = 0 ∧ b.mEOS = false := by
  by_contra hguard
  rw [ByteBuffer.write_eq_finishWrite hdata hguard] at hwaits
  obtain ⟨heos, hspace⟩ :=
    (ByteBuffer.ret_finishWrite_eq_zero_iff hb hdata).mp hwaits
  exact hguard ⟨hspace, heos⟩

variable {T : Type u} [DecidableEq T]

/-- In every reachable state, a read delivers the stored bytes and waits only
for lack of them exactly when the buffer is empty and the stream goes on, or
holds bytes and the stream has ended.  A write waits only for lack of space. -/
theorem byteBuffer_readDelivers_iff (memory : List UInt8)
    (steps : List (BufferStep T)) (s : SharedBuffer T)
    (hrun : LabelledRun.run SharedBuffer.step (SharedBuffer.init memory) steps =
      some s)
    (len : Int) (hlen : 1 ≤ len) (timeout : Int) (now : Timeval) :
    (s.buffer.ReadDelivers len timeout now ↔
        (s.buffer.mSize = 0 ↔ s.buffer.mEOS = false)) ∧
      ∀ data : List UInt8, 1 ≤ data.length →
        (s.buffer.write data timeout now).Waits →
          s.buffer.availableSpace = 0 ∧ s.buffer.mEOS = false := by
  have hs : s.Invariant memory.length := LabelledRun.run_invariant
    SharedBuffer.step_invariant (SharedBuffer.init_invariant memory) hrun
  exact ⟨hs.valid.readDelivers_iff hlen timeout now,
    fun _ hdata hwaits => hs.valid.write_waits hdata hwaits⟩

/-- One byte has been written and nothing has been read. -/
def oneByteWritten : List (BufferStep Nat) := [.write 0 [7] 0 ⟨0, 0⟩]

theorem byteBuffer_readDelivers_iff_oneByteWritten :
    ∃ s : SharedBuffer Nat,
      LabelledRun.run SharedBuffer.step (SharedBuffer.init [0, 0])
        oneByteWritten = some s ∧
      (s.buffer.ReadDelivers 1 0 ⟨0, 0⟩ ↔
        (s.buffer.mSize = 0 ↔ s.buffer.mEOS = false)) :=
  ⟨_, rfl,
    (byteBuffer_readDelivers_iff [0, 0] oneByteWritten _ rfl 1 (by decide) 0
      ⟨0, 0⟩).1⟩

/-- A read of the byte that has been written returns 0. -/
theorem oneByteWritten_not_readDelivers :
    ∃ s : SharedBuffer Nat,
      LabelledRun.run SharedBuffer.step (SharedBuffer.init [0, 0])
        oneByteWritten = some s ∧
      0 < s.buffer.mSize ∧ s.buffer.mEOS = false ∧
      ¬ s.buffer.ReadDelivers 1 0 ⟨0, 0⟩ := by
  refine ⟨_, rfl, by decide, rfl, fun hright => ?_⟩
  exact absurd (hright.waits rfl).1 (by decide)

/-! ### Reading after the end of the stream -/

/-- The span neither flushes the buffer nor takes the end of the stream back. -/
def BufferStep.KeepsEOS : BufferStep T → Prop
  | .setEOS _ isEOS => isEOS = true
  | .flush _ => False
  | _ => True

/-- What a read owes to a stream that has ended: the bytes that are left, and
`BUFFER_ERROR_EOS` when there are none. -/
def ByteBuffer.ReadsToEnd (b : ByteBuffer) (len timeout : Int)
    (now : Timeval) : Prop :=
  (b.mSize ≠ 0 → b.Delivers len (b.read len timeout now)) ∧
    (b.mSize = 0 → ∃ result, b.read len timeout now = .returned result ∧
      result.ret = BUFFER_ERROR_EOS)

def BufferStep.ReadsToEnd (s : SharedBuffer T) : BufferStep T → Prop
  | .read _ len timeout now => 1 ≤ len → s.buffer.ReadsToEnd len timeout now
  | _ => True

/-- The step is not a call of `ByteBuffer_Read` with a valid length. -/
def BufferStep.NoRead (_ : SharedBuffer T) : BufferStep T → Prop
  | .read _ len _ _ => len < 1
  | _ => True

/-- The span has left the buffer and its bytes alone. -/
def Entered.Refused (b : ByteBuffer) : Entered → Prop
  | .returned result => ∃ code ≤ 0, result = b.error code
  | .waiting _ => True

theorem ByteBuffer.finish_eq_error {b : ByteBuffer} (heos : b.mEOS = true)
    (call : BufferCall) : b.finish call = b.error BUFFER_ERROR_EOS := by
  cases call <;>
    simp [ByteBuffer.finish, ByteBuffer.finishWrite, ByteBuffer.finishRead, heos]

theorem ByteBuffer.enterWait_refused (b : ByteBuffer) (timeout : Int)
    (now : Timeval) : (b.enterWait timeout now).Refused b := by
  unfold ByteBuffer.enterWait
  split
  · exact ⟨0, Int.le_refl 0, rfl⟩
  · split <;> trivial

theorem ByteBuffer.write_refused {b : ByteBuffer} (heos : b.mEOS = true)
    (data : List UInt8) (timeout : Int) (now : Timeval) :
    (b.write data timeout now).Refused b := by
  unfold ByteBuffer.write
  split
  · exact ⟨BUFFER_ERROR, by decide, rfl⟩
  · split
    · exact b.enterWait_refused timeout now
    · exact ⟨BUFFER_ERROR_EOS, by decide, b.finish_eq_error heos (.write data)⟩

theorem ByteBuffer.read_refused {b : ByteBuffer} (heos : b.mEOS = true)
    (len timeout : Int) (now : Timeval) :
    (b.read len timeout now).Refused b := by
  unfold ByteBuffer.read
  split
  · exact ⟨BUFFER_ERROR, by decide, rfl⟩
  · split
    · exact b.enterWait_refused timeout now
    · exact ⟨BUFFER_ERROR_EOS, by decide, b.finish_eq_error heos (.read len)⟩

/-- A buffer whose stream has ended after `bytes` had been accepted. -/
structure SharedBuffer.Ended (s : SharedBuffer T) (capacity : Int)
    (bytes : List UInt8) : Prop where
  invariant : s.Invariant capacity
  eos : s.buffer.mEOS = true
  accepted : accepted s.history = bytes

theorem SharedBuffer.accepted_complete_error (s : SharedBuffer T) (thread : T)
    (call : BufferCall) {code : Int} (hcode : code ≤ 0) :
    accepted (s.complete thread call (s.buffer.error code)).history =
      accepted s.history := by
  have hnone : call.accepted code = [] := by
    cases call <;> simp [BufferCall.accepted, Int.toNat_of_nonpos hcode]
  rw [SharedBuffer.complete, accepted_append_completed, ByteBuffer.error, hnone,
    List.append_nil]

theorem SharedBuffer.enter_refused (s : SharedBuffer T) (thread : T)
    (call : BufferCall) {entered : Entered}
    (hentered : entered.Refused s.buffer) :
    (s.enter thread call entered).buffer = s.buffer ∧
      accepted (s.enter thread call entered).history = accepted s.history := by
  cases entered with
  | waiting target => exact ⟨rfl, rfl⟩
  | returned result =>
      obtain ⟨code, hcode, rfl⟩ := hentered
      exact ⟨rfl, s.accepted_complete_error thread call hcode⟩

/-- Once the stream has ended, no span accepts a byte. -/
theorem SharedBuffer.Ended.step {capacity : Int} {bytes : List UInt8}
    (s : SharedBuffer T) (action : BufferStep T) (t : SharedBuffer T)
    (hs : s.Ended capacity bytes) (hkeeps : action.KeepsEOS)
    (hstep : s.step action = some t) : t.Ended capacity bytes := by
  have hinvariant := SharedBuffer.step_invariant s action t hs.invariant hstep
  suffices hsame : t.buffer.mEOS = true ∧
      MyDirectFB.accepted t.history = MyDirectFB.accepted s.history from
    ⟨hinvariant, hsame.1, hsame.2.trans hs.accepted⟩
  cases SharedBuffer.step_move hstep with
  | write thread data timeout now hidle =>
      have hsame := s.enter_refused thread (.write data)
        (ByteBuffer.write_refused hs.eos data timeout now)
      exact ⟨(congrArg ByteBuffer.mEOS hsame.1).trans hs.eos, hsame.2⟩
  | read thread len timeout now hidle =>
      have hsame := s.enter_refused thread (.read len)
        (ByteBuffer.read_refused hs.eos len timeout now)
      exact ⟨(congrArg ByteBuffer.mEOS hsame.1).trans hs.eos, hsame.2⟩
  | timesOut thread call target hwaiting htimed =>
      exact ⟨hs.eos, s.accepted_complete_error thread call (by decide)⟩
  | resume thread call target hwaiting =>
      rw [ByteBuffer.finish_eq_error hs.eos call]
      exact ⟨hs.eos, s.accepted_complete_error thread call (by decide)⟩
  | setEOS thread isEOS hidle => exact ⟨hkeeps, rfl⟩
  | flush thread hidle => exact hkeeps.elim

/-- No read of an ended stream gets what it is owed: with bytes left it returns
`BUFFER_ERROR_EOS`, and with none left it waits. -/
theorem ByteBuffer.not_readsToEnd {b : ByteBuffer} (heos : b.mEOS = true)
    {len : Int} (hlen : 1 ≤ len) (timeout : Int) (now : Timeval)
    (hsize : 0 ≤ b.mSize) : ¬ b.ReadsToEnd len timeout now := by
  intro hright
  by_cases hzero : b.mSize = 0
  · obtain ⟨result, hread, hret⟩ := hright.2 hzero
    have hwaits := b.enterWait_waits timeout now
    rw [← ByteBuffer.read_eq_enterWait hlen (.inl hzero), hread] at hwaits
    have hcode : BUFFER_ERROR_EOS = 0 := hret.symm.trans hwaits
    exact absurd hcode (by decide)
  · obtain ⟨result, hread, hret, -⟩ := hright.1 hzero
    rw [ByteBuffer.read_eq_error hlen hzero heos] at hread
    obtain rfl := Entered.returned.inj hread
    have hcode : BUFFER_ERROR_EOS = min len b.mSize := hret
    have hnegative : BUFFER_ERROR_EOS < 0 := by decide
    omega

/-- After `ByteBuffer_SetEOS(buffer, true)` the stored bytes stay where they are,
and the reads get them followed by `BUFFER_ERROR_EOS` exactly if there are no
reads. -/
theorem byteBuffer_readsToEnd_iff (memory : List UInt8)
    (steps : List (BufferStep T)) (s : SharedBuffer T)
    (hrun : LabelledRun.run SharedBuffer.step (SharedBuffer.init memory) steps =
      some s)
    (thread : T) (t : SharedBuffer T)
    (hset : s.step (.setEOS thread true) = some t)
    (later : List (BufferStep T))
    (hlater : ∀ action ∈ later, action.KeepsEOS) :
    (LabelledRun.EachStep SharedBuffer.step BufferStep.ReadsToEnd t later ↔
        LabelledRun.EachStep SharedBuffer.step BufferStep.NoRead t later) ∧
      ∀ u, LabelledRun.run SharedBuffer.step t later = some u →
        delivered u.history ++ u.buffer.contents =
          delivered t.history ++ t.buffer.contents := by
  have hs : s.Invariant memory.length := LabelledRun.run_invariant
    SharedBuffer.step_invariant (SharedBuffer.init_invariant memory) hrun
  have ht : t.Ended memory.length (accepted t.history) := by
    refine ⟨SharedBuffer.step_invariant s _ t hs hset, ?_, rfl⟩
    cases SharedBuffer.step_move hset
    rfl
  constructor
  · refine LabelledRun.eachStep_iff_of_allowed SharedBuffer.Ended.step ?_ ht
      hlater
    intro u action v hu _ _
    cases action with
    | read reader len timeout now =>
        have hnever (hlen : 1 ≤ len) := ByteBuffer.not_readsToEnd hu.eos hlen
          timeout now hu.invariant.valid.size_nonneg
        simp only [BufferStep.ReadsToEnd, BufferStep.NoRead]
        constructor
        · intro hright
          by_contra hlen
          exact hnever (by omega) (hright (by omega))
        · intro hinvalid hlen
          omega
    | _ => exact Iff.rfl
  · intro u hlast
    have hguard : LabelledRun.EachStep SharedBuffer.step
        (fun _ action => action.KeepsEOS) t later :=
      LabelledRun.eachStep_of_forall hlater
    have hu := LabelledRun.run_invariant_of_eachStep SharedBuffer.Ended.step ht
      hguard hlast
    rw [hu.invariant.fifo, ht.invariant.fifo, hu.accepted]

/-- Two reads of a stream that has ended with one byte left. -/
def readsAfterEnd : List (BufferStep Nat) :=
  [.read 1 4 (-1) ⟨0, 0⟩, .read 2 4 0 ⟨0, 0⟩]

theorem byteBuffer_readsToEnd_iff_readsAfterEnd :
    ∃ s t : SharedBuffer Nat,
      LabelledRun.run SharedBuffer.step (SharedBuffer.init [0, 0])
        oneByteWritten = some s ∧
      s.step (.setEOS 0 true) = some t ∧
      (LabelledRun.EachStep SharedBuffer.step BufferStep.ReadsToEnd t
          readsAfterEnd ↔
        LabelledRun.EachStep SharedBuffer.step BufferStep.NoRead t
          readsAfterEnd) :=
  ⟨_, _, rfl, rfl,
    (byteBuffer_readsToEnd_iff [0, 0] oneByteWritten _ rfl 0 _ rfl readsAfterEnd
      (by simp [readsAfterEnd, BufferStep.KeepsEOS])).1⟩

/-- The first of the two reads does not get the byte. -/
theorem readsAfterEnd_not_readsToEnd :
    ∃ s t : SharedBuffer Nat,
      LabelledRun.run SharedBuffer.step (SharedBuffer.init [0, 0])
        oneByteWritten = some s ∧
      s.step (.setEOS 0 true) = some t ∧
      ¬ LabelledRun.EachStep SharedBuffer.step BufferStep.ReadsToEnd t
        readsAfterEnd := by
  refine ⟨_, _, rfl, rfl, fun hright => ?_⟩
  obtain ⟨result, hread, hret, -⟩ :=
    ((hright _ rfl).1 (by decide)).1 (by decide)
  obtain rfl := Entered.returned.inj hread
  exact absurd hret (by decide)

/-! ### Coming back from a wait -/

/-- A call with timeout -1 that returns does not return 0.  Its wait is the one
without a target. -/
def BufferStep.Progress (s : SharedBuffer T) : BufferStep T → Prop
  | .write _ data timeout now => 1 ≤ data.length → timeout = -1 →
      ∀ result, s.buffer.write data timeout now = .returned result →
        result.ret ≠ 0
  | .read _ len timeout now => 1 ≤ len → timeout = -1 →
      ∀ result, s.buffer.read len timeout now = .returned result →
        result.ret ≠ 0
  | .resume thread _ => ∀ call, s.waiting thread = some (call, none) →
      (s.buffer.finish call).ret ≠ 0
  | _ => True

/-- The call can proceed: the stream has ended, or there is space for a write or
a byte for a read. -/
def ByteBuffer.Ready (b : ByteBuffer) : BufferCall → Prop
  | .write _ => b.mEOS = true ∨ b.availableSpace ≠ 0
  | .read _ => b.mEOS = true ∨ b.mSize ≠ 0

/-- A call that may wait for ever can proceed when its wait ends. -/
def BufferStep.FindsReady (s : SharedBuffer T) : BufferStep T → Prop
  | .resume thread _ => ∀ call, s.waiting thread = some (call, none) →
      s.buffer.Ready call
  | _ => True

/-- The call has arguments that the function accepts. -/
def BufferCall.ValidArguments : BufferCall → Prop
  | .write data => 1 ≤ data.length
  | .read len => 1 ≤ len

/-- Only calls with valid arguments are in their wait. -/
structure SharedBuffer.Waiting (s : SharedBuffer T) (capacity : Int) : Prop
    where
  invariant : s.Invariant capacity
  arguments : ∀ thread call target, s.waiting thread = some (call, target) →
    call.ValidArguments

theorem ByteBuffer.Valid.ret_finish_ne_zero_iff {b : ByteBuffer} (hb : b.Valid)
    {call : BufferCall} (hcall : call.ValidArguments) :
    (b.finish call).ret ≠ 0 ↔ b.Ready call := by
  cases call with
  | write data =>
      rw [Ne, ByteBuffer.finish, b.ret_finishWrite_eq_zero_iff hb hcall,
        not_and_or, Bool.not_eq_false]
      exact Iff.rfl
  | read len =>
      rw [Ne, ByteBuffer.finish, b.ret_finishRead_eq_zero_iff hb hcall,
        not_and_or, Bool.not_eq_false]
      exact Iff.rfl

theorem ByteBuffer.write_waiting {b : ByteBuffer} {data : List UInt8}
    {timeout : Int} {now : Timeval} {target : Option WaitTarget}
    (hwaiting : b.write data timeout now = .waiting target) :
    (BufferCall.write data).ValidArguments := by
  by_contra hinvalid
  have hshort : data.length < 1 := Nat.lt_of_not_le hinvalid
  simp [ByteBuffer.write, hshort] at hwaiting

theorem ByteBuffer.read_waiting {b : ByteBuffer} {len timeout : Int}
    {now : Timeval} {target : Option WaitTarget}
    (hwaiting : b.read len timeout now = .waiting target) :
    (BufferCall.read len).ValidArguments := by
  by_contra hinvalid
  have hshort : len < 1 := Int.lt_of_not_ge hinvalid
  simp [ByteBuffer.read, hshort] at hwaiting

/-- A call in its wait has been checked before. -/
theorem SharedBuffer.arguments_enter {s : SharedBuffer T}
    (hs : ∀ thread call target, s.waiting thread = some (call, target) →
      call.ValidArguments)
    (thread : T) {call : BufferCall} {entered : Entered}
    (hentered : ∀ target, entered = .waiting target → call.ValidArguments) :
    ∀ other call' target',
      (s.enter thread call entered).waiting other = some (call', target') →
        call'.ValidArguments := by
  intro other call' target' hwaiting
  cases entered with
  | returned result =>
      by_cases hother : other = thread
      · simp [SharedBuffer.enter, SharedBuffer.complete, hother] at hwaiting
      · exact hs other call' target' (by
          simpa [SharedBuffer.enter, SharedBuffer.complete, hother] using
            hwaiting)
  | waiting target =>
      by_cases hother : other = thread
      · simp only [SharedBuffer.enter, hother, Function.update_self,
          Option.some.injEq, Prod.mk.injEq] at hwaiting
        exact hwaiting.1 ▸ hentered target rfl
      · exact hs other call' target' (by
          simpa [SharedBuffer.enter, hother] using hwaiting)

theorem SharedBuffer.Waiting.step {capacity : Int} (s : SharedBuffer T)
    (action : BufferStep T) (t : SharedBuffer T) (hs : s.Waiting capacity)
    (hstep : s.step action = some t) : t.Waiting capacity := by
  refine ⟨SharedBuffer.step_invariant s action t hs.invariant hstep, ?_⟩
  have hcomplete (thread : T) (call : BufferCall) (result : Returned) :
      ∀ other call' target',
        (s.enter thread call (.returned result)).waiting other =
          some (call', target') → call'.ValidArguments :=
    SharedBuffer.arguments_enter hs.arguments thread (by simp)
  cases SharedBuffer.step_move hstep with
  | write thread data timeout now hidle =>
      exact s.arguments_enter hs.arguments thread fun _ => ByteBuffer.write_waiting
  | read thread len timeout now hidle =>
      exact s.arguments_enter hs.arguments thread fun _ => ByteBuffer.read_waiting
  | timesOut thread call target hwaiting htimed => exact hcomplete thread call _
  | resume thread call target hwaiting => exact hcomplete thread call _
  | setEOS thread isEOS hidle => exact hs.arguments
  | flush thread hidle => exact hs.arguments

omit [DecidableEq T] in
/-- The first span of a call never returns 0 when it may wait for ever; the
second does exactly when the call still cannot proceed. -/
theorem SharedBuffer.Waiting.progress_iff {s : SharedBuffer T} {capacity : Int}
    (hs : s.Waiting capacity) (action : BufferStep T) :
    action.Progress s ↔ action.FindsReady s := by
  have hvalid := hs.invariant.valid
  cases action with
  | write thread data timeout now =>
      refine iff_of_true ?_ trivial
      rintro hdata rfl result hwrite hzero
      have hwaits : (s.buffer.write data (-1) now).Waits := hwrite ▸ hzero
      obtain ⟨hspace, heos⟩ := hvalid.write_waits hdata hwaits
      have hshort : ¬ data.length < 1 := by omega
      simp [ByteBuffer.write, hshort, hspace, heos, ByteBuffer.enterWait]
        at hwrite
  | read thread len timeout now =>
      refine iff_of_true ?_ trivial
      rintro hlen rfl result hread hzero
      by_cases hguard : s.buffer.mSize = 0 ∨ s.buffer.mEOS = false
      · rw [ByteBuffer.read_eq_enterWait hlen hguard] at hread
        simp [ByteBuffer.enterWait] at hread
      · obtain ⟨hsize, heos⟩ := not_or.mp hguard
        rw [ByteBuffer.read_eq_error hlen hsize (by simpa using heos)] at hread
        obtain rfl := Entered.returned.inj hread
        have hcode : BUFFER_ERROR_EOS = 0 := hzero
        exact absurd hcode (by decide)
  | resume thread timedOut =>
      refine forall_congr' fun call => imp_congr_right fun hwaiting => ?_
      exact hvalid.ret_finish_ne_zero_iff (hs.arguments thread call none hwaiting)
  | setEOS thread isEOS => exact Iff.rfl
  | flush thread => exact Iff.rfl

/-- In every run, the calls that may wait for ever return something exactly when
each of them can proceed at the moment its wait ends. -/
theorem byteBuffer_progress_iff (memory : List UInt8)
    (steps : List (BufferStep T)) :
    LabelledRun.EachStep SharedBuffer.step BufferStep.Progress
        (SharedBuffer.init memory) steps ↔
      LabelledRun.EachStep SharedBuffer.step BufferStep.FindsReady
        (SharedBuffer.init memory) steps := by
  have hinit : (SharedBuffer.init memory : SharedBuffer T).Waiting memory.length :=
    ⟨SharedBuffer.init_invariant memory, by simp [SharedBuffer.init]⟩
  exact LabelledRun.eachStep_iff_of_invariant SharedBuffer.Waiting.step
    (fun _ action _ hs _ => hs.progress_iff action) hinit steps

/-- The buffer is full, a second write waits, and the signal that wakes it is
that of a `ByteBuffer_SetEOS(buffer, false)`. -/
def wokenWhileFull : List (BufferStep Nat) :=
  [.write 0 [1] 0 ⟨0, 0⟩, .write 1 [2] (-1) ⟨0, 0⟩, .setEOS 0 false,
    .resume 1 false]

theorem wokenWhileFull_not_progress :
    ¬ LabelledRun.EachStep SharedBuffer.step BufferStep.Progress
      (SharedBuffer.init [0]) wokenWhileFull := by
  intro hprogress
  have hwoken :=
    ((((hprogress _ rfl).2 _ rfl).2 _ rfl).2 _ rfl).1 (.write [2]) rfl
  exact hwoken (by decide)

end MyDirectFB

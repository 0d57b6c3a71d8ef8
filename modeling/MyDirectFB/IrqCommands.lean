/-
The commands and the descriptors of an interrupt watcher.  The pipe outlives the
worker threads, so what is left in it when one is stopped is done by the next:
`setEdge` is called in the order in which `enable` and `disable` asked for it.  And
`stop` always has a byte in the pipe for a worker that is polling.
-/
import MyDirectFB.Irq

namespace MyDirectFB

universe u

variable {H : Type u}

namespace Irq

/-! ### The edges come in order -/

/-- The names that the calls of `setEdge` have written, whatever descriptors they
were given. -/
def written (s : Irq H) (fd : H) : List (List UInt8) :=
  s.edges.flatMap fun call =>
    List.filterMap GPIO.Syscall.written? <| GPIO.setEdge call.1 fd call.2

variable [DecidableEq H]

/-- The steps that a worker has left once it is told to exit. -/
def remaining : IrqWorkerPc → Nat
  | .absent | .exited => 0
  | .returned => 1
  | .testing => 2
  | .checking _ => 3
  | .commanded _ => 4
  | .polling => 5

/-- What keeps a `stop` from waiting for ever: the worker has been told to exit,
and there is a byte in the pipe as long as it polls. -/
structure Inv (s : Irq H) : Prop where
  absent : s.worker = .absent ↔ s.mState = .TASK_STATE_INIT
  creating : s.client = .creating → s.mState = .TASK_STATE_INIT
  joining : ∀ restarts, s.client = .joining restarts →
    s.mState ≠ .TASK_STATE_INIT ∧ s.mExitTask = true
  awaited : ∀ restarts, s.client = .joining restarts → s.worker = .polling →
    s.mPipe.queue ≠ []
  commanded : ∀ interrupted, s.worker = .commanded interrupted → s.mPipe.queue ≠ []

omit [DecidableEq H] in
theorem init_inv (edge : GPIOEdge) (kernel : GPIO.Kernel) :
    (init edge kernel : Irq H).Inv where
  absent := ⟨fun _ => rfl, fun _ => rfl⟩
  creating := nofun
  joining := nofun
  awaited := nofun
  commanded := nofun

omit [DecidableEq H] in
/-- Another byte in the pipe. -/
theorem Inv.write {s : Irq H} (hs : s.Inv) (data : Char) : (s.write data).Inv where
  absent := hs.absent
  creating := hs.creating
  joining := hs.joining
  awaited := by simp [Irq.write]
  commanded := by simp [Irq.write]

omit [DecidableEq H] in
theorem Inv.beginStop {s : Irq H} (hs : s.Inv) (hstate : s.mState ≠ .TASK_STATE_INIT)
    (restarts : Bool) : (s.beginStop restarts).Inv where
  absent := iff_of_false (fun habsent => hstate (hs.absent.mp habsent)) nofun
  creating := nofun
  joining _ _ := ⟨nofun, rfl⟩
  awaited := by simp [Irq.beginStop, Irq.onPreStop, Irq.write]
  commanded := by simp [Irq.beginStop, Irq.onPreStop, Irq.write]

omit [DecidableEq H] in
/-- A step of the worker that does not come to `poll`. -/
theorem Inv.goesOn {s : Irq H} (hs : s.Inv) (hworker : s.worker ≠ .absent)
    {worker : IrqWorkerPc} (habsent : worker ≠ .absent) (hpolling : worker ≠ .polling)
    (hcommanded : ∀ interrupted, worker ≠ .commanded interrupted)
    (mPipe : Channel Char) (edges : List EdgeCall) (notified : Nat) :
    Inv { s with
      worker := worker, mPipe := mPipe, edges := edges, notified := notified } where
  absent := iff_of_false habsent fun hstate => hworker (hs.absent.mpr hstate)
  creating := hs.creating
  joining := hs.joining
  awaited _ _ heq := absurd heq hpolling
  commanded _ heq := absurd heq (hcommanded _)

theorem step_inv {s t : Irq H} {action : IrqAction H} (hs : s.Inv)
    (hstep : s.step action = some t) : t.Inv := by
  cases step_move hstep with
  | startInit hclient hstate =>
      exact ⟨hs.absent, fun _ => hstate, nofun, nofun, hs.commanded⟩
  | startStopped hclient hstate => exact hs.beginStop (by simp [hstate]) true
  | startRefused | stopIdle => exact hs
  | stop hclient hstate =>
      refine hs.beginStop ?_ false
      rcases hstate with hstate | hstate <;> simp [hstate]
  | created fd hclient hfresh => exact ⟨by simp, nofun, nofun, nofun, nofun⟩
  | notOpened created hclient =>
      exact ⟨hs.absent, nofun, nofun, nofun, hs.commanded⟩
  | notCreated fd hclient hfresh =>
      exact ⟨hs.absent, nofun, nofun, nofun, hs.commanded⟩
  | joinReturn restarts hclient hworker =>
      refine ⟨iff_of_true rfl rfl, fun _ => rfl, fun other hother => ?_,
        fun _ _ heq => (nomatch heq), fun _ heq => (nomatch heq)⟩
      cases restarts <;> cases hother
  | enable => exact hs.write 'E'
  | disable => exact hs.write 'D'
  | leaves hworker hexit =>
      exact hs.goesOn (by simp [hworker]) (by simp) (by simp) (by simp) _ _ _
  | polls hworker hexit =>
      refine ⟨iff_of_false nofun fun hstate => ?_, hs.creating, hs.joining,
        fun restarts hclient _ => ?_, nofun⟩
      · exact absurd (hs.absent.mpr hstate) (by simp [hworker])
      · rw [(hs.joining restarts hclient).2] at hexit
        cases hexit
  | poll outcome hworker hadmits =>
      have hpresent : s.worker ≠ .absent := by simp [hworker]
      cases outcome with
      | timeout | failed =>
          exact hs.goesOn hpresent (by simp [IrqPollOutcome.next])
            (by simp [IrqPollOutcome.next]) (by simp [IrqPollOutcome.next]) _ _ _
      | ready command interrupted =>
          cases command with
          | false =>
              exact hs.goesOn hpresent (by simp [IrqPollOutcome.next])
                (by simp [IrqPollOutcome.next]) (by simp [IrqPollOutcome.next]) _ _ _
          | true =>
              refine ⟨iff_of_false nofun fun hstate => ?_, hs.creating, hs.joining,
                fun _ _ heq => (nomatch heq), fun _ _ => hadmits.mp rfl⟩
              exact hpresent (hs.absent.mpr hstate)
  | readCommand interrupted data mPipe kernel hworker htake =>
      have hpresent : s.worker ≠ .absent := by simp [hworker]
      unfold perform
      split <;> exact hs.goesOn hpresent (by simp) (by simp) (by simp) _ _ _
  | checkPin interrupted hworker =>
      exact hs.goesOn (by simp [hworker]) (by simp) (by simp) (by simp) _ _ _
  | setStopped hworker =>
      refine ⟨iff_of_false nofun nofun, fun hclient => ?_, fun restarts hclient =>
        ⟨nofun, (hs.joining restarts hclient).2⟩, nofun, nofun⟩
      exact absurd (hs.absent.mpr (hs.creating hclient)) (by simp [hworker])

theorem run_inv {edge : GPIOEdge} {kernel : GPIO.Kernel}
    {actions : List (IrqAction H)} {s : Irq H}
    (hrun : LabelledRun.run step (init edge kernel) actions = some s) : s.Inv :=
  LabelledRun.run_invariant (P := Inv) (fun _ _ _ hs hstep => step_inv hs hstep)
    (init_inv edge kernel) hrun

omit [DecidableEq H] in
/-- A worker that polls while a `stop` waits for it is woken by the pipe: `poll` does
not wait for its timeout, and does not return for the pin alone. -/
theorem Inv.woken {s : Irq H} (hs : s.Inv) {restarts : Bool}
    (hclient : s.client = .joining restarts) (hworker : s.worker = .polling)
    {outcome : IrqPollOutcome} (hadmits : Admits s.mPipe outcome) :
    outcome = .failed ∨ ∃ interrupted, outcome = .ready true interrupted := by
  have hqueue := hs.awaited restarts hclient hworker
  cases outcome with
  | timeout => exact absurd hadmits hqueue
  | failed => exact .inl rfl
  | ready command interrupted => exact .inr ⟨interrupted, by rw [hadmits.mpr hqueue]⟩

/-- The descriptors of the file `value` that are open: one for a worker, and one for
each `start` that opened the file and could not create its thread. -/
structure Held (failed : Nat) (s : Irq H) : Prop where
  inv : s.Inv
  nodup : s.ledger.opened.Nodup
  count : s.ledger.opened.length = failed + if s.worker = .absent then 0 else 1
  uses : s.worker ≠ .absent → ∃ fd ∈ s.ledger.opened, s.mFD = some fd

omit [DecidableEq H] in
/-- A step that leaves the descriptors alone, and the worker there or not. -/
theorem Held.frame {failed : Nat} {s t : Irq H} (hs : s.Held failed) (ht : t.Inv)
    (hledger : t.ledger = s.ledger) (hfd : t.mFD = s.mFD)
    (hworker : t.worker = .absent ↔ s.worker = .absent) : t.Held failed where
  inv := ht
  nodup := by rw [hledger]; exact hs.nodup
  count := by rw [hledger, hs.count]; simp only [hworker]
  uses hpresent := by
    rw [hledger, hfd]
    exact hs.uses fun habsent => hpresent (hworker.mpr habsent)

end Irq

end MyDirectFB

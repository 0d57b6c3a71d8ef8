/-
The lifecycle of a task under concurrent clients.  `Stage` is what a task should
go through: no worker, a worker alive, a worker done, a worker joined.  A task
follows its stages in every run in which no `stop` finds the state STOPPED while
another client is joining, and no `start` goes on after its inner `stop` but from
INIT.  Without that a worker can be joined twice.
-/
import MyDirectFB.Task
import MyDirectFB.Lib.LabelledRun

namespace MyDirectFB

universe u

variable {C : Type u}

/-- What the clients of a task rely on: at most one worker is live, none is
joined twice, none is left unjoined when a new one is created, and INIT means
that there is none. -/
structure Task.Safe (s : Task C) : Prop where
  one_live : ∀ v w, s.worker v ≠ .exited → s.worker w ≠ .exited → v = w
  joins_le : ∀ w, s.joins w ≤ 1
  joined : ∀ w, w + 1 < s.created → s.joins w = 1
  init : s.mState = .TASK_STATE_INIT → ∀ w, s.worker w = .exited

/-- The client is between the two locks of `stop`. -/
def ClientPc.InWindow : ClientPc → Prop
  | .joining _ => True
  | .inJoin _ _ => True
  | .joined _ => True
  | _ => False

/-- The client is joining the worker `w`. -/
def ClientPc.WaitsFor (w : Nat) : ClientPc → Prop
  | .joining _ => True
  | .inJoin _ target => target = some w
  | _ => False

/-- The stages of a task.  The last worker is `w`, the client that is joining it
`joiner`; without a worker, `n` workers have been created and joined. -/
inductive Stage (C : Type u) where
  | init (n : Nat)
  | alive (w : Nat) (joiner : Option C)
  | dead (w : Nat) (joiner : Option C)
  | joined (w : Nat) (joiner : C)

namespace Stage

/-- The states a task can show at a stage.  A worker that is done sets STOPPED
even when it has been told to stop. -/
def Shows : Stage C → TaskState → Prop
  | .init _, state => state = .TASK_STATE_INIT
  | .alive _ none, state => state = .TASK_STATE_RUNNING
  | .alive _ (some _), state => state = .TASK_STATE_STOPPING
  | .dead _ none, state => state = .TASK_STATE_STOPPED
  | .dead _ (some _), state =>
      state = .TASK_STATE_STOPPED ∨ state = .TASK_STATE_STOPPING
  | .joined _ _, state =>
      state = .TASK_STATE_STOPPED ∨ state = .TASK_STATE_STOPPING

def id : Stage C → Option Nat
  | .init _ => none
  | .alive w _ | .dead w _ | .joined w _ => some w

def created : Stage C → Nat
  | .init n => n
  | .alive w _ | .dead w _ | .joined w _ => w + 1

/-- How many workers have been joined. -/
def past : Stage C → Nat
  | .init n => n
  | .alive w _ | .dead w _ => w
  | .joined w _ => w + 1

def joiner : Stage C → Option C
  | .init _ => none
  | .alive _ joiner | .dead _ joiner => joiner
  | .joined _ joiner => some joiner

/-- The phases worker `v` can be in. -/
def Phase (v : Nat) : Stage C → WorkerPhase → Prop
  | .alive w _, phase =>
      if v = w then phase = .running ∨ phase = .finished else phase = .exited
  | .dead w _, phase =>
      if v = w then phase = .stopped ∨ phase = .exited else phase = .exited
  | _, phase => phase = .exited

/-- Where the joiner can be. -/
def Pc : Stage C → ClientPc → Prop
  | .init _, _ => False
  | .alive w _, pc | .dead w _, pc => pc.WaitsFor w
  | .joined _ _, pc => ∃ inner, pc = .joined inner

end Stage

/-- The task is at a stage. -/
structure Task.At (s : Task C) (stage : Stage C) : Prop where
  shows : stage.Shows s.mState
  id : s.mId = stage.id
  created : s.created = stage.created
  joins : ∀ v, s.joins v = if v < stage.past then 1 else 0
  workers : ∀ v, stage.Phase v (s.worker v)
  window : ∀ d, (s.client d).InWindow → stage.joiner = some d
  joiner : ∀ d, stage.joiner = some d → stage.Pc (s.client d)

theorem Task.init_at : (Task.init : Task C).At (.init 0) where
  shows := rfl
  id := rfl
  created := rfl
  joins _ := rfl
  workers _ := rfl
  window _ hwindow := hwindow.elim
  joiner _ hjoiner := by cases hjoiner

/-- A task that is at some stage is safe. -/
theorem Task.At.safe {s : Task C} {stage : Stage C} (hs : s.At stage) :
    s.Safe where
  one_live v w hv hw := by
    have hphase := hs.workers
    cases stage with
    | init n => exact absurd (hphase v) hv
    | joined x joiner => exact absurd (hphase v) hv
    | alive x joiner =>
        have hlive (y : Nat) (hy : s.worker y ≠ .exited) : y = x := by
          by_contra hne
          have hdone := hphase y
          rw [Stage.Phase, if_neg hne] at hdone
          exact hy hdone
        rw [hlive v hv, hlive w hw]
    | dead x joiner =>
        have hlive (y : Nat) (hy : s.worker y ≠ .exited) : y = x := by
          by_contra hne
          have hdone := hphase y
          rw [Stage.Phase, if_neg hne] at hdone
          exact hy hdone
        rw [hlive v hv, hlive w hw]
  joins_le w := by
    rw [hs.joins]
    split <;> omega
  joined w hw := by
    rw [hs.created] at hw
    rw [hs.joins, if_pos]
    cases stage <;> simp only [Stage.created, Stage.past] at hw ⊢ <;> omega
  init hinit w := by
    have hshows := hs.shows
    rw [hinit] at hshows
    cases stage with
    | init n => exact hs.workers w
    | alive x joiner => cases joiner <;> cases hshows
    | dead x joiner =>
        cases joiner with
        | none => cases hshows
        | some d => simp [Stage.Shows] at hshows
    | joined x joiner => simp [Stage.Shows] at hshows

/-! ### Steps -/

/-- The other clients are not between the two locks of `stop`. -/
def Task.Quiet (s : Task C) (client : C) : Prop :=
  ∀ d, d ≠ client → ¬ (s.client d).InWindow

/-- The condition on a step: a `stop` that finds the task stopped is the only
one under way, and a `start` goes on after its `stop` only when the state is
still the one its `stop` has left. -/
def Task.Guarded (s : Task C) : TaskStep C → Prop
  | .stop client => s.mState = .TASK_STATE_STOPPED → s.Quiet client
  | .innerStop client => s.mState = .TASK_STATE_STOPPED → s.Quiet client
  | .recreate _ => s.mState = .TASK_STATE_INIT
  | _ => True

theorem Stage.inWindow_of_pc {stage : Stage C} {pc : ClientPc}
    (hpc : stage.Pc pc) : pc.InWindow := by
  cases stage with
  | init n => exact hpc.elim
  | alive w joiner => cases pc <;> trivial
  | dead w joiner => cases pc <;> trivial
  | joined w joiner =>
      obtain ⟨inner, rfl⟩ := hpc
      trivial

/-- A task that is quiet but for a client outside of `stop` has no joiner. -/
theorem Task.At.joiner_eq_none {s : Task C} {stage : Stage C} (hs : s.At stage)
    {client : C} (hclient : ¬ (s.client client).InWindow)
    (hquiet : s.Quiet client) : stage.joiner = none := by
  cases hjoiner : stage.joiner with
  | none => rfl
  | some d =>
      have hwindow := Stage.inWindow_of_pc (hs.joiner d hjoiner)
      by_cases hne : d = client
      · exact absurd hwindow (hne ▸ hclient)
      · exact absurd hwindow (hquiet d hne)

/-- INIT is shown without a worker only. -/
theorem Task.At.eq_init {s : Task C} {stage : Stage C} (hs : s.At stage)
    (hinit : s.mState = .TASK_STATE_INIT) : ∃ n, stage = .init n := by
  have hshows := hs.shows
  rw [hinit] at hshows
  rcases stage with n | ⟨w, _ | c⟩ | ⟨w, _ | c⟩ | ⟨w, c⟩
  · exact ⟨n, rfl⟩
  all_goals simp [Stage.Shows] at hshows

/-- RUNNING is shown by a live worker that nobody joins. -/
theorem Task.At.eq_alive {s : Task C} {stage : Stage C} (hs : s.At stage)
    (hrunning : s.mState = .TASK_STATE_RUNNING) :
    ∃ w, stage = .alive w none := by
  have hshows := hs.shows
  rw [hrunning] at hshows
  rcases stage with n | ⟨w, _ | c⟩ | ⟨w, _ | c⟩ | ⟨w, c⟩
  case alive.none => exact ⟨w, rfl⟩
  all_goals simp [Stage.Shows] at hshows

/-- STOPPED without a joiner is shown by a worker that is done. -/
theorem Task.At.eq_dead {s : Task C} {stage : Stage C} (hs : s.At stage)
    (hstopped : s.mState = .TASK_STATE_STOPPED) (hjoiner : stage.joiner = none) :
    ∃ w, stage = .dead w none := by
  have hshows := hs.shows
  rw [hstopped] at hshows
  rcases stage with n | ⟨w, _ | c⟩ | ⟨w, _ | c⟩ | ⟨w, c⟩
  case dead.none => exact ⟨w, rfl⟩
  all_goals simp [Stage.Shows, Stage.joiner] at hshows hjoiner

/-- A client in the window of `stop` is the joiner. -/
theorem Task.At.pc_of_inWindow {s : Task C} {stage : Stage C} (hs : s.At stage)
    {client : C} (hwindow : (s.client client).InWindow) :
    stage.joiner = some client ∧ stage.Pc (s.client client) :=
  ⟨hs.window client hwindow, hs.joiner client (hs.window client hwindow)⟩

theorem Task.At.create {s : Task C} {n : Nat} (hs : s.At (.init n)) :
    s.create.At (.alive n none) where
  shows := rfl
  id := congrArg some hs.created
  created := congrArg (· + 1) hs.created
  joins := hs.joins
  workers v := by
    have hcreated : s.created = n := hs.created
    by_cases hv : v = n
    · simp [Stage.Phase, Task.create, hcreated, hv]
    · have hdone : s.worker v = .exited := hs.workers v
      simp [Stage.Phase, Task.create, hcreated, hv, hdone]
  window d hd := hs.window d hd
  joiner d hd := by cases hd

/-- A worker moves on, and only its phase changes. -/
theorem Task.At.setWorker {s : Task C} {stage : Stage C} (hs : s.At stage)
    {w : Nat} {phase : WorkerPhase} (hphase : stage.Phase w phase) :
    (s.setWorker w phase).At stage where
  shows := hs.shows
  id := hs.id
  created := hs.created
  joins := hs.joins
  workers v := by
    by_cases hv : v = w
    · simpa [Task.setWorker, hv] using hphase
    · simpa [Task.setWorker, hv] using hs.workers v
  window := hs.window
  joiner := hs.joiner

/-- A worker that still has to set the state is the last one. -/
theorem Task.At.eq_alive_of_worker {s : Task C} {stage : Stage C}
    (hs : s.At stage) {w : Nat}
    (hw : s.worker w = .running ∨ s.worker w = .finished) :
    ∃ joiner, stage = .alive w joiner := by
  have hphase := hs.workers w
  rcases stage with n | ⟨x, joiner⟩ | ⟨x, joiner⟩ | ⟨x, joiner⟩
  case alive =>
    by_cases hx : w = x
    · exact ⟨joiner, by rw [hx]⟩
    · rw [Stage.Phase, if_neg hx] at hphase
      simp [hphase] at hw
  case dead =>
    by_cases hx : w = x
    · simp only [Stage.Phase, hx, ↓reduceIte] at hphase hw
      rcases hphase with hphase | hphase <;> simp [hphase] at hw
    · rw [Stage.Phase, if_neg hx] at hphase
      simp [hphase] at hw
  all_goals
    have hdone : s.worker w = .exited := hphase
    simp [hdone] at hw

theorem Task.At.runReturns {s : Task C} {stage : Stage C} (hs : s.At stage)
    {w : Nat} (hw : s.worker w = .running) :
    (s.setWorker w .finished).At stage := by
  obtain ⟨joiner, rfl⟩ := hs.eq_alive_of_worker (.inl hw)
  exact hs.setWorker (by simp [Stage.Phase])

theorem Task.At.setStopped {s : Task C} {stage : Stage C} (hs : s.At stage)
    {w : Nat} (hw : s.worker w = .finished) :
    ∃ next, Task.At
      { s.setWorker w .stopped with mState := .TASK_STATE_STOPPED } next := by
  obtain ⟨joiner, rfl⟩ := hs.eq_alive_of_worker (.inr hw)
  refine ⟨.dead w joiner, ?_, hs.id, hs.created, hs.joins, ?_, hs.window,
    hs.joiner⟩
  · cases joiner with
    | none => rfl
    | some d => exact .inl rfl
  · intro v
    by_cases hv : v = w
    · simp [Stage.Phase, Task.setWorker, hv]
    · have hdone := hs.workers v
      rw [Stage.Phase, if_neg hv] at hdone
      simpa [Stage.Phase, Task.setWorker, hv] using hdone

theorem Task.At.exit {s : Task C} {stage : Stage C} (hs : s.At stage) {w : Nat}
    (hw : s.worker w = .stopped) : (s.setWorker w .exited).At stage := by
  refine hs.setWorker ?_
  have hphase := hs.workers w
  rw [hw] at hphase
  cases stage with
  | init n => cases hphase
  | joined x joiner => cases hphase
  | alive x joiner =>
      by_cases hx : w = x
      · simp [Stage.Phase, hx] at hphase
      · simp [Stage.Phase, hx] at hphase
  | dead x joiner =>
      by_cases hx : w = x
      · simp [Stage.Phase, hx]
      · simp [Stage.Phase, hx] at hphase

variable [DecidableEq C]

/-- A client that is and stays outside of `stop` does not matter. -/
theorem Task.At.setClient {s : Task C} {stage : Stage C} (hs : s.At stage)
    {client : C} {pc : ClientPc} (hold : ¬ (s.client client).InWindow)
    (hnew : ¬ pc.InWindow) : (s.setClient client pc).At stage where
  shows := hs.shows
  id := hs.id
  created := hs.created
  joins := hs.joins
  workers := hs.workers
  window d hd := by
    by_cases hne : d = client
    · simp [Task.setClient, hne, hnew] at hd
    · exact hs.window d (by simpa [Task.setClient, hne] using hd)
  joiner d hd := by
    have hpc := hs.joiner d hd
    by_cases hne : d = client
    · exact absurd (Stage.inWindow_of_pc hpc) (hne ▸ hold)
    · simpa [Task.setClient, hne] using hpc

theorem Task.At.start {s : Task C} {stage : Stage C} (hs : s.At stage)
    {client : C} (hidle : s.client client = .idle) :
    ∃ next, (s.start client).At next := by
  have hold : ¬ (s.client client).InWindow := by simp [hidle, ClientPc.InWindow]
  unfold Task.start
  split
  · exact ⟨stage, hs⟩
  · rename_i hstate
    split
    · exact ⟨stage, hs.setClient hold (by simp [ClientPc.InWindow])⟩
    · rename_i hstopped
      have hinit : s.mState = .TASK_STATE_INIT := by
        by_contra hne
        exact hstate ⟨hne, hstopped⟩
      obtain ⟨n, rfl⟩ := hs.eq_init hinit
      exact ⟨.alive n none, hs.create⟩

/-- A client enters `stop` and becomes the joiner. -/
theorem Task.At.joining {s : Task C} {stage next : Stage C} (hs : s.At stage)
    (client : C) (inner : Bool) (hnone : stage.joiner = none)
    (hshows : next.Shows .TASK_STATE_STOPPING) (hid : next.id = stage.id)
    (hcreated : next.created = stage.created) (hpast : next.past = stage.past)
    (hphase : ∀ v phase, stage.Phase v phase → next.Phase v phase)
    (hjoiner : next.joiner = some client) (hpc : next.Pc (.joining inner)) :
    ({ s with mState := .TASK_STATE_STOPPING }.setClient client
      (.joining inner)).At next where
  shows := hshows
  id := hs.id.trans hid.symm
  created := hs.created.trans hcreated.symm
  joins v := hpast ▸ hs.joins v
  workers v := hphase v _ (hs.workers v)
  window d hd := by
    by_cases hne : d = client
    · rw [hne, hjoiner]
    · have hwindow := hs.window d (by simpa [Task.setClient, hne] using hd)
      simp [hnone] at hwindow
  joiner d hd := by
    obtain rfl := Option.some.inj (hjoiner.symm.trans hd)
    simpa [Task.setClient] using hpc

theorem Task.At.stop {s : Task C} {stage : Stage C} (hs : s.At stage)
    {client : C} {inner : Bool} (hclient : ¬ (s.client client).InWindow)
    (hguard : s.mState = .TASK_STATE_STOPPED → s.Quiet client) :
    ∃ next, (s.stop client inner).At next := by
  have hafter : ¬ (ClientPc.afterStop inner).InWindow := by
    cases inner <;> exact not_false
  unfold Task.stop
  split
  · exact ⟨stage, hs.setClient hclient hafter⟩
  · rename_i hstate
    by_cases hrunning : s.mState = .TASK_STATE_RUNNING
    · obtain ⟨w, rfl⟩ := hs.eq_alive hrunning
      have hid : s.mId ≠ none := by simp [hs.id, Stage.id]
      rw [if_pos hid]
      exact ⟨.alive w (some client), hs.joining client inner rfl rfl rfl rfl rfl
        (fun v phase hphase => hphase) rfl trivial⟩
    · have hstopped : s.mState = .TASK_STATE_STOPPED := by
        by_contra hne
        exact hstate ⟨hrunning, hne⟩
      have hnone := hs.joiner_eq_none hclient (hguard hstopped)
      obtain ⟨w, rfl⟩ := hs.eq_dead hstopped hnone
      have hid : s.mId ≠ none := by simp [hs.id, Stage.id]
      rw [if_pos hid]
      exact ⟨.dead w (some client), hs.joining client inner rfl (.inr rfl) rfl
        rfl rfl (fun v phase hphase => hphase) rfl trivial⟩

/-- The joiner moves on inside the window. -/
theorem Task.At.movePc {s : Task C} {stage : Stage C} (hs : s.At stage)
    {client : C} (hjoiner : stage.joiner = some client) {pc : ClientPc}
    (hpc : stage.Pc pc) : (s.setClient client pc).At stage where
  shows := hs.shows
  id := hs.id
  created := hs.created
  joins := hs.joins
  workers := hs.workers
  window d hd := by
    by_cases hne : d = client
    · rw [hne, hjoiner]
    · exact hs.window d (by simpa [Task.setClient, hne] using hd)
  joiner d hd := by
    obtain rfl := Option.some.inj (hjoiner.symm.trans hd)
    simpa [Task.setClient] using hpc

/-- The joiner reads the id of the last worker. -/
theorem Task.At.readId {s : Task C} {stage : Stage C} (hs : s.At stage)
    {client : C} {inner : Bool} (hclient : s.client client = .joining inner) :
    (s.setClient client (.inJoin inner s.mId)).At stage := by
  obtain ⟨hjoiner, hpc⟩ := hs.pc_of_inWindow (by rw [hclient]; trivial)
  refine hs.movePc hjoiner ?_
  rw [hclient] at hpc
  cases stage with
  | init n => exact hpc.elim
  | alive w joiner => exact hs.id
  | dead w joiner => exact hs.id
  | joined w joiner =>
      obtain ⟨inner', hpc⟩ := hpc
      cases hpc

/-- `pthread_join` returns for a worker that is done and not yet joined. -/
theorem Task.At.joinReturn {s t : Task C} {stage : Stage C} (hs : s.At stage)
    {client : C} {inner : Bool} {target : Option Nat}
    (hclient : s.client client = .inJoin inner target)
    (hstep : s.joinReturn client inner target = some t) :
    ∃ next, t.At next := by
  obtain ⟨hjoiner, hpc⟩ := hs.pc_of_inWindow (by rw [hclient]; trivial)
  rw [hclient] at hpc
  cases stage with
  | init n => exact hpc.elim
  | joined w joiner =>
      obtain ⟨inner', hpc⟩ := hpc
      cases hpc
  | alive w joiner =>
      have htarget : target = some w := hpc
      have hphase := hs.workers w
      simp only [Stage.Phase, ↓reduceIte] at hphase
      rw [htarget, Task.joinReturn] at hstep
      rcases hphase with hphase | hphase <;> simp [hphase] at hstep
  | dead w joiner =>
      have htarget : target = some w := hpc
      rw [htarget, Task.joinReturn, Option.ite_none_right_eq_some] at hstep
      obtain ⟨hexited, hnext⟩ := hstep
      cases hnext
      obtain rfl : joiner = some client := hjoiner
      refine ⟨.joined w client, hs.shows, hs.id, hs.created, ?_, ?_, ?_, ?_⟩
      · intro v
        have hjoins (x : Nat) : s.joins x = if x < w then 1 else 0 := hs.joins x
        change _ = if v < w + 1 then 1 else 0
        by_cases hv : v = w
        · simp [Task.setClient, hv, hjoins]
        · simp only [Task.setClient, Function.update_of_ne hv, hjoins]
          by_cases hlt : v < w
          · rw [if_pos hlt, if_pos (by omega)]
          · rw [if_neg hlt, if_neg (by omega)]
      · intro v
        by_cases hv : v = w
        · simpa [Stage.Phase, Task.setClient, hv] using hexited
        · have hdone := hs.workers v
          rw [Stage.Phase, if_neg hv] at hdone
          exact hdone
      · intro d hd
        by_cases hne : d = client
        · rw [hne]
          rfl
        · exact hs.window d (by simpa [Task.setClient, hne] using hd)
      · intro d hd
        obtain rfl := Option.some.inj hd
        exact ⟨inner, by simp [Task.setClient]⟩

theorem Task.At.stopJoined {s : Task C} {stage : Stage C} (hs : s.At stage)
    {client : C} {inner : Bool} (hclient : s.client client = .joined inner) :
    ∃ next, (s.stopJoined client inner).At next := by
  obtain ⟨hjoiner, hpc⟩ := hs.pc_of_inWindow (by rw [hclient]; trivial)
  rw [hclient] at hpc
  have hafter : ¬ (ClientPc.afterStop inner).InWindow := by
    cases inner <;> exact not_false
  cases stage with
  | init n => exact hpc.elim
  | alive w joiner => exact hpc.elim
  | dead w joiner => exact hpc.elim
  | joined w joiner =>
      obtain rfl : joiner = client := Option.some.inj hjoiner
      refine ⟨.init (w + 1), rfl, rfl, hs.created, hs.joins, hs.workers, ?_, ?_⟩
      · intro d hd
        by_cases hne : d = joiner
        · simp [Task.stopJoined, Task.setClient, hne, hafter] at hd
        · have hwindow := hs.window d (by
            simpa [Task.stopJoined, Task.setClient, hne] using hd)
          exact absurd (Option.some.inj hwindow).symm hne
      · intro d hd
        cases hd

theorem Task.At.recreate {s : Task C} {stage : Stage C} (hs : s.At stage)
    {client : C} (hclient : ¬ (s.client client).InWindow)
    (hinit : s.mState = .TASK_STATE_INIT) :
    ∃ next, (s.create.setClient client .idle).At next := by
  obtain ⟨n, rfl⟩ := hs.eq_init hinit
  exact ⟨.alive n none, hs.create.setClient hclient not_false⟩

/-- A step that meets its condition leads from stage to stage. -/
theorem Task.step_at (s : Task C) (action : TaskStep C) (t : Task C)
    (hs : ∃ stage, s.At stage) (hguard : s.Guarded action)
    (hstep : s.step action = some t) : ∃ stage, t.At stage := by
  obtain ⟨stage, hs⟩ := hs
  cases Task.step_move hstep with
  | start client hidle => exact hs.start hidle
  | stop client hidle => exact hs.stop (by rw [hidle]; exact not_false) hguard
  | innerStop client hrestarting =>
      exact hs.stop (by rw [hrestarting]; exact not_false) hguard
  | readId client inner hjoining => exact ⟨stage, hs.readId hjoining⟩
  | joinReturn client inner target t hjoin hreturn =>
      exact hs.joinReturn hjoin hreturn
  | stopJoined client inner hjoined => exact hs.stopJoined hjoined
  | recreate client hrecreating =>
      exact hs.recreate (by rw [hrecreating]; exact not_false) hguard
  | runReturns w hw => exact ⟨stage, hs.runReturns hw⟩
  | setStopped w hw => exact hs.setStopped hw
  | exit w hw => exact ⟨stage, hs.exit hw⟩

/-- In every run of any number of clients and of the workers whose steps all
meet their condition, every state reached is safe. -/
theorem task_lifecycle (steps : List (TaskStep C)) (s : Task C)
    (hguard : LabelledRun.EachStep Task.step Task.Guarded Task.init steps)
    (hrun : LabelledRun.run Task.step Task.init steps = some s) : s.Safe := by
  obtain ⟨stage, hs⟩ := LabelledRun.run_invariant_of_eachStep Task.step_at
    ⟨.init 0, Task.init_at⟩ hguard hrun
  exact hs.safe

/-- One client starts the task, and again when the worker is done; the other one
calls `start` meanwhile, and stops the task while the first calls `start`. -/
def restarted : List (TaskStep Nat) :=
  [.start 0, .start 1, .runReturns 0, .setStopped 0, .start 0, .innerStop 0,
    .start 1, .readId 0, .exit 0, .joinReturn 0, .stopJoined 0, .recreate 0,
    .stop 1, .start 0, .readId 1, .runReturns 1, .setStopped 1, .exit 1,
    .joinReturn 1, .stopJoined 1]

open LabelledRun in
theorem task_lifecycle_restarted :
    ∃ s, LabelledRun.run Task.step Task.init restarted = some s ∧
      s.created = 2 ∧ s.joins 0 = 1 ∧ s.joins 1 = 1 ∧ s.Safe := by
  refine ⟨_, rfl, rfl, rfl, rfl, task_lifecycle restarted _ ?_ rfl⟩
  refine eachStep_cons rfl trivial <| eachStep_cons rfl trivial <|
    eachStep_cons rfl trivial <| eachStep_cons rfl trivial <|
    eachStep_cons rfl trivial <| eachStep_cons rfl ?_ <|
    eachStep_cons rfl trivial <| eachStep_cons rfl trivial <|
    eachStep_cons rfl trivial <| eachStep_cons rfl trivial <|
    eachStep_cons rfl trivial <| eachStep_cons rfl rfl <|
    eachStep_cons rfl (fun hstopped => by cases hstopped) <|
    eachStep_cons rfl trivial <| eachStep_cons rfl trivial <|
    eachStep_cons rfl trivial <| eachStep_cons rfl trivial <|
    eachStep_cons rfl trivial <| eachStep_cons rfl trivial <|
    eachStep_cons rfl trivial trivial
  -- the other client is outside of `stop` when the inner one finds STOPPED
  intro _ d hd hwindow
  have hidle : Function.update (fun _ => ClientPc.idle) 0 .restarting d =
      .idle := Function.update_of_ne hd _ _
  change (Function.update (fun _ => ClientPc.idle) 0 .restarting d).InWindow
    at hwindow
  rw [hidle] at hwindow
  exact hwindow

/-- Two clients stop the task while its worker comes to its end. -/
def stoppedTwice : List (TaskStep Nat) :=
  [.start 0, .stop 0, .readId 0, .runReturns 0, .setStopped 0, .stop 1,
    .readId 1, .exit 0, .joinReturn 0, .joinReturn 1]

/-- The worker is joined twice. -/
theorem stoppedTwice_not_safe :
    ∃ s, LabelledRun.run Task.step Task.init stoppedTwice = some s ∧
      ¬ s.Safe := by
  refine ⟨_, rfl, fun hsafe => ?_⟩
  exact absurd (hsafe.joins_le 0) (by decide)

end MyDirectFB

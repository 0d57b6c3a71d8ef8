/-
The commands of the event loop.  A pass of `EventLoop::loop` reads one byte of
its pipe at most, and comes to the watchers only when it has read none.  So the
loop ends with the first `terminate` it reads, it makes a pass for every byte
that is in front of it, and it comes to no watcher in the meantime.
-/
import MyDirectFB.EventLoopPass

namespace MyDirectFB

universe u v

theorem le_lastFd (pipeFd : Int) (fds : List Int) : pipeFd ≤ lastFd pipeFd fds := by
  unfold lastFd
  induction fds generalizing pipeFd with
  | nil => exact Int.le_refl pipeFd
  | cons fd rest ih =>
      rw [List.foldl_cons]
      split
      · next hlater => exact Int.le_trans (Int.le_of_lt hlater) (ih fd)
      · exact ih pipeFd

/-- The descriptor of the pipe is always among those that `select` looks at. -/
theorem watches_pipe (pipeFd : Int) (fds : List Int) :
    SelectSet.Watches ⟨pipeFd :: fds, lastFd pipeFd fds + 1⟩ pipeFd :=
  ⟨List.mem_cons_self, Int.lt_add_one_of_le (le_lastFd pipeFd fds)⟩

/-- The set of a pass that has not come back from `select`. -/
def PassPc.set? : PassPc → Option SelectSet
  | .draining set => some set
  | .selecting set _ _ => some set
  | _ => none

/-- One for a pass that has been begun, and has neither read a command nor come
to the watchers. -/
def PassPc.opens : PassPc → Nat
  | .draining _ | .selecting _ _ _ | .selected _ => 1
  | .between | .dispatching _ | .ended => 0

/-- One for a step that ends a pass in vain: a signal, or a read that fails. -/
def LoopAction.interrupts {I : Type u} {L : Type v} : LoopAction I L → Nat
  | .select .interrupted => 1
  | .readCommand false => 1
  | _ => 0

def DispatchStep.changesList {L : Type v} : DispatchStep L → Bool
  | .add _ | .remove _ => true
  | _ => false

namespace LoopThread

variable {I : Type u} {L : Type v}

@[simp] theorem pc_write (s : LoopThread I L) (bytes : List Char) :
    (s.write bytes).pc = s.pc := rfl

@[simp] theorem mPipe_write (s : LoopThread I L) (bytes : List Char) :
    (s.write bytes).mPipe = s.mPipe.send bytes := rfl

@[simp] theorem passes_write (s : LoopThread I L) (bytes : List Char) :
    (s.write bytes).passes = s.passes := rfl

@[simp] theorem served_write (s : LoopThread I L) (bytes : List Char) :
    (s.write bytes).served = s.served := rfl

@[simp] theorem watchers_write (s : LoopThread I L) (bytes : List Char) :
    (s.write bytes).watchers = s.watchers := rfl

theorem afterCommand_eq_between {cCmd : Char} (hcmd : cCmd ≠ 'T') :
    afterCommand cCmd = .between := by
  unfold afterCommand
  split
  · next heq => exact absurd rfl hcmd
  · rfl
  · rfl

theorem opens_afterCommand (cCmd : Char) : (afterCommand cCmd).opens = 0 := by
  unfold afterCommand
  split <;> rfl

theorem opens_next (outcome : SelectOutcome) :
    (SelectOutcome.next outcome).opens ≤ 1 := by
  cases outcome <;> simp [SelectOutcome.next, PassPc.opens]

/-! ### Every pass reads a command or comes to the watchers -/

/-- The passes pay for the commands that have been read, for the passes that
have come to the watchers, and for the one that is under way.  Every set that is
waited for has the pipe in it. -/
structure Inv (pipeFd : Int) (s : LoopThread I L) : Prop where
  passes : s.mPipe.taken.length + s.served + s.pc.opens ≤ s.passes
  watches : ∀ set, s.pc.set? = some set → set.Watches pipeFd

theorem init_inv (pipeFd : Int) (timers : EventLoop I) (watchers : NodeList L) :
    (init timers watchers).Inv pipeFd where
  passes := Nat.le_refl 0
  watches _ hset := nomatch hset

/-- What leaves the thread where it is, and what it has read. -/
theorem Inv.frame {pipeFd : Int} {s t : LoopThread I L} (hs : s.Inv pipeFd)
    (hpc : t.pc = s.pc) (htaken : t.mPipe.taken = s.mPipe.taken)
    (hpasses : t.passes = s.passes) (hserved : t.served = s.served) :
    t.Inv pipeFd where
  passes := by rw [hpc, htaken, hpasses, hserved]; exact hs.passes
  watches := by rw [hpc]; exact hs.watches

variable [DecidableEq I] [DecidableEq L]

theorem step_inv {pipeFd : Int} {s t : LoopThread I L} {action : LoopAction I L}
    (hs : s.Inv pipeFd) (hstep : s.step pipeFd action = some t) :
    t.Inv pipeFd := by
  have hpasses := hs.passes
  cases step_move hstep with
  | enter fds hpc hfd =>
      simp only [hpc, PassPc.opens] at hpasses
      refine ⟨?_, ?_⟩
      · change s.mPipe.taken.length + s.served + 1 ≤ s.passes + 1
        omega
      · intro set hset
        obtain rfl := Option.some.inj hset
        exact watches_pipe pipeFd fds
  | noFd fds hpc hfd =>
      refine ⟨?_, fun set hset => nomatch hset⟩
      change s.mPipe.taken.length + s.served + 0 ≤ s.passes + 1
      omega
  | drain now handler set hpc hzero =>
      exact hs.frame hpc.symm rfl rfl rfl
  | drained now handler set hpc hwait =>
      simp only [hpc, PassPc.opens] at hpasses
      refine ⟨hpasses, fun other hset => ?_⟩
      exact hs.watches other (by rw [hpc]; exact hset)
  | select outcome set now timeToWait hpc hadmits =>
      simp only [hpc, PassPc.opens] at hpasses
      refine ⟨?_, fun other hset => ?_⟩
      · exact Nat.le_trans (Nat.add_le_add_left (opens_next outcome) _) hpasses
      · cases outcome <;> cases hset
  | readCommand ready cCmd mPipe hpc hready htake =>
      obtain ⟨-, -, htaken⟩ := Channel.of_take? htake
      simp only [hpc, PassPc.opens] at hpasses
      refine ⟨?_, fun set hset => ?_⟩
      · change mPipe.taken.length + s.served + (afterCommand cCmd).opens ≤ s.passes
        rw [htaken, opens_afterCommand, List.length_append, List.length_singleton]
        omega
      · change (afterCommand cCmd).set? = some set at hset
        unfold afterCommand at hset
        split at hset <;> cases hset
  | readFailed ready hpc hready =>
      refine ⟨?_, fun set hset => nomatch hset⟩
      change s.mPipe.taken.length + s.served + 0 ≤ s.passes
      omega
  | lockWatchers ready watchers hpc hready hbegin =>
      simp only [hpc, PassPc.opens] at hpasses
      refine ⟨?_, fun set hset => nomatch hset⟩
      change s.mPipe.taken.length + (s.served + 1) + 0 ≤ s.passes
      omega
  | visit fd ready watchers hpc hvisit => exact hs.frame rfl rfl rfl rfl
  | unlockWatchers ready watchers hpc hfinish =>
      refine ⟨?_, fun set hset => nomatch hset⟩
      change s.mPipe.taken.length + s.served + 0 ≤ s.passes
      omega
  | returns result watchers hreturns => exact hs.frame rfl rfl rfl rfl
  | addFdWatcher watcher watchers hadd => exact hs.frame rfl rfl rfl rfl
  | removeFdWatcher watcher watchers hremove => exact hs.frame rfl rfl rfl rfl
  | timerCall call => exact hs.frame rfl rfl rfl rfl
  | sendWakeup hunsent => exact hs.frame rfl rfl rfl rfl
  | wakeup => exact hs.frame rfl rfl rfl rfl
  | terminate => exact hs.frame rfl rfl rfl rfl

/-- The commands that are left in the pipe grow with those that are sent: a pass
takes one out at most, and none when it comes to the watchers. -/
theorem backlog_grows {pipeFd : Int} {timers : EventLoop I} {watchers : NodeList L}
    {actions : List (LoopAction I L)} {s : LoopThread I L}
    (hrun : LabelledRun.run (step pipeFd) (init timers watchers) actions = some s) :
    s.mPipe.sent.length + s.served ≤ s.passes + s.mPipe.queue.length := by
  have hs := LabelledRun.run_invariant (P := Inv pipeFd)
    (fun _ _ _ hinv hstep => step_inv hinv hstep)
    (init_inv pipeFd timers watchers) hrun
  have hpasses := hs.passes
  have hsent := s.mPipe.length_sent
  omega

/-- Two wake-ups in one pass, of which the pass reads one. -/
def wokenTwice : List (LoopAction Nat Nat) :=
  [.wakeup, .wakeup, .enter [], .runTimers 0 [], .select (.ready [3]),
    .readCommand true]

theorem wokenTwice_backlog :
    ∃ s, LabelledRun.run (step 3)
        (init (EventLoop.init (fun _ => true) fun _ => 0) NodeList.empty)
        wokenTwice = some s ∧
      s.mPipe.queue = ['S'] ∧
      s.mPipe.sent.length + s.served ≤ s.passes + s.mPipe.queue.length :=
  ⟨_, rfl, rfl, @backlog_grows Nat Nat _ _ 3
    (EventLoop.init (fun _ => true) fun _ => 0) NodeList.empty wokenTwice _ rfl⟩

/-! ### A program that keeps its own loop busy -/

/-- As many commands as passes have been sent when a pass comes to its
`select`. -/
def CommandEachPass (s : LoopThread I L) : LoopAction I L → Prop
  | .select _ => s.passes ≤ s.mPipe.sent.length
  | _ => True

instance (s : LoopThread I L) (action : LoopAction I L) :
    Decidable (s.CommandEachPass action) := by
  cases action <;> unfold CommandEachPass <;> infer_instance

/-- No pass has come to a watcher. -/
structure Starved (pipeFd : Int) (s : LoopThread I L) : Prop where
  inv : s.Inv pipeFd
  selected : ∀ ready, s.pc = .selected ready → pipeFd ∈ ready
  away : ∀ ready, s.pc ≠ .dispatching ready
  served : s.served = 0
  outside : s.watchers.pc = .outside
  called : s.watchers.called = []

omit [DecidableEq I] [DecidableEq L] in
/-- The commands that have been sent are more than those that have been read. -/
theorem Starved.not_empty {pipeFd : Int} {s : LoopThread I L}
    (hs : s.Starved pipeFd) {set : SelectSet} {now : UInt64} {timeToWait : Int}
    (hpc : s.pc = .selecting set now timeToWait)
    (hsent : s.passes ≤ s.mPipe.sent.length) : s.mPipe.queue ≠ [] := by
  have hpasses := hs.inv.passes
  simp only [hpc, PassPc.opens] at hpasses
  rw [s.mPipe.length_sent] at hsent
  apply List.ne_nil_of_length_pos
  omega

/-- A step after which the thread is not on its way to the watchers. -/
theorem Starved.goesOn {pipeFd : Int} {s t : LoopThread I L}
    {action : LoopAction I L} (hs : s.Starved pipeFd)
    (hstep : s.step pipeFd action = some t)
    (hselected : ∀ ready, t.pc = .selected ready → pipeFd ∈ ready)
    (haway : ∀ ready, t.pc ≠ .dispatching ready)
    (hserved : t.served = s.served) (hwatchers : t.watchers = s.watchers) :
    t.Starved pipeFd where
  inv := step_inv hs.inv hstep
  selected := hselected
  away := haway
  served := hserved.trans hs.served
  outside := by rw [hwatchers]; exact hs.outside
  called := by rw [hwatchers]; exact hs.called

/-- The list of the watchers changes while there is no loop over it. -/
theorem Starved.changed {pipeFd : Int} {s : LoopThread I L}
    {action : LoopAction I L} {change : DispatchStep L}
    {watchers : DispatchLoop L} (hs : s.Starved pipeFd)
    (hchange : s.watchers.step .mFdWatchers change = some watchers)
    (hadds : change.changesList = true)
    (hstep : s.step pipeFd action = some { s with watchers := watchers }) :
    Starved pipeFd { s with watchers := watchers } := by
  refine ⟨step_inv hs.inv hstep, hs.selected, hs.away, hs.served, ?_, ?_⟩
  all_goals cases DispatchLoop.step_move hchange with
  | add | remove => first | exact hs.outside | exact hs.called
  | begin | visit | finish | ends | goesOn | dangles => cases hadds

theorem step_starved {pipeFd : Int} {s t : LoopThread I L}
    {action : LoopAction I L} (hs : s.Starved pipeFd)
    (hguard : s.CommandEachPass action)
    (hstep : s.step pipeFd action = some t) : t.Starved pipeFd := by
  have hstay (t : LoopThread I L) (hstep : s.step pipeFd action = some t)
      (hpc : t.pc = s.pc) (hserved : t.served = s.served)
      (hwatchers : t.watchers = s.watchers) : t.Starved pipeFd :=
    hs.goesOn hstep (by rw [hpc]; exact hs.selected)
      (by rw [hpc]; exact hs.away) hserved hwatchers
  cases step_move hstep with
  | enter fds hpc hlast => exact hs.goesOn hstep (by simp) (by simp) rfl rfl
  | noFd fds hpc hlast => exact hs.goesOn hstep (by simp) (by simp) rfl rfl
  | drain now handler set hpc hzero => exact hstay _ hstep hpc.symm rfl rfl
  | drained now handler set hpc hwait =>
      exact hs.goesOn hstep (by simp) (by simp) rfl rfl
  | select outcome set now timeToWait hpc hadmits =>
      have hnonempty := hs.not_empty hpc hguard
      have hwatches := hs.inv.watches set (by rw [hpc, PassPc.set?])
      refine hs.goesOn hstep (fun ready hready => ?_) (fun ready hready => ?_) rfl rfl
      · cases outcome <;> cases hready
        exact (hadmits.2.2 hwatches).mpr hnonempty
      · cases outcome <;> cases hready
  | readCommand ready cCmd mPipe hpc hready htake =>
      refine hs.goesOn hstep (fun ready hnext => ?_) (fun ready hnext => ?_) rfl rfl
      all_goals
        change afterCommand cCmd = _ at hnext
        unfold afterCommand at hnext
        split at hnext <;> cases hnext
  | readFailed ready hpc hready =>
      exact hs.goesOn hstep (by simp) (by simp) rfl rfl
  | lockWatchers ready watchers hpc hready hbegin =>
      exact absurd (hs.selected ready hpc) hready
  | visit fd ready watchers hpc hvisit => exact absurd hpc (hs.away ready)
  | unlockWatchers ready watchers hpc hfinish => exact absurd hpc (hs.away ready)
  | returns result watchers hreturns =>
      simp [DispatchLoop.step, hs.outside] at hreturns
  | addFdWatcher watcher watchers hadd =>
      exact hs.changed hadd rfl hstep
  | removeFdWatcher watcher watchers hremove =>
      exact hs.changed hremove rfl hstep
  | timerCall call => exact hstay _ hstep rfl rfl rfl
  | sendWakeup hunsent => exact hstay _ hstep rfl rfl rfl
  | wakeup => exact hstay _ hstep rfl rfl rfl
  | terminate => exact hstay _ hstep rfl rfl rfl

/-- Where at least one command is sent for each pass, no watcher is ever called. -/
theorem watchers_starved {pipeFd : Int} {timers : EventLoop I}
    {watchers : NodeList L} {actions : List (LoopAction I L)} {s : LoopThread I L}
    (hguard : LabelledRun.EachStep (step pipeFd) CommandEachPass
      (init timers watchers) actions)
    (hrun : LabelledRun.run (step pipeFd) (init timers watchers) actions = some s) :
    s.served = 0 ∧ s.watchers.called = [] := by
  have hs := LabelledRun.run_invariant_of_eachStep (P := Starved pipeFd)
    (fun _ _ _ hs hcommand hstep => step_starved hs hcommand hstep)
    ⟨init_inv pipeFd timers watchers, fun _ hpc => (nomatch hpc),
      fun _ hpc => (nomatch hpc), rfl, rfl, rfl⟩ hguard hrun
  exact ⟨hs.served, hs.called⟩

/-- A watcher that stays ready, and a timer handler that stops another timer in
the pass. -/
def stoppedInPass : List (LoopAction Nat Nat) :=
  [.timerCall (.start 0 5 true 0), .sendWakeup,
    .enter [5], .runTimers 5 [.stop 1], .select (.ready [3, 5]), .readCommand true,
    .enter [5], .runTimers 10 [.stop 1], .select (.ready [3, 5]), .readCommand true]

theorem stoppedInPass_starved :
    ∃ s, LabelledRun.run (step 3)
        (init (EventLoop.init (fun _ => true) fun _ => 0)
          (NodeList.empty.pushBack 7)) stoppedInPass = some s ∧
      s.passes = 2 ∧ s.served = 0 ∧ s.watchers.called = [] := by
  refine ⟨_, rfl, rfl, @watchers_starved Nat Nat _ _ 3
    (EventLoop.init (fun _ => true) fun _ => 0) (NodeList.empty.pushBack 7)
    stoppedInPass _ ?_ rfl⟩
  decide

/-! ### When the loop ends -/

/-- The loop is over exactly when it has read a `terminate`, and it has read
nothing since. -/
def EndsWithTerminate (s : LoopThread I L) : Prop :=
  (s.pc = .ended ∧ ∃ front, s.mPipe.taken = front ++ ['T'] ∧ 'T' ∉ front) ∨
    (s.pc ≠ .ended ∧ 'T' ∉ s.mPipe.taken)

omit [DecidableEq I] [DecidableEq L] in
theorem EndsWithTerminate.not_mem {s : LoopThread I L}
    (hs : s.EndsWithTerminate) (hpc : s.pc ≠ .ended) : 'T' ∉ s.mPipe.taken := by
  rcases hs with ⟨hended, -⟩ | ⟨-, hnot⟩
  · exact absurd hended hpc
  · exact hnot

omit [DecidableEq I] [DecidableEq L] in
theorem EndsWithTerminate.frame {s t : LoopThread I L}
    (hs : s.EndsWithTerminate) (hpc : t.pc = s.pc)
    (htaken : t.mPipe.taken = s.mPipe.taken) : t.EndsWithTerminate := by
  unfold EndsWithTerminate
  rw [hpc, htaken]
  exact hs

omit [DecidableEq I] [DecidableEq L] in
/-- Nothing is read, and the loop goes on. -/
theorem EndsWithTerminate.goesOn {s t : LoopThread I L}
    (hs : s.EndsWithTerminate) (hpc : s.pc ≠ .ended) (hnext : t.pc ≠ .ended)
    (htaken : t.mPipe.taken = s.mPipe.taken) : t.EndsWithTerminate :=
  .inr ⟨hnext, by rw [htaken]; exact hs.not_mem hpc⟩

omit [DecidableEq I] [DecidableEq L] in
theorem EndsWithTerminate.readCommand {s : LoopThread I L}
    (hs : s.EndsWithTerminate) (hpc : s.pc ≠ .ended) {cCmd : Char}
    {mPipe : Channel Char} (htake : s.mPipe.take? = some (cCmd, mPipe)) :
    EndsWithTerminate { s with mPipe := mPipe, pc := afterCommand cCmd } := by
  obtain ⟨-, -, htaken⟩ := Channel.of_take? htake
  have hnot := hs.not_mem hpc
  by_cases hcmd : cCmd = 'T'
  · subst hcmd
    exact .inl ⟨rfl, _, htaken, hnot⟩
  · refine .inr ⟨by simp [afterCommand_eq_between hcmd], ?_⟩
    change 'T' ∉ mPipe.taken
    rw [htaken, List.mem_append, List.mem_singleton]
    rintro (hmem | heq)
    · exact hnot hmem
    · exact hcmd heq.symm

theorem step_endsWithTerminate {pipeFd : Int} (hfd : 0 ≤ pipeFd)
    {s t : LoopThread I L} {action : LoopAction I L}
    (hs : s.EndsWithTerminate) (hselect : action ≠ .select .failed)
    (hstep : s.step pipeFd action = some t) : t.EndsWithTerminate := by
  cases step_move hstep with
  | enter fds hpc hlast => exact hs.goesOn (by simp [hpc]) (by simp) rfl
  | noFd fds hpc hlast =>
      exact absurd (Int.le_trans hfd (le_lastFd pipeFd fds)) (Int.not_le.mpr hlast)
  | drain now handler set hpc hzero => exact hs.goesOn (by simp [hpc]) (by simp) rfl
  | drained now handler set hpc hwait => exact hs.goesOn (by simp [hpc]) (by simp) rfl
  | select outcome set now timeToWait hpc hadmits =>
      refine hs.goesOn (by simp [hpc]) ?_ rfl
      cases outcome with
      | failed => exact absurd rfl hselect
      | _ => simp [SelectOutcome.next]
  | readCommand ready cCmd mPipe hpc hready htake =>
      exact hs.readCommand (by simp [hpc]) htake
  | readFailed ready hpc hready => exact hs.goesOn (by simp [hpc]) (by simp) rfl
  | lockWatchers ready watchers hpc hready hbegin =>
      exact hs.goesOn (by simp [hpc]) (by simp) rfl
  | visit fd ready watchers hpc hvisit => exact hs.frame rfl rfl
  | unlockWatchers ready watchers hpc hfinish =>
      exact hs.goesOn (by simp [hpc]) (by simp) rfl
  | returns result watchers hreturns => exact hs.frame rfl rfl
  | addFdWatcher watcher watchers hadd => exact hs.frame rfl rfl
  | removeFdWatcher watcher watchers hremove => exact hs.frame rfl rfl
  | timerCall call => exact hs.frame rfl rfl
  | sendWakeup hunsent => exact hs.frame rfl rfl
  | wakeup => exact hs.frame rfl rfl
  | terminate => exact hs.frame rfl rfl

/-- As long as no `select` fails, the loop of `main` ends exactly when it has read
a `terminate`, whatever the timers, the watchers and the other threads do. -/
theorem main_endsWithTerminate {pipeFd : Int} (hfd : 0 ≤ pipeFd)
    (timers : EventLoop I) (watchers : NodeList L)
    {actions : List (LoopAction I L)} {s : LoopThread I L}
    (hselect : LoopAction.select .failed ∉ actions)
    (hrun : LabelledRun.run (step pipeFd) (init timers watchers) actions = some s) :
    s.EndsWithTerminate := by
  have hguard : LabelledRun.EachStep (step pipeFd)
      (fun _ action => action ≠ LoopAction.select .failed)
      (init timers watchers) actions :=
    LabelledRun.eachStep_of_forall fun action haction heq =>
      hselect (heq ▸ haction)
  refine LabelledRun.run_invariant_of_eachStep (P := EndsWithTerminate)
    (fun _ _ _ hs hne hstep => step_endsWithTerminate hfd hs hne hstep)
    (.inr ⟨by simp [init], List.not_mem_nil⟩) hguard hrun

/-- A wake-up that is read before the `terminate` behind it. -/
def wokenAndTerminated : List (LoopAction Nat Nat) :=
  [.wakeup, .terminate, .enter [], .runTimers 0 [], .select (.ready [3]),
    .readCommand true, .enter [], .runTimers 0 [], .select (.ready [3]),
    .readCommand true]

theorem wokenAndTerminated_ends :
    ∃ s, LabelledRun.run (step 3)
        (init (EventLoop.init (fun _ => true) fun _ => 0) NodeList.empty)
        wokenAndTerminated = some s ∧
      s.mPipe.taken = ['S', 'T'] ∧ s.EndsWithTerminate :=
  ⟨_, rfl, rfl, @main_endsWithTerminate Nat Nat _ _ 3 (by decide)
    (EventLoop.init (fun _ => true) fun _ => 0) NodeList.empty
    wokenAndTerminated _ (by decide) rfl⟩

/-! ### How long a terminate takes -/

/-- The loop has not been told that its pipe is empty in this pass. -/
def OnWay (pipeFd : Int) : PassPc → Prop
  | .between | .draining _ | .selecting _ _ _ | .dispatching _ => True
  | .selected ready => pipeFd ∈ ready
  | .ended => False

/-- One for a pass whose `select` has returned without the pipe, and that has yet to
come to the watchers. -/
def pastPipe (pipeFd : Int) : PassPc → Nat
  | .selected ready => if pipeFd ∈ ready then 0 else 1
  | _ => 0

theorem onWay_cases (pipeFd : Int) (pc : PassPc) :
    (OnWay pipeFd pc ∧ pastPipe pipeFd pc = 0) ∨ pc = .ended ∨
      ∃ ready, pc = .selected ready ∧ pipeFd ∉ ready := by
  cases pc with
  | selected ready =>
      by_cases hready : pipeFd ∈ ready
      · exact .inl ⟨hready, if_pos hready⟩
      · exact .inr (.inr ⟨ready, rfl, hready⟩)
  | ended => exact .inr (.inl rfl)
  | _ => exact .inl ⟨trivial, rfl⟩

/-- A `terminate` is in the pipe, behind `ahead` other commands. -/
structure Requested (pipeFd : Int) (s : LoopThread I L) (ahead : Nat) : Prop where
  onWay : OnWay pipeFd s.pc
  watches : ∀ set, s.pc.set? = some set → set.Watches pipeFd
  queue : ∃ front rest, s.mPipe.queue = front ++ 'T' :: rest ∧ 'T' ∉ front ∧
    front.length = ahead

def interruptions (actions : List (LoopAction I L)) : Nat :=
  (actions.map LoopAction.interrupts).sum

/-- A step of a loop that has been asked to end: it comes to no watcher, and it
has ended, or the commands ahead of the `terminate` still pay for the passes. -/
structure Approaches (pipeFd : Int) (s t : LoopThread I L) (ahead : Nat)
    (interrupts : Nat) : Prop where
  served : t.served = s.served
  passes :
    (t.pc = .ended ∧ t.passes + s.pc.opens ≤ s.passes + ahead + 1 + interrupts) ∨
      ∃ left, t.Requested pipeFd left ∧
        t.passes + left + s.pc.opens ≤
          s.passes + ahead + interrupts + t.pc.opens

omit [DecidableEq I] [DecidableEq L] in
theorem Requested.not_empty {pipeFd : Int} {s : LoopThread I L} {ahead : Nat}
    (hs : s.Requested pipeFd ahead) : s.mPipe.queue ≠ [] := by
  obtain ⟨front, rest, hqueue, -, -⟩ := hs.queue
  rw [hqueue]
  exact List.append_ne_nil_of_right_ne_nil _ (List.cons_ne_nil _ _)

omit [DecidableEq I] [DecidableEq L] in
/-- The pass goes on, and no command has been read. -/
theorem Requested.goesOn {pipeFd : Int} {s t : LoopThread I L} {ahead : Nat}
    (hs : s.Requested pipeFd ahead) {interrupts : Nat}
    (honWay : OnWay pipeFd t.pc)
    (hwatches : ∀ set, t.pc.set? = some set → set.Watches pipeFd)
    (hqueue : ∃ bytes, t.mPipe.queue = s.mPipe.queue ++ bytes)
    (hserved : t.served = s.served)
    (hpasses : t.passes + s.pc.opens ≤ s.passes + interrupts + t.pc.opens) :
    Approaches pipeFd s t ahead interrupts := by
  obtain ⟨front, rest, hfront, hnot, hlength⟩ := hs.queue
  obtain ⟨bytes, hbytes⟩ := hqueue
  refine ⟨hserved, .inr ⟨ahead, ⟨honWay, hwatches, ?_⟩, by omega⟩⟩
  exact ⟨front, rest ++ bytes, by simp [hbytes, hfront], hnot, hlength⟩

omit [DecidableEq I] [DecidableEq L] in
/-- The loop's thread stays where it is. -/
theorem Requested.frame {pipeFd : Int} {s t : LoopThread I L} {ahead : Nat}
    (hs : s.Requested pipeFd ahead) (hpc : t.pc = s.pc)
    (hqueue : ∃ bytes, t.mPipe.queue = s.mPipe.queue ++ bytes)
    (hserved : t.served = s.served) (hpasses : t.passes = s.passes) :
    Approaches pipeFd s t ahead 0 := by
  refine hs.goesOn ?_ ?_ hqueue hserved ?_
  · rw [hpc]
    exact hs.onWay
  · rw [hpc]
    exact hs.watches
  · rw [hpc, hpasses]
    omega

omit [DecidableEq I] [DecidableEq L] in
theorem Requested.select {pipeFd : Int} {s : LoopThread I L} {ahead : Nat}
    (hs : s.Requested pipeFd ahead) {set : SelectSet} {now : UInt64}
    {timeToWait : Int} (hpc : s.pc = .selecting set now timeToWait)
    {outcome : SelectOutcome} (hadmits : Admits pipeFd set s.mPipe outcome) :
    Approaches pipeFd s { s with pc := SelectOutcome.next outcome } ahead
      (LoopAction.interrupts (I := I) (L := L) (.select outcome)) := by
  have hwatches := hs.watches set (by rw [hpc, PassPc.set?])
  have hsame : ∃ bytes, s.mPipe.queue = s.mPipe.queue ++ bytes :=
    ⟨[], (List.append_nil _).symm⟩
  have hopens : s.pc.opens = 1 := by rw [hpc, PassPc.opens]
  cases outcome with
  | timeout => exact absurd ⟨hwatches, hs.not_empty⟩ hadmits
  | interrupted =>
      refine hs.goesOn trivial (fun set hset => nomatch hset) hsame rfl ?_
      simp [hopens, LoopAction.interrupts]
  | failed =>
      refine ⟨rfl, .inl ⟨rfl, ?_⟩⟩
      change s.passes + s.pc.opens ≤ s.passes + ahead + 1 + 0
      omega
  | ready fds =>
      have hready : pipeFd ∈ fds := (hadmits.2.2 hwatches).mpr hs.not_empty
      refine hs.goesOn hready (fun set hset => nomatch hset) hsame rfl ?_
      change s.passes + s.pc.opens ≤ s.passes + 0 + 1
      omega

omit [DecidableEq I] [DecidableEq L] in
/-- The next command is read: one that is ahead of the `terminate`, or the
`terminate`. -/
theorem Requested.readCommand {pipeFd : Int} {s : LoopThread I L} {ahead : Nat}
    (hs : s.Requested pipeFd ahead) {ready : List Int}
    (hpc : s.pc = .selected ready) {cCmd : Char} {mPipe : Channel Char}
    (htake : s.mPipe.take? = some (cCmd, mPipe)) :
    Approaches pipeFd s { s with mPipe := mPipe, pc := afterCommand cCmd }
      ahead 0 := by
  have hopens : s.pc.opens = 1 := by rw [hpc, PassPc.opens]
  obtain ⟨hqueue, -, -⟩ := Channel.of_take? htake
  obtain ⟨front, rest, hfront, hnot, hlength⟩ := hs.queue
  rw [hqueue] at hfront
  cases front with
  | nil =>
      obtain ⟨rfl, -⟩ := List.cons.inj hfront
      refine ⟨rfl, .inl ⟨rfl, ?_⟩⟩
      change s.passes + s.pc.opens ≤ s.passes + ahead + 1 + 0
      omega
  | cons first later =>
      obtain ⟨rfl, htail⟩ := List.cons.inj hfront
      rw [List.mem_cons, not_or] at hnot
      rw [afterCommand_eq_between (Ne.symm hnot.1)]
      refine ⟨rfl, .inr ⟨later.length, ⟨trivial, fun _ hset => (nomatch hset),
        later, rest, htail, hnot.2, rfl⟩, ?_⟩⟩
      rw [List.length_cons] at hlength
      change s.passes + later.length + s.pc.opens ≤ s.passes + ahead + 0 + 0
      omega

theorem step_approaches {pipeFd : Int} (hfd : 0 ≤ pipeFd) {s t : LoopThread I L}
    {action : LoopAction I L} {ahead : Nat} (hs : s.Requested pipeFd ahead)
    (hstep : s.step pipeFd action = some t) :
    Approaches pipeFd s t ahead action.interrupts := by
  have hsame : ∃ bytes, s.mPipe.queue = s.mPipe.queue ++ bytes :=
    ⟨[], (List.append_nil _).symm⟩
  have honWay := hs.onWay
  cases step_move hstep with
  | enter fds hpc hlast =>
      refine hs.goesOn trivial (fun set hset => ?_) hsame rfl ?_
      · obtain rfl := Option.some.inj hset
        exact watches_pipe pipeFd fds
      · simp [hpc, PassPc.opens, LoopAction.interrupts]
  | noFd fds hpc hlast =>
      exact absurd (Int.le_trans hfd (le_lastFd pipeFd fds)) (Int.not_le.mpr hlast)
  | drain now handler set hpc hzero =>
      exact hs.frame hpc.symm ⟨_, rfl⟩ rfl rfl
  | drained now handler set hpc hwait =>
      refine hs.goesOn trivial (fun other hset => ?_) ⟨_, rfl⟩ rfl ?_
      · exact hs.watches other (by rw [hpc]; exact hset)
      · simp [hpc, PassPc.opens, LoopAction.interrupts]
  | select outcome set now timeToWait hpc hadmits => exact hs.select hpc hadmits
  | readCommand ready cCmd mPipe hpc hready htake => exact hs.readCommand hpc htake
  | readFailed ready hpc hready =>
      refine hs.goesOn trivial (fun set hset => by cases hset) hsame rfl ?_
      simp [hpc, PassPc.opens, LoopAction.interrupts]
  | lockWatchers ready watchers hpc hready hbegin =>
      rw [hpc] at honWay
      exact absurd honWay hready
  | visit fd ready watchers hpc hvisit => exact hs.frame rfl hsame rfl rfl
  | unlockWatchers ready watchers hpc hfinish =>
      refine hs.goesOn trivial (fun set hset => by cases hset) hsame rfl ?_
      simp [hpc, PassPc.opens]
  | returns result watchers hreturns => exact hs.frame rfl hsame rfl rfl
  | addFdWatcher watcher watchers hadd => exact hs.frame rfl hsame rfl rfl
  | removeFdWatcher watcher watchers hremove => exact hs.frame rfl hsame rfl rfl
  | timerCall call => exact hs.frame rfl hsame rfl rfl
  | sendWakeup hunsent => exact hs.frame rfl ⟨_, rfl⟩ rfl rfl
  | wakeup => exact hs.frame rfl ⟨_, rfl⟩ rfl rfl
  | terminate => exact hs.frame rfl ⟨_, rfl⟩ rfl rfl

/-- A loop that is over makes no further pass. -/
theorem step_ended {pipeFd : Int} {s t : LoopThread I L} {action : LoopAction I L}
    (hpc : s.pc = .ended) (hstep : s.step pipeFd action = some t) :
    t.pc = .ended ∧ t.passes = s.passes ∧ t.served = s.served := by
  cases step_move hstep with
  | enter _ hother | noFd _ hother | drain _ _ _ hother | drained _ _ _ hother
  | select _ _ _ _ hother | readCommand _ _ _ hother | readFailed _ hother
  | lockWatchers _ _ hother | visit _ _ _ hother | unlockWatchers _ _ hother =>
      rw [hpc] at hother
      cases hother
  | returns | addFdWatcher | removeFdWatcher | timerCall | sendWakeup | wakeup
  | terminate => exact ⟨hpc, rfl, rfl⟩

theorem run_ended {pipeFd : Int} {s t : LoopThread I L}
    {actions : List (LoopAction I L)} (hpc : s.pc = .ended)
    (hrun : LabelledRun.run (step pipeFd) s actions = some t) :
    t.passes = s.passes ∧ t.served = s.served := by
  have ht := LabelledRun.run_invariant
    (P := fun r : LoopThread I L =>
      r.pc = .ended ∧ r.passes = s.passes ∧ r.served = s.served)
    (fun r action r' hr hstep => by
      obtain ⟨hended, hpasses, hserved⟩ := hr
      obtain ⟨hended', hpasses', hserved'⟩ := step_ended hended hstep
      exact ⟨hended', hpasses'.trans hpasses, hserved'.trans hserved⟩)
    ⟨hpc, rfl, rfl⟩ hrun
  exact ht.2

theorem run_requested {pipeFd : Int} (hfd : 0 ≤ pipeFd) {s t : LoopThread I L}
    {actions : List (LoopAction I L)} {ahead : Nat}
    (hs : s.Requested pipeFd ahead)
    (hrun : LabelledRun.run (step pipeFd) s actions = some t) :
    t.served = s.served ∧
      t.passes + s.pc.opens ≤
        s.passes + ahead + 1 + interruptions actions := by
  induction actions generalizing s ahead with
  | nil =>
      obtain rfl := Option.some.inj hrun
      refine ⟨rfl, ?_⟩
      have hopens : s.pc.opens ≤ 1 := by cases s.pc <;> simp [PassPc.opens]
      omega
  | cons action rest ih =>
      obtain ⟨mid, hstep, hrest⟩ := LabelledRun.run_cons.mp hrun
      have happroach := step_approaches hfd hs hstep
      have hinterrupts : interruptions (action :: rest) =
          action.interrupts + interruptions rest := by simp [interruptions]
      rcases happroach.passes with ⟨hended, hpasses⟩ | ⟨left, hleft, hpasses⟩
      · obtain ⟨hpasses', hserved'⟩ := run_ended hended hrest
        exact ⟨hserved'.trans happroach.served, by omega⟩
      · obtain ⟨hserved', hpasses'⟩ := ih hleft hrest
        exact ⟨hserved'.trans happroach.served, by omega⟩

/-- A pass that has been told that the pipe is empty does not look at it again. -/
theorem step_pastPipe {pipeFd : Int} {s t : LoopThread I L}
    {action : LoopAction I L} {ready : List Int} (hpc : s.pc = .selected ready)
    (hready : pipeFd ∉ ready) (hstep : s.step pipeFd action = some t) :
    t.passes = s.passes ∧ (∃ bytes, t.mPipe.queue = s.mPipe.queue ++ bytes) ∧
      (t.pc = .selected ready ∧ t.served = s.served ∨
        t.pc = .dispatching ready ∧ t.served = s.served + 1) := by
  have hsame : ∃ bytes, s.mPipe.queue = s.mPipe.queue ++ bytes :=
    ⟨[], (List.append_nil _).symm⟩
  cases step_move hstep with
  | enter _ hother | noFd _ hother | drain _ _ _ hother | drained _ _ _ hother
  | select _ _ _ _ hother | visit _ _ _ hother | unlockWatchers _ _ hother =>
      rw [hpc] at hother
      cases hother
  | readCommand other cCmd mPipe hother hin htake =>
      rw [hpc] at hother
      cases hother
      exact absurd hin hready
  | readFailed other hother hin =>
      rw [hpc] at hother
      cases hother
      exact absurd hin hready
  | lockWatchers other watchers hother hin hbegin =>
      rw [hpc] at hother
      cases hother
      exact ⟨rfl, hsame, .inr ⟨rfl, rfl⟩⟩
  | returns | addFdWatcher | removeFdWatcher | timerCall =>
      exact ⟨rfl, hsame, .inl ⟨hpc, rfl⟩⟩
  | sendWakeup | wakeup | terminate => exact ⟨rfl, ⟨_, rfl⟩, .inl ⟨hpc, rfl⟩⟩

theorem run_pastPipe {pipeFd : Int} (hfd : 0 ≤ pipeFd) {s t : LoopThread I L}
    {actions : List (LoopAction I L)} {ready : List Int}
    (hpc : s.pc = .selected ready) (hready : pipeFd ∉ ready) {front rest : List Char}
    (hqueue : s.mPipe.queue = front ++ 'T' :: rest) (hfront : 'T' ∉ front)
    (hrun : LabelledRun.run (step pipeFd) s actions = some t) :
    t.served ≤ s.served + 1 ∧
      t.passes ≤ s.passes + front.length + 1 + interruptions actions := by
  induction actions generalizing s rest with
  | nil =>
      obtain rfl := Option.some.inj hrun
      exact ⟨Nat.le_succ _, by omega⟩
  | cons action actions ih =>
      obtain ⟨mid, hstep, hlater⟩ := LabelledRun.run_cons.mp hrun
      have hinterrupts : interruptions (action :: actions) =
          action.interrupts + interruptions actions := by simp [interruptions]
      obtain ⟨hpasses, ⟨bytes, hbytes⟩, hnext⟩ := step_pastPipe hpc hready hstep
      rw [hqueue, List.append_assoc, List.cons_append] at hbytes
      rcases hnext with ⟨hstay, hserved⟩ | ⟨hround, hserved⟩
      · obtain ⟨hserved', hpasses'⟩ := ih hstay hbytes hlater
        exact ⟨by omega, by omega⟩
      · have hrequested : mid.Requested pipeFd front.length :=
          ⟨by rw [hround]; trivial, by simp [hround, PassPc.set?],
            front, _, hbytes, hfront, rfl⟩
        obtain ⟨hserved', hpasses'⟩ := run_requested hfd hrequested hlater
        exact ⟨by omega, by omega⟩

/-- From the moment a `terminate` is in the pipe, the loop makes at most one pass
for it, one for each command ahead of it and one for each interruption, and it
comes to no watcher any more, except in a pass whose `select` has returned before
without the pipe. -/
theorem terminate_bounded {pipeFd : Int} (hfd : 0 ≤ pipeFd)
    (timers : EventLoop I) (watchers : NodeList L)
    {before actions : List (LoopAction I L)} {s t : LoopThread I L}
    (hbefore : LabelledRun.run (step pipeFd) (init timers watchers) before = some s)
    {front rest : List Char}
    (hqueue : s.mPipe.queue = front ++ 'T' :: rest) (hfront : 'T' ∉ front)
    (hrun : LabelledRun.run (step pipeFd) s actions = some t) :
    t.served ≤ s.served + pastPipe pipeFd s.pc ∧
      t.passes + s.pc.opens ≤ s.passes + front.length + 1 + interruptions actions +
        pastPipe pipeFd s.pc := by
  have hs := LabelledRun.run_invariant (P := Inv pipeFd)
    (fun _ _ _ hinv hstep => step_inv hinv hstep)
    (init_inv pipeFd timers watchers) hbefore
  rcases onWay_cases pipeFd s.pc with ⟨hpc, hpast⟩ | hended | ⟨ready, hpc, hready⟩
  · obtain ⟨hserved, hpasses⟩ := run_requested hfd
      ⟨hpc, hs.watches, front, rest, hqueue, hfront, rfl⟩ hrun
    rw [hpast]
    exact ⟨Nat.le_of_eq hserved, hpasses⟩
  · obtain ⟨hpasses, hserved⟩ := run_ended hended hrun
    rw [hended, hpasses, hserved]
    exact ⟨Nat.le_refl _, by simp [PassPc.opens, pastPipe]; omega⟩
  · obtain ⟨hserved, hpasses⟩ := run_pastPipe hfd hpc hready hqueue hfront hrun
    rw [hpc, pastPipe, if_neg hready]
    exact ⟨hserved, Nat.succ_le_succ hpasses⟩

/-- Three passes for a `terminate` behind a wake-up, one of them cut short by a
signal: no bound could be lower. -/
def interruptedOnce : List (LoopAction Nat Nat) :=
  [.enter [5], .runTimers 0 [], .select (.ready [3, 5]), .readCommand true,
    .enter [5], .runTimers 0 [], .select .interrupted,
    .enter [5], .runTimers 0 [], .select (.ready [3, 5]), .readCommand true]

theorem interruptedOnce_bounded :
    ∃ s t : LoopThread Nat Nat,
      LabelledRun.run (step 3)
        (init (EventLoop.init (fun _ => true) fun _ => 0)
          (NodeList.empty.pushBack 7)) [.wakeup, .terminate] = some s ∧
      LabelledRun.run (step 3) s interruptedOnce = some t ∧
      t.pc = .ended ∧ t.passes = 3 ∧ t.served ≤ s.served ∧
      t.passes + s.pc.opens ≤
        s.passes + 1 + 1 + interruptions interruptedOnce :=
  ⟨_, _, rfl, rfl, rfl, rfl, @terminate_bounded Nat Nat _ _ 3 (by decide)
    (EventLoop.init (fun _ => true) fun _ => 0) (NodeList.empty.pushBack 7)
    [.wakeup, .terminate] interruptedOnce _ _ rfl ['S'] [] rfl
    (by decide) rfl⟩

end LoopThread

end MyDirectFB

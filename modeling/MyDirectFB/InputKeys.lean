/-
The way of the keys from the devices to the event loop.  No key of a device is lost,
doubled or overtaken by another of the same device, whatever is plugged in or out
meanwhile.  And every pass of `InputManager::run` that comes to the devices reads one
event of each that has one; a pass that finds the directory changed comes to none.
-/
import MyDirectFB.InputThread
import MyDirectFB.Lib.LabelledRun

namespace MyDirectFB

universe v

variable {H : Type v} [DecidableEq H]

/-- The keys among the events of a device. -/
def keysOf (attrib : H → DeviceAttrib) (fd : H) (events : List KernelEvent) :
    List KeyEvent :=
  events.filterMap (KernelEvent.keyValue (loadAttrib (attrib fd)))

/-- The keys of a device among messages of the pipe. -/
def fromDevice (fd : H) (messages : List (Option H × KeyEvent)) : List KeyEvent :=
  messages.filterMap fun message =>
    if message.1 = some fd then some message.2 else none

/-- The key of a device that has been read, and not been written. -/
def InputPc.inHand (fd : H) : InputPc H → List KeyEvent
  | .writing other key _ _ => if other = fd then [key] else []
  | .testing | .selecting | .reading | .visiting _ _ | .ended => []

/-- One for a pass that has been begun, and may still read an event of the device. -/
def InputPc.opens (fd : H) : InputPc H → Nat
  | .selecting => 1
  | .visiting ready rest | .writing _ _ ready rest =>
      if fd ∈ ready ∧ fd ∈ rest.map InputDevice.mFD then 1 else 0
  | .testing | .reading | .ended => 0

namespace InputThread

variable {allocator : HandleAllocator H} {attrib : H → DeviceAttrib}

/-- One for a step by which a pass may end without a read of the device although it has
an event: a signal, an error, a change of the directory, or a failed read of it. -/
def inVain (s : InputThread H) (fd : H) : InputAction H → Nat
  | .select .interrupted | .select .failed | .select (.ready true _) => 1
  | .visit false =>
      match s.pc with
      | .visiting ready (device :: _) =>
          if device.mFD = fd ∧ fd ∈ ready then 1 else 0
      | _ => 0
  | _ => 0

/-! ### No key is lost -/

/-- What has been read of a device is in the pipe, or in hand. -/
def Conserved (attrib : H → DeviceAttrib) (s : InputThread H) : Prop :=
  ∀ fd, keysOf attrib fd (s.unread fd).taken =
    fromDevice fd s.mPipe.sent ++ s.pc.inHand fd

omit [DecidableEq H] in
theorem keysOf_append (attrib : H → DeviceAttrib) (fd : H)
    (front back : List KernelEvent) :
    keysOf attrib fd (front ++ back) = keysOf attrib fd front ++ keysOf attrib fd back :=
  List.filterMap_append

theorem fromDevice_append (fd : H) (front back : List (Option H × KeyEvent)) :
    fromDevice fd (front ++ back) = fromDevice fd front ++ fromDevice fd back :=
  List.filterMap_append

theorem inHand_selected (s : InputThread H) (outcome : InputSelect H) (fd : H) :
    (s.selected outcome).inHand fd = [] := by
  cases outcome with
  | interrupted | failed => rfl
  | ready watch fds => cases watch <;> rfl

theorem inHand_received (deviceType : InputDeviceType) (fd other : H)
    (event : KernelEvent) (ready : List H) (rest : List (InputDevice (List UInt8) H)) :
    (received deviceType fd event ready rest).inHand other =
      if fd = other then (event.keyValue deviceType).toList else [] := by
  unfold received
  cases event.keyValue deviceType with
  | none => simp [InputPc.inHand]
  | some key => rfl

/-- A step that reads no device, and writes nothing. -/
theorem Conserved.frame {s t : InputThread H} (hs : s.Conserved attrib)
    (htaken : ∀ fd, (t.unread fd).taken = (s.unread fd).taken)
    (hsent : t.mPipe.sent = s.mPipe.sent)
    (hinHand : ∀ fd, t.pc.inHand fd = s.pc.inHand fd) : t.Conserved attrib := by
  intro fd
  rw [htaken, hsent, hinHand]
  exact hs fd

theorem step_conserved {s t : InputThread H} {action : InputAction H}
    (hs : s.Conserved attrib) (hstep : s.step allocator attrib action = some t) :
    t.Conserved attrib := by
  cases step_move hstep with
  | deviceEvent fd event =>
      refine hs.frame (fun other => ?_) rfl fun _ => rfl
      by_cases hother : other = fd
      · subst hother
        simp
      · simp [hother]
  | receive device event unread ready rest hpc hready htake =>
      intro fd
      obtain ⟨-, -, htaken⟩ := Channel.of_take? htake
      have hfd := hs fd
      rw [hpc] at hfd
      change keysOf attrib fd (Function.update s.unread device.mFD unread fd).taken = _
      rw [inHand_received]
      by_cases hsame : device.mFD = fd
      · subst hsame
        rw [Function.update_self, htaken, keysOf_append, hfd, if_pos rfl]
        cases hkey : event.keyValue (loadAttrib (attrib device.mFD)) <;>
          simp [keysOf, hkey, InputPc.inHand]
      · rw [Function.update_of_ne (Ne.symm hsame), hfd, if_neg hsame]
        rfl
  | write fd key ready rest hpc =>
      intro other
      have hother := hs other
      rw [hpc] at hother
      rw [hother, Channel.sent_send, fromDevice_append]
      by_cases hsame : fd = other <;> simp [fromDevice, InputPc.inHand, hsame]
  | repeatKey code =>
      intro fd
      rw [Channel.sent_send, fromDevice_append]
      simpa [fromDevice] using hs fd
  | onFdReadable message mPipe htake =>
      exact hs.frame (fun _ => rfl) (Channel.of_take? htake).2.1 fun _ => rfl
  | select outcome hpc hadmits =>
      refine hs.frame (fun _ => rfl) rfl fun fd => ?_
      rw [hpc]
      exact s.inHand_selected outcome fd
  | watchEvent | exit => exact hs.frame (fun _ => rfl) rfl fun _ => rfl
  | leaves hpc | enters hpc | readWatch _ hpc | pass _ _ _ _ hpc | endPass _ hpc =>
      refine hs.frame (fun _ => rfl) rfl fun fd => ?_
      rw [hpc]
      rfl

/-- The keys among all events that the kernel has queued for a device: those that the
event loop has read, those in the pipe, one that is on its way there, and those that
are still queued, in this order. -/
theorem keys_conserved {devices : InputDevices (List UInt8) H}
    {actions : List (InputAction H)} {s : InputThread H}
    (hrun : LabelledRun.run (step allocator attrib) (init devices) actions = some s)
    (fd : H) :
    keysOf attrib fd (s.unread fd).sent =
      fromDevice fd s.mPipe.taken ++ fromDevice fd s.mPipe.queue ++ s.pc.inHand fd ++
        keysOf attrib fd (s.unread fd).queue := by
  have hs := LabelledRun.run_invariant (P := Conserved attrib)
    (fun _ _ _ hs hstep => step_conserved hs hstep)
    (fun _ => rfl : (init devices).Conserved attrib) hrun
  rw [(s.unread fd).sent_eq, keysOf_append, hs fd, s.mPipe.sent_eq, fromDevice_append]

end InputThread

namespace InputThread

def keypadDirectory : List DirEntry :=
  [⟨ascii "..", true, false⟩, ⟨ascii "event0", false, true⟩]

/-- One device, with the descriptor 1. -/
def keypad : InputDevices (List UInt8) Nat :=
  InputDevices.scanInputDevice .numbered (.start []) keypadDirectory

def event1Created : WatchEvent :=
  ⟨1, IN_CREATE, 0, some (⟨ascii "event1", by decide⟩, 9), true⟩

/-- A second device is plugged in while a key is pressed, and both have a key for the
next pass. -/
def pluggedWhilePressing : List (InputAction Nat) :=
  [.deviceEvent 1 ⟨EV_KEY, 158, 1⟩, .watchEvent event1Created, .test,
    .select (.ready true [1]), .readWatch 1, .deviceEvent 2 ⟨EV_KEY, 11, 1⟩, .test,
    .select (.ready false [1, 2]), .visit true, .repeatKey 4, .write, .visit true,
    .write, .onFdReadable, .deviceEvent 1 ⟨EV_KEY, 158, 0⟩, .onFdReadable]

theorem pluggedWhilePressing_conserved :
    ∃ s, LabelledRun.run (step .numbered fun _ => ⟨none, none⟩) (init keypad)
        pluggedWhilePressing = some s ∧
      s.mPipe.queue = [(some 2, ⟨7, .KEY_PRESSED⟩)] ∧
      keysOf (fun _ => ⟨none, none⟩) 1 (s.unread 1).sent =
        fromDevice 1 s.mPipe.taken ++ fromDevice 1 s.mPipe.queue ++ s.pc.inHand 1 ++
          keysOf (fun _ => ⟨none, none⟩) 1 (s.unread 1).queue :=
  ⟨_, rfl, rfl, @keys_conserved Nat _ .numbered (fun _ => ⟨none, none⟩) keypad
    pluggedWhilePressing _ rfl 1⟩

/-! ### Every pass comes to every device -/

theorem opens_received (deviceType : InputDeviceType) (fd other : H)
    (event : KernelEvent) (ready : List H) (rest : List (InputDevice (List UInt8) H)) :
    (received deviceType fd event ready rest).opens other =
      (InputPc.visiting ready rest).opens other := by
  unfold received
  cases event.keyValue deviceType <;> rfl

/-- The loop comes to a device. -/
theorem opens_cons {fd : H} {device : InputDevice (List UInt8) H} (ready : List H)
    (rest : List (InputDevice (List UInt8) H)) (hother : device.mFD ≠ fd) :
    (InputPc.visiting ready (device :: rest)).opens fd =
      (InputPc.visiting ready rest).opens fd := by
  simp only [InputPc.opens, List.map_cons, List.mem_cons, Ne.symm hother, false_or]

theorem opens_le_one (pc : InputPc H) (fd : H) : pc.opens fd ≤ 1 := by
  cases pc with
  | selecting => exact Nat.le_refl 1
  | visiting | writing =>
      simp only [InputPc.opens]
      split <;> omega
  | testing | reading | ended => exact Nat.zero_le 1

/-- What a step does to the queue of a device. -/
structure QueueGrows (s t : InputThread H) (fd : H) : Prop where
  sent : (s.unread fd).sent.length ≤ (t.unread fd).sent.length
  taken : (s.unread fd).taken.length ≤ (t.unread fd).taken.length

theorem step_queueGrows {s t : InputThread H} {action : InputAction H}
    (hstep : s.step allocator attrib action = some t) (fd : H) :
    QueueGrows s t fd := by
  cases step_move hstep with
  | deviceEvent other event =>
      by_cases hother : fd = other
      · subst hother
        exact ⟨by simp, by simp⟩
      · exact ⟨by simp [hother], by simp [hother]⟩
  | receive device event unread ready rest hpc hready htake =>
      obtain ⟨-, hsent, htaken⟩ := Channel.of_take? htake
      by_cases hother : fd = device.mFD
      · subst hother
        exact ⟨by simp [hsent], by simp [htaken]⟩
      · exact ⟨by simp [hother], by simp [hother]⟩
  | watchEvent | leaves | enters | select | readWatch | pass | endPass | write
  | repeatKey | onFdReadable | exit => exact ⟨Nat.le_refl _, Nat.le_refl _⟩

/-- The passes a step begins are paid for: by an event that is read of the device, by a
step in vain, or by what the pass may still do. -/
theorem step_reads {s t : InputThread H} {action : InputAction H} {fd : H}
    (hfd : fd ∈ s.devices.fds) (hqueue : (s.unread fd).queue ≠ [])
    (hstep : s.step allocator attrib action = some t) :
    t.passes + s.pc.opens fd + (s.unread fd).taken.length ≤
      s.passes + (t.unread fd).taken.length + s.inVain fd action + t.pc.opens fd := by
  have htaken := (step_queueGrows hstep fd).taken
  have hkeeps (hpasses : t.passes = s.passes) (hopens : t.pc.opens fd = s.pc.opens fd) :
      t.passes + s.pc.opens fd + (s.unread fd).taken.length ≤
        s.passes + (t.unread fd).taken.length + s.inVain fd action +
          t.pc.opens fd := by
    omega
  cases step_move hstep with
  | enters hpc =>
      rw [hpc]
      simp only [InputPc.opens]
      omega
  | select outcome hpc hadmits =>
      rw [hpc]
      cases outcome with
      | interrupted | failed =>
          simp only [InputPc.opens, inVain]
          omega
      | ready watch fds =>
          cases watch with
          | true =>
              simp only [InputPc.opens, inVain]
              omega
          | false =>
              have hboth : fd ∈ fds ∧ fd ∈ s.devices.mInputDevices.map InputDevice.mFD :=
                ⟨hadmits.2 fd hfd hqueue, hfd⟩
              simp only [InputPc.opens, inVain, selected, if_pos hboth]
              omega
  | receive device event unread ready rest hpc hready htake =>
      by_cases hother : device.mFD = fd
      · subst hother
        have hopens := opens_le_one s.pc device.mFD
        obtain ⟨-, -, htaken'⟩ := Channel.of_take? htake
        simp only [Function.update_self, htaken', List.length_append,
          List.length_singleton, inVain]
        omega
      · refine hkeeps rfl ?_
        rw [hpc, opens_cons ready rest hother]
        exact opens_received _ _ fd event ready rest
  | pass device succeeds ready rest hpc hnot =>
      by_cases hother : device.mFD = fd
      · subst hother
        by_cases hready : device.mFD ∈ ready
        · obtain rfl := hnot.resolve_left (not_not_intro hready)
          have hopens := opens_le_one (.visiting ready (device :: rest)) device.mFD
          simp only [inVain, hpc, hready, and_self, if_true]
          change s.passes + _ + (s.unread device.mFD).taken.length ≤
            s.passes + (s.unread device.mFD).taken.length + 1 + _
          omega
        · refine hkeeps rfl ?_
          rw [hpc]
          simp [InputPc.opens, hready]
      · refine hkeeps rfl ?_
        rw [hpc, opens_cons ready rest hother]
  | leaves hpc | readWatch _ hpc | endPass _ hpc | write _ _ _ _ hpc =>
      refine hkeeps rfl ?_
      rw [hpc]
      simp [InputPc.opens]
  | deviceEvent | watchEvent | repeatKey | onFdReadable | exit => exact hkeeps rfl rfl

/-- The steps of a run that are in vain for a device. -/
def vainSteps (allocator : HandleAllocator H) (attrib : H → DeviceAttrib) (fd : H) :
    InputThread H → List (InputAction H) → Nat
  | _, [] => 0
  | s, action :: rest =>
      s.inVain fd action +
        match s.step allocator attrib action with
        | some t => vainSteps allocator attrib fd t rest
        | none => 0

theorem run_queueGrows {s t : InputThread H} {actions : List (InputAction H)}
    (hrun : LabelledRun.run (step allocator attrib) s actions = some t) (fd : H) :
    QueueGrows s t fd := by
  induction actions generalizing s with
  | nil =>
      obtain rfl := Option.some.inj hrun
      exact ⟨Nat.le_refl _, Nat.le_refl _⟩
  | cons action rest ih =>
      obtain ⟨mid, hstep, hrest⟩ := LabelledRun.run_cons.mp hrun
      have hfirst := step_queueGrows hstep fd
      exact ⟨hfirst.sent.trans (ih hrest).sent, hfirst.taken.trans (ih hrest).taken⟩

theorem run_reads {s t : InputThread H} {actions : List (InputAction H)} {fd : H}
    (hthere : LabelledRun.EachState (step allocator attrib)
      (fun r => fd ∈ r.devices.fds) s actions)
    (hunread : (t.unread fd).taken.length < (s.unread fd).sent.length)
    (hrun : LabelledRun.run (step allocator attrib) s actions = some t) :
    t.passes + s.pc.opens fd + (s.unread fd).taken.length ≤
      s.passes + (t.unread fd).taken.length + vainSteps allocator attrib fd s actions +
        t.pc.opens fd := by
  induction actions generalizing s with
  | nil =>
      obtain rfl := Option.some.inj hrun
      simp only [vainSteps]
      omega
  | cons action rest ih =>
      obtain ⟨mid, hstep, hrest⟩ := LabelledRun.run_cons.mp hrun
      have htaken := (run_queueGrows hrun fd).taken
      have hlength := (s.unread fd).length_sent
      have hqueue : (s.unread fd).queue ≠ [] := by
        intro hnil
        rw [hnil, List.length_nil] at hlength
        omega
      have hfirst := step_reads hthere.1 hqueue hstep
      have hlater := ih (hthere.2 mid hstep)
        (Nat.lt_of_lt_of_le hunread (step_queueGrows hstep fd).sent) hrest
      have hvain : vainSteps allocator attrib fd s (action :: rest) =
          s.inVain fd action + vainSteps allocator attrib fd mid rest := by
        simp only [vainSteps, hstep]
      omega

/-- An event of a device that stays plugged in, with `ahead` events in front of it:
as long as it has not been read, `run` has not begun more passes than one for each of
these events, one for each that a step in vain for the device has cut short, and the
present one. -/
theorem passes_bounded {s t : InputThread H} {actions : List (InputAction H)} {fd : H}
    {ahead : Nat} (hahead : ahead < (s.unread fd).queue.length)
    (hthere : LabelledRun.EachState (step allocator attrib)
      (fun r => fd ∈ r.devices.fds) s actions)
    (hrun : LabelledRun.run (step allocator attrib) s actions = some t)
    (hunread : (t.unread fd).taken.length ≤ (s.unread fd).taken.length + ahead) :
    t.passes + s.pc.opens fd ≤
      s.passes + ahead + vainSteps allocator attrib fd s actions + t.pc.opens fd := by
  have hlength := (s.unread fd).length_sent
  have hreads := run_reads hthere (by omega) hrun
  omega

/-- Two events of a device, while a second device is plugged in: the first pass is in
vain, and the event with one in front of it is still there in the third. -/
def twoEvents : List (InputAction Nat) :=
  [.test, .watchEvent event1Created, .select (.ready true [1]), .readWatch 1, .test,
    .select (.ready false [1]), .visit true, .write, .visit true, .endPass, .test]

theorem twoEvents_bounded :
    ∃ s t : InputThread Nat,
      LabelledRun.run (step .numbered fun _ => ⟨none, none⟩) (init keypad)
        [.deviceEvent 1 ⟨EV_KEY, 158, 1⟩, .deviceEvent 1 ⟨EV_KEY, 158, 0⟩] = some s ∧
      LabelledRun.run (step .numbered fun _ => ⟨none, none⟩) s twoEvents = some t ∧
      t.passes = 3 ∧
      t.passes + s.pc.opens 1 ≤
        s.passes + 1 + vainSteps .numbered (fun _ => ⟨none, none⟩) 1 s twoEvents +
          t.pc.opens 1 :=
  ⟨_, _, rfl, rfl, rfl, @passes_bounded Nat _ .numbered
    (fun _ => ⟨none, none⟩) _ _ twoEvents 1 1 (by decide) (by decide +kernel) rfl
    (by decide)⟩

end InputThread

end MyDirectFB

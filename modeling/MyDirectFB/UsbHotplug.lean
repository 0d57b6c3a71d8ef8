/-
Hotplug events from the kernel to the listeners (core/usb_hotplug_manager.cpp), over
any sequence of messages of the kernel and of listeners that come and go between
them.  A listener may be registered more than once.
-/
import MyDirectFB.ListenerVector
import MyDirectFB.ReceiveBuffer
import Mathlib.Data.List.Range
import Mathlib.Data.List.Count

namespace MyDirectFB

open ReceiveBuffer

namespace USB_HotplugManager

universe u

/-- What the listeners are told. -/
abbrev HotplugNotice := USB_Hotplug_Event_e × List UInt8

/-- `notifyHotplugEvent`: the listeners that are called, by their index. -/
def notifyHotplugEvent {L : Type u} (mListeners : List L) : List L :=
  (List.range mListeners.length).filterMap fun ii => mListeners[ii]?

/-- All listeners are called, in their order. -/
theorem notifyHotplugEvent_eq {L : Type u} (mListeners : List L) :
    notifyHotplugEvent mListeners = mListeners := by
  induction mListeners with
  | nil => rfl
  | cons listener rest ih =>
      rw [notifyHotplugEvent, List.length_cons, List.range_succ_eq_map,
        List.filterMap_cons, List.filterMap_map]
      exact congrArg _ ih

/-- The manager, with what it has told its listeners so far. -/
structure HotplugManager (L : Type u) where
  mListeners : NodeList L
  told : List (L × HotplugNotice)

def HotplugManager.init {L : Type u} : HotplugManager L :=
  ⟨NodeList.empty, []⟩

/-- The calls of the manager; its socket is readable for a message. -/
inductive HotplugCall (L : Type u) where
  | addListener (listener : L)
  | removeListener (listener : L)
  | onFdReadable (recv : Recvmsg)

variable {L : Type u} [DecidableEq L]

def HotplugManager.perform (s : HotplugManager L) : HotplugCall L → HotplugManager L
  | .addListener listener =>
      { s with mListeners := addListener s.mListeners listener }
  | .removeListener listener =>
      { s with mListeners := removeListener s.mListeners listener }
  | .onFdReadable recv =>
      match (USB_HotplugManager.onFdReadable recv).1.2 with
      | none => s
      | some notice =>
          { s with
            told := s.told ++
              (notifyHotplugEvent s.mListeners.values).map fun listener =>
                (listener, notice) }

/-- What a listener has been told. -/
def HotplugManager.heard (s : HotplugManager L) (listener : L) : List HotplugNotice :=
  s.told.filterMap fun entry => if entry.1 = listener then some entry.2 else none

/-! ### Messages of the kernel -/

/-- `AT`. -/
def AT : UInt8 := 64

/-- A message `<action>@<devpath>` with the variables behind it. -/
structure Uevent where
  action : CString
  devpath : CString
  environment : List UInt8
  action_chars : AT ∉ action.bytes

namespace Uevent

def message (uevent : Uevent) : List UInt8 :=
  uevent.action.bytes ++ AT :: (uevent.devpath.bytes ++ 0 :: uevent.environment)

theorem truncated_longer (uevent : Uevent) :
    decide (4096 < uevent.message.length) = true → 4096 < uevent.message.length :=
  of_decide_eq_true

/-- The message as it is received. -/
def recv (uevent : Uevent) : Recvmsg :=
  ⟨uevent.message, false, 12, decide (4096 < uevent.message.length),
    uevent.truncated_longer⟩

/-- What an action means. -/
def event (uevent : Uevent) : USB_Hotplug_Event_e :=
  if uevent.action.bytes = ascii "add" then .add
  else if uevent.action.bytes = ascii "change" then .change
  else if uevent.action.bytes = ascii "remove" then .remove
  else .unknown

/-- The notice of a message; one that does not fit in the buffer is lost. -/
def notice (uevent : Uevent) : Option HotplugNotice :=
  if uevent.message.length < 4096 then some (uevent.event, uevent.devpath.bytes)
  else none

theorem message_ne_nil (uevent : Uevent) : uevent.message ≠ [] :=
  List.append_ne_nil_of_right_ne_nil _ (List.cons_ne_nil _ _)

/-- The string in the buffer ends behind the path. -/
theorem ofMemory_message (uevent : Uevent) :
    (CString.ofMemory (uevent.message ++ [0])).bytes =
      uevent.action.bytes ++ AT :: uevent.devpath.bytes := by
  have hzero : 0 ∉ uevent.action.bytes ++ AT :: uevent.devpath.bytes := by
    simp [uevent.action.noNul, uevent.devpath.noNul, AT]
  have htext : uevent.message ++ [0] =
      (uevent.action.bytes ++ AT :: uevent.devpath.bytes) ++
        0 :: (uevent.environment ++ [0]) := by
    simp [message]
  rw [htext, CString.ofMemory_append ⟨_, hzero⟩]

/-- The manager stays with the event loop, and tells the listeners of a message that
fits.  The NUL would be behind the buffer for a message that fills it. -/
theorem onFdReadable_recv (uevent : Uevent) (hfill : uevent.message.length ≠ 4096) :
    (USB_HotplugManager.onFdReadable uevent.recv).1 = (true, uevent.notice) ∧
      ∀ nul ∈ (USB_HotplugManager.onFdReadable uevent.recv).2, nul.InRange := by
  by_cases hfits : uevent.message.length < 4096
  · have hstored : stored 4096 uevent.message = uevent.message :=
      List.take_of_length_le (Nat.le_of_lt hfits)
    have hfound : strchr (CString.ofMemory (uevent.message ++ [0])).bytes 64 =
        some (uevent.action.bytes, uevent.devpath.bytes) := by
      rw [uevent.ofMemory_message]
      exact strchr_append uevent.action_chars _
    have hlength : uevent.message.length ≠ 0 :=
      fun hzero => uevent.message_ne_nil (List.length_eq_zero_iff.mp hzero)
    have hshort := Nat.lt_asymm hfits
    have hterminate : (terminate 4096 uevent.message).InRange :=
      terminate_inRange.mpr hfits
    simp only [USB_HotplugManager.onFdReadable, recv, hlength, hshort, hstored, hfound,
      notice, hfits, Bool.false_eq_true, ↓reduceIte, ne_eq, not_true, decide_false,
      Bool.or_self, Option.mem_def, Option.some.injEq]
    exact ⟨rfl, fun nul hnul => hnul ▸ hterminate⟩
  · have hlength : (stored 4096 uevent.message).length ≠ 0 :=
      length_stored_ne_zero uevent.message_ne_nil
    have hlong : 4096 < uevent.message.length :=
      Nat.lt_of_le_of_ne (Nat.not_lt.mp hfits) hfill.symm
    simp only [USB_HotplugManager.onFdReadable, recv, hlength, hlong, notice, hfits,
      Bool.false_eq_true, ↓reduceIte, ne_eq, not_true, decide_true, Bool.or_true]
    exact ⟨trivial, fun nul hnul => absurd hnul (Option.not_mem_none nul)⟩

end Uevent

/-! ### Runs -/

/-- What happens at the manager: listeners come and go, and the kernel sends
messages. -/
inductive HotplugAction (L : Type u) where
  | add (listener : L)
  | remove (listener : L)
  | receive (uevent : Uevent)

def HotplugAction.call : HotplugAction L → HotplugCall L
  | .add listener => .addListener listener
  | .remove listener => .removeListener listener
  | .receive uevent => .onFdReadable uevent.recv

def HotplugManager.run (s : HotplugManager L) (actions : List (HotplugAction L)) :
    HotplugManager L :=
  actions.foldl (fun s action => s.perform action.call) s

/-- The notices for a listener that is registered `count` times. -/
def noticesFor (listener : L) : Nat → List (HotplugAction L) → List HotplugNotice
  | _, [] => []
  | count, .add other :: rest =>
      noticesFor listener (count + if other = listener then 1 else 0) rest
  | count, .remove other :: rest =>
      noticesFor listener (count - if other = listener then 1 else 0) rest
  | count, .receive uevent :: rest =>
      uevent.notice.toList.flatMap (List.replicate count) ++
        noticesFor listener count rest

theorem heard_notify (s : HotplugManager L) (notice : HotplugNotice) (listener : L) :
    HotplugManager.heard ⟨s.mListeners, s.told ++ s.mListeners.values.map fun other =>
        (other, notice)⟩ listener =
      s.heard listener ++
        List.replicate (s.mListeners.values.count listener) notice := by
  rw [HotplugManager.heard, HotplugManager.heard, List.filterMap_append]
  refine congrArg _ ?_
  induction s.mListeners.values with
  | nil => rfl
  | cons other rest ih =>
      by_cases hsame : other = listener
      · simp [hsame, ih, List.replicate_succ]
      · simp [hsame, ih]

/-- What a message changes. -/
theorem perform_receive (s : HotplugManager L) (uevent : Uevent)
    (hfill : uevent.message.length ≠ 4096) (listener : L) :
    let t := s.perform (.onFdReadable uevent.recv)
    t.mListeners = s.mListeners ∧ t.heard listener = s.heard listener ++
      uevent.notice.toList.flatMap
        (List.replicate (s.mListeners.values.count listener)) := by
  have hnotice := congrArg Prod.snd (uevent.onFdReadable_recv hfill).1
  cases hsent : uevent.notice with
  | none =>
      rw [hsent] at hnotice
      simp only [HotplugManager.perform, hnotice]
      exact ⟨trivial, (List.append_nil _).symm⟩
  | some notice =>
      rw [hsent] at hnotice
      simp only [HotplugManager.perform, hnotice, notifyHotplugEvent_eq]
      refine ⟨trivial, (heard_notify s notice listener).trans ?_⟩
      simp

theorem heard_run (s : HotplugManager L) (actions : List (HotplugAction L))
    (hfill : ∀ uevent, .receive uevent ∈ actions → uevent.message.length ≠ 4096)
    (listener : L) :
    (s.run actions).heard listener = s.heard listener ++
      noticesFor listener (s.mListeners.values.count listener) actions := by
  induction actions generalizing s with
  | nil => exact (List.append_nil _).symm
  | cons action rest ih =>
      rw [HotplugManager.run, List.foldl_cons, ← HotplugManager.run,
        ih _ fun uevent hmem => hfill uevent (List.mem_cons_of_mem _ hmem)]
      cases action with
      | add other =>
          have hcount : (s.perform (.addListener other)).mListeners.values.count
              listener = s.mListeners.values.count listener +
                if other = listener then 1 else 0 := by
            simp [HotplugManager.perform, addListener, pushListener, List.count_cons]
          rw [HotplugAction.call, hcount]
          rfl
      | remove other =>
          have hcount : (s.perform (.removeListener other)).mListeners.values.count
              listener = s.mListeners.values.count listener -
                if other = listener then 1 else 0 := by
            simp [HotplugManager.perform, removeListener, eraseListener,
              NodeList.values_eraseFirst, List.count_erase]
          rw [HotplugAction.call, hcount]
          rfl
      | receive uevent =>
          obtain ⟨hsame, hheard⟩ :=
            perform_receive s uevent (hfill uevent List.mem_cons_self) listener
          rw [HotplugAction.call, hsame, hheard, List.append_assoc]
          rfl

/-- Where no message fills the buffer, every listener is told of exactly those that
fit, with the event and the path that the kernel means, in their order and as many
times each as it is registered then; the manager stays with the event loop and writes
nothing beyond the buffer. -/
theorem hotplug_heard (actions : List (HotplugAction L))
    (hfill : ∀ uevent, .receive uevent ∈ actions → uevent.message.length ≠ 4096) :
    (∀ listener, (HotplugManager.init.run actions).heard listener =
      noticesFor listener 0 actions) ∧
    ∀ uevent, .receive uevent ∈ actions →
      (USB_HotplugManager.onFdReadable (Uevent.recv uevent)).1.1 = true ∧
        ∀ nul ∈ (USB_HotplugManager.onFdReadable uevent.recv).2, nul.InRange := by
  refine ⟨heard_run HotplugManager.init actions hfill, fun uevent hmem => ?_⟩
  obtain ⟨hresult, hterminate⟩ := uevent.onFdReadable_recv (hfill uevent hmem)
  exact ⟨congrArg Prod.fst hresult, hterminate⟩

/-- A device that is plugged in, used and pulled out. -/
def pluggedAndPulled : List Uevent :=
  [⟨⟨ascii "add", by decide⟩, ⟨ascii "/devices/usb1", by decide⟩, ascii "ACTION=add",
      by decide⟩,
    ⟨⟨ascii "bind", by decide⟩, ⟨ascii "/devices/usb1", by decide⟩, [], by decide⟩,
    ⟨⟨ascii "remove", by decide⟩, ⟨ascii "/devices/usb1", by decide⟩, [], by decide⟩]

theorem pluggedAndPulled_short :
    ∀ uevent ∈ pluggedAndPulled, uevent.message.length ≠ 4096 := by
  decide

theorem hotplug_heard_plugged :
    let actions : List (HotplugAction Nat) :=
      .add 1 :: .add 2 :: .add 1 :: pluggedAndPulled.map .receive
    (HotplugManager.init.run actions).heard 1 = noticesFor 1 0 actions ∧
      (noticesFor 1 0 actions).length = 6 :=
  ⟨(hotplug_heard (.add 1 :: .add 2 :: .add 1 :: pluggedAndPulled.map .receive)
    (by simpa using pluggedAndPulled_short)).1 1, by decide⟩

end USB_HotplugManager

end MyDirectFB

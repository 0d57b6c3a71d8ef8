/-
The registries of callbacks that are a `std::vector`: the listeners of
core/netlink_manager.cpp and of core/usb_hotplug_manager.cpp, with the loops
that notify them.  The four loops are the same: the number of elements is read
once, and the elements are then called by their index.  An entry has a name, so
that two registrations of one listener can be told apart.
-/
import MyDirectFB.Lib.NodeList

namespace MyDirectFB

universe u

/-- The functions that notify. -/
inductive Notification where
  | parseRouteMsg
  | parseLinkMsg
  | parseAddressMsg
  | notifyHotplugEvent
deriving Repr, DecidableEq

variable {L : Type u} [DecidableEq L]

/-- `mListeners.push_back`. -/
def pushListener (mListeners : NodeList L) (listener : L) : NodeList L :=
  mListeners.pushBack listener

/-- The scan for a listener up to its first index, and the erasing of that
index. -/
def eraseListener (mListeners : NodeList L) (listener : L) : NodeList L :=
  mListeners.eraseFirst listener

/-- `NetlinkManager::addListener`. -/
def NetlinkManager.addListener (mListeners : NodeList L) (observer : L) :
    NodeList L :=
  pushListener mListeners observer

/-- `NetlinkManager::removeListener`. -/
def NetlinkManager.removeListener (mListeners : NodeList L) (observer : L) :
    NodeList L :=
  eraseListener mListeners observer

/-- `USB_HotplugManager::addListener`. -/
def USB_HotplugManager.addListener (mListeners : NodeList L) (listener : L) :
    NodeList L :=
  pushListener mListeners listener

/-- `USB_HotplugManager::removeListener`. -/
def USB_HotplugManager.removeListener (mListeners : NodeList L) (listener : L) :
    NodeList L :=
  eraseListener mListeners listener

/-- The `addListener` of the manager that notifies. -/
def Notification.addListener : Notification → NodeList L → L → NodeList L
  | .parseRouteMsg | .parseLinkMsg | .parseAddressMsg =>
      NetlinkManager.addListener
  | .notifyHotplugEvent => USB_HotplugManager.addListener

/-- The `removeListener` of the manager that notifies. -/
def Notification.removeListener : Notification → NodeList L → L → NodeList L
  | .parseRouteMsg | .parseLinkMsg | .parseAddressMsg =>
      NetlinkManager.removeListener
  | .notifyHotplugEvent => USB_HotplugManager.removeListener

/-- Where the loop is. -/
inductive NotifyPc where
  | outside
  /-- Before the test `ii < count`. -/
  | atTest (ii : Nat)
  | inCallback (ii : Nat)
  /-- `mListeners[ii]` has been read with `ii` not below the size. -/
  | outOfRange
deriving Repr, DecidableEq

/-- The listeners of a manager and a loop over them.  `registered` has the
entries that were there when the loop began and `called` those it has called;
`added` and `removed` count the entries that have come and gone since. -/
structure NotifyLoop (L : Type u) where
  mListeners : NodeList L
  pc : NotifyPc
  count : Nat
  registered : List Nat
  called : List Nat
  added : Nat
  removed : Nat

def NotifyLoop.init (mListeners : NodeList L) : NotifyLoop L :=
  ⟨mListeners, .outside, 0, [], [], 0, 0⟩

inductive NotifyStep (L : Type u) where
  | begin
  | visit
  | finish
  | add (listener : L)
  | remove (listener : L)
  | returns
deriving Repr, DecidableEq

/-- Listeners come and go outside of the loop and in the callbacks. -/
def NotifyPc.mayChange : NotifyPc → Bool
  | .outside | .inCallback _ => true
  | _ => false

/-- The transition function. -/
def NotifyLoop.step (notification : Notification) (s : NotifyLoop L) :
    NotifyStep L → Option (NotifyLoop L)
  | .begin =>
      match s.pc with
      | .outside =>
          some ⟨s.mListeners, .atTest 0, s.mListeners.names.length,
            s.mListeners.names, [], 0, 0⟩
      | _ => none
  | .visit =>
      match s.pc with
      | .atTest ii =>
          if ii < s.count then
            match s.mListeners.names[ii]? with
            | some name => some { s with
                pc := .inCallback ii
                called := s.called ++ [name] }
            | none => some { s with pc := .outOfRange }
          else none
      | _ => none
  | .finish =>
      match s.pc with
      | .atTest ii => if ii < s.count then none else some { s with pc := .outside }
      | _ => none
  | .add listener =>
      if s.pc.mayChange then
        some { s with
          mListeners := notification.addListener s.mListeners listener
          added := s.added + 1 }
      else none
  | .remove listener =>
      if s.pc.mayChange then
        let mListeners := notification.removeListener s.mListeners listener
        some { s with
          mListeners := mListeners
          removed := s.removed +
            (s.mListeners.names.length - mListeners.names.length) }
      else none
  | .returns =>
      match s.pc with
      | .inCallback ii => some { s with pc := .atTest (ii + 1) }
      | _ => none

end MyDirectFB

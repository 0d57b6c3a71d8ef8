/-
The registries of callbacks that are a `std::list`: the watchers of the event
loop (base/event_loop.cpp), the key listeners (input/input_manager.cpp) and the
Wi-Fi listeners (wifi/wifi_manager.cpp), with the loops that call them.  A step
goes from one point where a callback can change the registry to the next one.
A pointer is a value of `L`, and `none` is the null pointer.  The adds compare
their argument with `*end()` when it is not in the list; the two are taken to
differ.
-/
import MyDirectFB.Lib.NodeList

namespace MyDirectFB

universe u

inductive Registry where
  | mFdWatchers
  | mKeyListeners
  | mWifiListeners
deriving Repr, DecidableEq

variable {L : Type u} [DecidableEq L]

/-! ### Adding and removing -/

/-- `EventLoop::addFdWatcher`.  That the watcher is in the list is logged. -/
def EventLoop.addFdWatcher (mFdWatchers : NodeList L) :
    Option L → NodeList L
  | none => mFdWatchers
  | some watcher => mFdWatchers.pushBack watcher

/-- The other two adds. -/
def addIfAbsent (listeners : NodeList L) : Option L → NodeList L
  | none => listeners
  | some listener =>
      if listener ∈ listeners.values then listeners
      else listeners.pushFront listener

/-- `InputManager::addKeyListener`. -/
def InputManager.addKeyListener (mKeyListeners : NodeList L) :
    Option L → NodeList L :=
  addIfAbsent mKeyListeners

/-- `WifiManager::addListener`. -/
def WifiManager.addListener (mWifiListeners : NodeList L) :
    Option L → NodeList L :=
  addIfAbsent mWifiListeners

/-- The three removes: the scan erases the first match and returns. -/
def removeFirst (listeners : NodeList L) : Option L → NodeList L
  | none => listeners
  | some listener => listeners.eraseFirst listener

/-- `EventLoop::removeFdWatcher`. -/
def EventLoop.removeFdWatcher (mFdWatchers : NodeList L) :
    Option L → NodeList L :=
  removeFirst mFdWatchers

/-- `InputManager::removeKeyListener`. -/
def InputManager.removeKeyListener (mKeyListeners : NodeList L) :
    Option L → NodeList L :=
  removeFirst mKeyListeners

/-- `WifiManager::removeListener`. -/
def WifiManager.removeListener (mWifiListeners : NodeList L) :
    Option L → NodeList L :=
  removeFirst mWifiListeners

def Registry.add (registry : Registry) (list : NodeList L)
    (listener : Option L) : NodeList L :=
  match registry with
  | .mFdWatchers => EventLoop.addFdWatcher list listener
  | .mKeyListeners => InputManager.addKeyListener list listener
  | .mWifiListeners => WifiManager.addListener list listener

def Registry.remove (registry : Registry) (list : NodeList L)
    (listener : Option L) : NodeList L :=
  match registry with
  | .mFdWatchers => EventLoop.removeFdWatcher list listener
  | .mKeyListeners => InputManager.removeKeyListener list listener
  | .mWifiListeners => WifiManager.removeListener list listener

/-! ### The loops -/

/-- Where the loop is. -/
inductive LoopPc where
  | outside
  /-- Before the test `it != end()`; `none` is `end()`. -/
  | atTest (it : Option Nat)
  | inCallback (it : Nat)
  /-- `it++` has been made on a node that is not in the list. -/
  | dangling
deriving Repr, DecidableEq

/-- A registry and the loop over it.  `registered` has the nodes that were in
the list when the loop began, `visited` the nodes it has come to since, `ready`
those of them that `FD_ISSET` said to be ready, and `called` those whose callback
it has called. -/
structure DispatchLoop (L : Type u) where
  list : NodeList L
  pc : LoopPc
  registered : List Nat
  visited : List Nat
  ready : List Nat
  called : List (Nat × L)

def DispatchLoop.init (list : NodeList L) : DispatchLoop L :=
  ⟨list, .outside, [], [], [], []⟩

/-- `ready` is what `FD_ISSET` says of the descriptor of the watcher, and
`result` what the callback returns. -/
inductive DispatchStep (L : Type u) where
  | begin
  | visit (ready : Bool)
  | finish
  | add (listener : Option L)
  | remove (listener : Option L)
  | returns (result : Bool)
deriving Repr, DecidableEq

/-- The registry is changed outside of the loop and in its callbacks. -/
def LoopPc.mayChange : LoopPc → Bool
  | .outside | .inCallback _ => true
  | _ => false

/-- The pass of the loop that comes to a node: of the watchers only those that
are ready are called. -/
def DispatchLoop.visit (registry : Registry) (s : DispatchLoop L) (name : Nat)
    (listener : L) (ready : Bool) : DispatchLoop L :=
  let visited :=
    { s with
      visited := s.visited ++ [name]
      ready := if ready then s.ready ++ [name] else s.ready }
  if registry = .mFdWatchers ∧ ready = false then
    { visited with pc := .atTest (s.list.next name) }
  else
    { visited with
      pc := .inCallback name
      called := s.called ++ [(name, listener)] }

/-- The transition function. -/
def DispatchLoop.step (registry : Registry) (s : DispatchLoop L) :
    DispatchStep L → Option (DispatchLoop L)
  | .begin =>
      match s.pc with
      | .outside =>
          some ⟨s.list, .atTest s.list.first, s.list.names, [], [], []⟩
      | _ => none
  | .visit ready =>
      match s.pc with
      | .atTest (some name) =>
          (s.list.value? name).map fun listener =>
            s.visit registry name listener ready
      | _ => none
  | .finish =>
      match s.pc with
      | .atTest none => some { s with pc := .outside }
      | _ => none
  | .add listener =>
      if s.pc.mayChange then
        some { s with list := registry.add s.list listener }
      else none
  | .remove listener =>
      if s.pc.mayChange then
        some { s with list := registry.remove s.list listener }
      else none
  | .returns result =>
      match s.pc with
      | .inCallback name =>
          -- a key listener that returns true ends the loop
          if registry = .mKeyListeners ∧ result = true then
            some { s with pc := .outside }
          else if name ∈ s.list.names then
            some { s with pc := .atTest (s.list.next name) }
          else some { s with pc := .dangling }
      | _ => none

/-- What a step does, and where the loop is before. -/
inductive DispatchLoop.Move (registry : Registry) (s : DispatchLoop L) :
    DispatchStep L → DispatchLoop L → Prop
  | begin (hpc : s.pc = .outside) :
      Move registry s .begin ⟨s.list, .atTest s.list.first, s.list.names, [], [], []⟩
  | visit (name : Nat) (listener : L) (ready : Bool)
      (hpc : s.pc = .atTest (some name))
      (hvalue : s.list.value? name = some listener) :
      Move registry s (.visit ready) (s.visit registry name listener ready)
  | finish (hpc : s.pc = .atTest none) :
      Move registry s .finish { s with pc := .outside }
  | add (listener : Option L) (hmay : s.pc.mayChange = true) :
      Move registry s (.add listener) { s with list := registry.add s.list listener }
  | remove (listener : Option L) (hmay : s.pc.mayChange = true) :
      Move registry s (.remove listener)
        { s with list := registry.remove s.list listener }
  | ends (name : Nat) (hpc : s.pc = .inCallback name)
      (hkey : registry = .mKeyListeners) :
      Move registry s (.returns true) { s with pc := .outside }
  | goesOn (name : Nat) (result : Bool) (hpc : s.pc = .inCallback name)
      (hnot : ¬ (registry = .mKeyListeners ∧ result = true))
      (hname : name ∈ s.list.names) :
      Move registry s (.returns result)
        { s with pc := .atTest (s.list.next name) }
  | dangles (name : Nat) (result : Bool) (hpc : s.pc = .inCallback name)
      (hnot : ¬ (registry = .mKeyListeners ∧ result = true))
      (hname : name ∉ s.list.names) :
      Move registry s (.returns result) { s with pc := .dangling }

theorem DispatchLoop.step_move {registry : Registry} {s t : DispatchLoop L}
    {action : DispatchStep L} (hstep : s.step registry action = some t) :
    s.Move registry action t := by
  cases action with
  | begin =>
      cases hpc : s.pc <;> simp only [DispatchLoop.step, hpc, reduceCtorEq] at hstep
      exact Option.some.inj hstep ▸ .begin hpc
  | visit ready =>
      cases hpc : s.pc <;> simp only [DispatchLoop.step, hpc, reduceCtorEq] at hstep
      rename_i it
      cases it with
      | none => cases hstep
      | some name =>
          obtain ⟨listener, hvalue, rfl⟩ := Option.map_eq_some_iff.mp hstep
          exact .visit name listener ready hpc hvalue
  | finish =>
      cases hpc : s.pc <;> simp only [DispatchLoop.step, hpc, reduceCtorEq] at hstep
      rename_i it
      cases it with
      | none => exact Option.some.inj hstep ▸ .finish hpc
      | some name => cases hstep
  | add listener =>
      obtain ⟨hmay, hnext⟩ := Option.ite_none_right_eq_some.mp hstep
      exact Option.some.inj hnext ▸ .add listener hmay
  | remove listener =>
      obtain ⟨hmay, hnext⟩ := Option.ite_none_right_eq_some.mp hstep
      exact Option.some.inj hnext ▸ .remove listener hmay
  | returns result =>
      cases hpc : s.pc <;> simp only [DispatchLoop.step, hpc, reduceCtorEq] at hstep
      rename_i name
      split at hstep
      · next hstop =>
          obtain ⟨hkey, rfl⟩ := hstop
          exact Option.some.inj hstep ▸ .ends name hpc hkey
      · next hnot =>
          split at hstep
          · next hname => exact Option.some.inj hstep ▸ .goesOn name result hpc hnot hname
          · next hname => exact Option.some.inj hstep ▸ .dangles name result hpc hnot hname

end MyDirectFB

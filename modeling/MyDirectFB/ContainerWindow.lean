/-
Showing and hiding a container (ui/directfb/container.cpp) and the window it
creates and deletes for that (ui/directfb/window.cpp).  Of DirectFB the model
has the outcome of `CreateWindow` and the opacity of a window; the other calls
succeed.  Painting calls no listener and changes none of this state, and is left
out.
-/
import MyDirectFB.Lib.LabelledRun
import Mathlib.Data.List.Infix

namespace MyDirectFB

/-- The calls of an `IContainerListener`. -/
inductive Callback where
  | onCreate
  | onShow
  | onHide
  | onDestroy
deriving Repr, DecidableEq

/-- A window of DirectFB, created with opacity 0. -/
structure DFBWindow where
  opacity : UInt8
deriving Repr, DecidableEq

/-- The data members of `Window` that showing and hiding use; a `mDFBWindow`
that is NULL is `none`. -/
structure Window where
  mDFBWindow : Option DFBWindow
  mOpacity : UInt8
deriving Repr, DecidableEq

/-- The constructor with `Window::init`, given whether `CreateWindow` succeeds.
`onCreateWindow` is what the listener does. -/
def Window.init (created : Bool) (onCreateWindow : List Callback) :
    Window × List Callback :=
  if created then (⟨some ⟨0⟩, 255⟩, onCreateWindow)
  else (⟨none, 255⟩, [])

/-- `Window::isVisible`. -/
def Window.isVisible (window : Window) : Bool :=
  match window.mDFBWindow with
  | none => false
  | some dfbWindow => dfbWindow.opacity != 0

/-- `IDirectFBWindow::SetOpacity`, behind the test for NULL. -/
def Window.setDFBOpacity (window : Window) (opacity : UInt8) : Window :=
  { window with mDFBWindow := window.mDFBWindow.map fun _ => ⟨opacity⟩ }

/-- `Window::show`. -/
def Window.show (window : Window) : Window :=
  if window.isVisible then window else window.setDFBOpacity window.mOpacity

/-- `Window::hide`. -/
def Window.hide (window : Window) : Window :=
  window.setDFBOpacity 0

/-- `Window::deinit` in the destructor: `onDestroyWindow` is what the listener
does. -/
def Window.deinit (_window : Window) (onDestroyWindow : List Callback) :
    List Callback :=
  onDestroyWindow

/-- The data members of `Container` that showing and hiding use.  Of
`mContainerListener` only whether it is set is kept. -/
structure ContainerView where
  mContainerListener : Bool
  mVisible : Bool
  mWindow : Option Window
deriving Repr, DecidableEq

namespace ContainerView

/-- The constructors of `Container`, and `setListener`. -/
def new (mContainerListener : Bool) : ContainerView :=
  ⟨mContainerListener, false, none⟩

/-- `if(mContainerListener)` before a call of the listener. -/
def notify (view : ContainerView) (callback : Callback) : List Callback :=
  if view.mContainerListener then [callback] else []

/-- `Container::onCreateWindow`. -/
def onCreateWindow (view : ContainerView) : List Callback :=
  view.notify .onCreate

/-- `Container::onDestroyWindow`. -/
def onDestroyWindow (view : ContainerView) : List Callback :=
  view.notify .onDestroy

/-- `Container::isVisible`. -/
def isVisible (view : ContainerView) : Bool :=
  match view.mWindow with
  | none => view.mVisible
  | some window => window.isVisible

/-- The lazy creation in `_show`. -/
def createLazily (view : ContainerView) (created : Bool) :
    ContainerView × List Callback :=
  match view.mWindow with
  | some _ => (view, [])
  | none =>
      let window := Window.init created view.onCreateWindow
      ({ view with mWindow := some window.1 },
        window.2 ++ view.notify .onCreate)

/-- `Container::_show`, given whether `CreateWindow` succeeds if it is called. -/
def _show (view : ContainerView) (created : Bool) :
    ContainerView × List Callback :=
  if view.mVisible then (view, [])
  else
    let ready := view.createLazily created
    ({ ready.1 with
        mWindow := ready.1.mWindow.map Window.show
        mVisible := true },
      ready.2 ++ view.notify .onShow)

/-- `Container::_hide`. -/
def _hide (view : ContainerView) : ContainerView × List Callback :=
  if !view.mVisible then (view, [])
  else
    let hidden := { view with mVisible := false }
    match view.mWindow with
    | none => (hidden, view.notify .onHide)
    | some window =>
        if !window.isVisible then (hidden, view.notify .onHide)
        else
          ({ hidden with mWindow := none },
            view.notify .onHide ++ window.hide.deinit view.onDestroyWindow)

end ContainerView

/-- An event dispatched to the container.  A show comes with what a call of
`CreateWindow` in it would return. -/
inductive ViewEvent where
  | requestShow (created : Bool)
  | requestHide
deriving Repr, DecidableEq

def ViewEvent.dispatch (view : ContainerView) :
    ViewEvent → ContainerView × List Callback
  | .requestShow created => view._show created
  | .requestHide => view._hide

/-! ### Notifications -/

/-- A container with the callbacks it has made so far. -/
structure TracedView where
  view : ContainerView
  callbacks : List Callback
deriving Repr, DecidableEq

def TracedView.dispatch (s : TracedView) (event : ViewEvent) : TracedView :=
  let result := event.dispatch s.view
  ⟨result.1, s.callbacks ++ result.2⟩

/-- A request without a failure of DirectFB. -/
inductive ViewRequest where
  | requestShow
  | requestHide
deriving Repr, DecidableEq

def ViewRequest.event : ViewRequest → ViewEvent
  | .requestShow => .requestShow true
  | .requestHide => .requestHide

def TracedView.dispatchAll (s : TracedView) (requests : List ViewRequest) :
    TracedView :=
  requests.foldl (fun s request => s.dispatch request.event) s

/-- The callbacks of a container with a listener for a sequence of requests. -/
def callbacksOf (requests : List ViewRequest) : List Callback :=
  (TracedView.dispatchAll ⟨ContainerView.new true, []⟩ requests).callbacks

/-- A prefix of repetitions of `cycle`. -/
def Repeats (cycle callbacks : List Callback) : Prop :=
  ∃ n, callbacks <+: (List.replicate n cycle).flatten

/-- A container with a listener and no window. -/
def hiddenView : ContainerView :=
  ⟨true, false, none⟩

/-- A container with a listener whose window is shown. -/
def shownView : ContainerView :=
  ⟨true, true, some ⟨some ⟨255⟩, 255⟩⟩

/-- The callbacks of a show that creates a window: the creation is notified by
the window and by `_show`. -/
def showCallbacks : List Callback :=
  [.onCreate, .onCreate, .onShow]

/-- The callbacks of a window's whole life. -/
def roundCallbacks : List Callback :=
  showCallbacks ++ [.onHide, .onDestroy]

/-- Where a container is between two requests after `rounds` windows that have
come and gone. -/
inductive TracedView.Between : TracedView → Prop
  | hidden (rounds : Nat) :
      Between ⟨hiddenView, (List.replicate rounds roundCallbacks).flatten⟩
  | shown (rounds : Nat) :
      Between ⟨shownView,
        (List.replicate rounds roundCallbacks).flatten ++ showCallbacks⟩

theorem TracedView.Between.dispatch {s : TracedView} (hs : s.Between)
    (request : ViewRequest) : (s.dispatch request.event).Between := by
  cases hs with
  | hidden rounds =>
      cases request with
      | requestShow => exact .shown rounds
      | requestHide =>
          have hsame : (List.replicate rounds roundCallbacks).flatten ++ [] =
            (List.replicate rounds roundCallbacks).flatten := List.append_nil _
          have h := Between.hidden rounds
          rw [← hsame] at h
          exact h
  | shown rounds =>
      cases request with
      | requestShow =>
          have h := Between.shown rounds
          rw [← List.append_nil (_ ++ showCallbacks)] at h
          exact h
      | requestHide =>
          have h := Between.hidden (rounds + 1)
          rw [List.replicate_succ', List.flatten_append, List.flatten_singleton,
            roundCallbacks, ← List.append_assoc] at h
          exact h

theorem TracedView.Between.dispatchAll {s : TracedView} (hs : s.Between)
    (requests : List ViewRequest) : (s.dispatchAll requests).Between := by
  induction requests generalizing s with
  | nil => exact hs
  | cons request rest ih => exact ih (hs.dispatch request)

theorem TracedView.callbacks_dispatchAll (s : TracedView)
    (requests : List ViewRequest) :
    s.callbacks <+: (s.dispatchAll requests).callbacks := by
  induction requests generalizing s with
  | nil => exact List.prefix_rfl
  | cons request rest ih =>
      have hfirst : s.callbacks <+: (s.dispatch request.event).callbacks :=
        List.prefix_append _ _
      exact hfirst.trans (ih _)

theorem TracedView.Between.twice {s : TracedView} (hs : s.Between)
    (hshown : s.view.mVisible = true) : [.onCreate, .onCreate] <+: s.callbacks := by
  cases hs with
  | hidden rounds => exact Bool.noConfusion hshown
  | shown rounds =>
      cases rounds with
      | zero => exact ⟨[.onShow], rfl⟩
      | succ rounds => exact ⟨_, rfl⟩

theorem TracedView.Between.repeats {s : TracedView} (hs : s.Between) :
    Repeats roundCallbacks s.callbacks := by
  cases hs with
  | hidden rounds => exact ⟨rounds, List.prefix_rfl⟩
  | shown rounds =>
      refine ⟨rounds + 1, [.onHide, .onDestroy], ?_⟩
      rw [List.replicate_succ', List.flatten_append, List.flatten_singleton,
        List.append_assoc]
      rfl

theorem ContainerView.mVisible_show (view : ContainerView) (created : Bool) :
    (view._show created).1.mVisible = true := by
  unfold ContainerView._show
  split
  · assumption
  · rfl

/-- The first window that is created is announced twice. -/
theorem callbacksOf_twice {requests : List ViewRequest}
    (hshow : ViewRequest.requestShow ∈ requests) :
    [.onCreate, .onCreate] <+: callbacksOf requests := by
  obtain ⟨before, after, rfl⟩ := List.append_of_mem hshow
  have hbefore := (TracedView.Between.hidden 0).dispatchAll before
  have htwice := (hbefore.dispatch .requestShow).twice
    (ContainerView.mVisible_show _ true)
  rw [callbacksOf, TracedView.dispatchAll, List.foldl_append, List.foldl_cons]
  exact htwice.trans (TracedView.callbacks_dispatchAll _ after)

theorem callbacksOf_eq_nil {requests : List ViewRequest}
    (hshow : ViewRequest.requestShow ∉ requests) : callbacksOf requests = [] := by
  have hhide : requests = List.replicate requests.length .requestHide := by
    apply List.eq_replicate_of_mem
    intro request hrequest
    cases request with
    | requestShow => exact absurd hrequest hshow
    | requestHide => rfl
  rw [hhide]
  generalize requests.length = n
  induction n with
  | zero => rfl
  | succ n ih => exact ih

/-- The callbacks name every creation twice: they are a prefix of repetitions of
`onCreate`, `onCreate`, `onShow`, `onHide`, `onDestroy`. -/
theorem callbacksOf_repeats (requests : List ViewRequest) :
    Repeats roundCallbacks (callbacksOf requests) :=
  ((TracedView.Between.hidden 0).dispatchAll requests).repeats

/-- The callbacks are a prefix of repetitions of `onCreate`, `onShow`, `onHide`,
`onDestroy` exactly when no show is requested. -/
theorem callbacks_bracketed_iff (requests : List ViewRequest) :
    Repeats [.onCreate, .onShow, .onHide, .onDestroy] (callbacksOf requests) ↔
      ViewRequest.requestShow ∉ requests := by
  constructor
  · rintro ⟨n, hrepeats⟩ hshow
    have htwice := (callbacksOf_twice hshow).trans hrepeats
    cases n with
    | zero => simp at htwice
    | succ n => simp [List.replicate_succ] at htwice
  · intro hshow
    rw [callbacksOf_eq_nil hshow]
    exact ⟨0, List.prefix_rfl⟩

/-- Showing a container once creates its window with two `onCreate`. -/
theorem shownOnce_not_bracketed :
    ¬ Repeats [.onCreate, .onShow, .onHide, .onDestroy]
      (callbacksOf [.requestShow]) := by
  rintro ⟨n, hrepeats⟩
  have hcallbacks : callbacksOf [.requestShow] =
      [.onCreate, .onCreate, .onShow] := by decide
  rw [hcallbacks] at hrepeats
  cases n with
  | zero => simp at hrepeats
  | succ n => simp [List.replicate_succ] at hrepeats

/-! ### Failures of `CreateWindow` -/

/-- What is to hold between two events: the two notions of visibility agree, and
there is a window exactly when the container is visible. -/
structure ContainerView.Agrees (view : ContainerView) : Prop where
  visible : view.mVisible = view.isVisible
  window : view.mWindow ≠ none ↔ view.mVisible = true

/-- The event does not make an attempt to create a window that fails. -/
def ViewEvent.NoFailure (view : ContainerView) (event : ViewEvent) : Prop :=
  event = .requestShow false → view.mVisible = true

def ViewEvent.step (view : ContainerView) (event : ViewEvent) :
    Option ContainerView :=
  some (event.dispatch view).1

/-- A hidden container has no window, so that a show attempts to create one. -/
theorem ContainerView.Agrees.eq_none {view : ContainerView}
    (hview : view.Agrees) (hhidden : view.mVisible = false) :
    view.mWindow = none := by
  by_contra hwindow
  rw [hview.window.mp hwindow] at hhidden
  exact Bool.noConfusion hhidden

theorem ContainerView.Agrees.show_iff {view : ContainerView}
    (hview : view.Agrees) (created : Bool) :
    (view._show created).1.Agrees ↔
      (ViewEvent.requestShow created).NoFailure view := by
  cases hvisible : view.mVisible with
  | true => simp [ContainerView._show, ViewEvent.NoFailure, hvisible, hview]
  | false =>
      have hnone := hview.eq_none hvisible
      have hready : view.createLazily created =
          ({ view with mWindow := some (Window.init created
              view.onCreateWindow).1 },
            (Window.init created view.onCreateWindow).2 ++
              view.notify .onCreate) := by
        rw [ContainerView.createLazily, hnone]
      simp only [ContainerView._show, hvisible, hready, Bool.false_eq_true,
        ↓reduceIte, Option.map_some]
      cases created with
      | true =>
          refine iff_of_true ⟨rfl, ?_⟩ (fun hfailed => by simp at hfailed)
          simp
      | false =>
          refine iff_of_false (fun hview => ?_) (fun hguard => ?_)
          · -- the window object has no DirectFB window and is never visible
            exact Bool.noConfusion hview.visible
          · rw [hguard rfl] at hvisible
            exact Bool.noConfusion hvisible

theorem ContainerView.Agrees.hide {view : ContainerView} (hview : view.Agrees) :
    view._hide.1.Agrees := by
  cases hvisible : view.mVisible with
  | false => simpa [ContainerView._hide, hvisible] using hview
  | true =>
      have hsome := hview.window.mpr hvisible
      have hshown : view.isVisible = true := hview.visible.symm.trans hvisible
      cases hwindow : view.mWindow with
      | none => exact absurd hwindow hsome
      | some window =>
          rw [ContainerView.isVisible, hwindow] at hshown
          simp only [ContainerView._hide, hvisible, hwindow, hshown,
            Bool.not_true, Bool.false_eq_true, ↓reduceIte]
          exact ⟨rfl, by simp⟩

theorem ContainerView.Agrees.dispatch_iff {view : ContainerView}
    (hview : view.Agrees) (event : ViewEvent) :
    (event.dispatch view).1.Agrees ↔ event.NoFailure view := by
  cases event with
  | requestShow created => exact hview.show_iff created
  | requestHide =>
      exact iff_of_true hview.hide fun hfailed => by simp at hfailed

theorem ContainerView.new_agrees (listener : Bool) :
    (ContainerView.new listener).Agrees :=
  ⟨rfl, by simp [ContainerView.new]⟩

/-- The visibility state is consistent after every event of a run exactly when
no show of a hidden container has its `CreateWindow` fail. -/
theorem containerView_agrees_iff (listener : Bool) (events : List ViewEvent) :
    LabelledRun.EachState ViewEvent.step ContainerView.Agrees
        (ContainerView.new listener) events ↔
      LabelledRun.EachStep ViewEvent.step
        (fun view event => event.NoFailure view)
        (ContainerView.new listener) events := by
  apply LabelledRun.eachState_iff_eachStep _ (ContainerView.new_agrees listener)
  intro view event after hview hstep
  obtain rfl := Option.some.inj hstep
  exact hview.dispatch_iff event

/-- A show whose `CreateWindow` fails, a hide and another show, which finds the
window object of the first and does not attempt to create a window. -/
def failedOnce : List ViewEvent :=
  [.requestShow false, .requestHide, .requestShow true]

theorem failedOnce_not_agrees :
    ¬ LabelledRun.EachState ViewEvent.step ContainerView.Agrees
      (ContainerView.new true) failedOnce := by
  intro hrun
  have hlast := ((hrun.2 _ rfl).2 _ rfl).2 _ rfl
  exact Bool.noConfusion hlast.visible

end MyDirectFB

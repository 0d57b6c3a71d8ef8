/-
The resources behind a container: the objects it allocates (ui/directfb/image.cpp,
ui/directfb/window.cpp, color.cpp) and what these get from DirectFB.  DirectFB is
initialised: its interface and its layer are there.  A call of DirectFB that fails
hands nothing out; which calls succeed is arbitrary, but for `GetSurfaceDescription`,
which does.  Sizes and pixels do not matter here and are left out.
-/
import MyDirectFB.Lib.HandleOwnership
import MyDirectFB.Lib.Triple

namespace MyDirectFB

/-- What is allocated with `new` or handed out by DirectFB. -/
inductive ResourceKind where
  | windowObject
  | imageObject
  | colorObject
  | window
  | windowSurface
  | imageProvider
  | imageSurface
deriving Repr, DecidableEq

/-- What a `Window` gets from DirectFB, and its destructor does not release. -/
def ResourceKind.ofWindow : ResourceKind → Bool
  | .window | .windowSurface => true
  | _ => false

structure Resource where
  kind : ResourceKind
  serial : Nat
deriving Repr, DecidableEq

/-- A pointer to a resource of a kind. -/
structure Pointer (kind : ResourceKind) where
  serial : Nat
deriving Repr, DecidableEq

def Pointer.resource {kind : ResourceKind} (pointer : Pointer kind) : Resource :=
  ⟨kind, pointer.serial⟩

inductive DfbFault where
  /-- A resource is released that is not open. -/
  | notOpen (resource : Resource)
  /-- A function is called through a surface that is NULL. -/
  | nullSurface
deriving Repr, DecidableEq

/-- The resources, and the number of calls of DirectFB that could have failed.
`unrendered` are the providers of images that no surface was created for. -/
structure Dfb where
  ledger : HandleLedger Resource
  calls : Nat
  unrendered : List Resource
deriving Repr, DecidableEq

def Dfb.init : Dfb :=
  ⟨⟨[], []⟩, 0, []⟩

abbrev DfbM : Type → Type := StateT Dfb (Except DfbFault)

namespace Dfb

/-- A resource that is new. -/
def create (kind : ResourceKind) : DfbM (Pointer kind) := do
  let dfb ← get
  let pointer : Pointer kind := ⟨dfb.ledger.acquired.length⟩
  set { dfb with ledger := dfb.ledger.acquire pointer.resource }
  return pointer

/-- `delete` of an object, or `Release` of an interface. -/
def release {kind : ResourceKind} (pointer : Pointer kind) : DfbM Unit := do
  let dfb ← get
  if pointer.resource ∈ dfb.ledger.opened then
    set { dfb with ledger := dfb.ledger.release pointer.resource }
  else throw (.notOpen pointer.resource)

/-- A pointer that may be NULL is released behind a test. -/
def releaseIfSet {kind : ResourceKind} : Option (Pointer kind) → DfbM Unit
  | none => return
  | some pointer => release pointer

/-- The return in `loadImage` that leaves the provider behind. -/
def leaveBehind (provider : Pointer .imageProvider) : DfbM Unit :=
  modify fun dfb => { dfb with unrendered := provider.resource :: dfb.unrendered }

variable (succeeds : Nat → Bool)

/-- Whether the next call succeeds. -/
def call : DfbM Bool := do
  let dfb ← get
  set { dfb with calls := dfb.calls + 1 }
  return succeeds dfb.calls

/-- A call that hands out a resource if it succeeds. -/
def tryCreate (kind : ResourceKind) : DfbM (Option (Pointer kind)) := do
  if ← call succeeds then
    return some (← create kind)
  else return none

end Dfb

open Dfb

variable (succeeds : Nat → Bool)

/-! ### Images -/

/-- An `Image`, of which only the surface is kept. -/
structure ImageObject where
  mDFBSurface : Option (Pointer .imageSurface)
deriving Repr, DecidableEq

namespace ImageObject

/-- `Image::loadImage`, with which `getWidth`, `getHeight` and `getDFBSurface`
begin. -/
def loadImage (img : ImageObject) : DfbM ImageObject :=
  match img.mDFBSurface with
  | some _ => return img
  | none => do
      match ← tryCreate succeeds .imageProvider with
      | none => return img
      | some provider =>
          match ← tryCreate succeeds .imageSurface with
          | none =>
              leaveBehind provider
              return img
          | some surface =>
              release provider
              return ⟨some surface⟩

/-- `Image::flush`, the destructor. -/
def flush (img : ImageObject) : DfbM Unit :=
  releaseIfSet img.mDFBSurface

/-- `Image::Image(Image* img, const Rectangle& rect)`: the image with its surface
loaded, and the part of it. -/
def sub (img : ImageObject) : DfbM (ImageObject × ImageObject) := do
  let img ← img.loadImage succeeds
  match img.mDFBSurface with
  | none => throw .nullSurface
  | some _ => return (img, ⟨← tryCreate succeeds .imageSurface⟩)

end ImageObject

/-- An `Image` that was allocated. -/
structure HeapImage where
  this : Pointer .imageObject
  image : ImageObject
deriving Repr, DecidableEq

namespace HeapImage

/-- `new Image(path)`. -/
def new : DfbM HeapImage :=
  return ⟨← create .imageObject, ⟨none⟩⟩

/-- `delete` of an image. -/
def delete (img : HeapImage) : DfbM Unit := do
  img.image.flush
  release img.this

/-- `delete` behind a test for NULL. -/
def deleteIfSet : Option HeapImage → DfbM Unit
  | none => return
  | some img => img.delete

end HeapImage

/-! ### Windows -/

/-- A `Window` that was allocated; `visible` is whether the opacity of its
`mDFBWindow` is not 0. -/
structure WindowObject where
  this : Pointer .windowObject
  mDFBWindow : Option (Pointer .window)
  mDFBSurface : Option (Pointer .windowSurface)
  visible : Bool
deriving Repr, DecidableEq

namespace WindowObject

/-- `new Window`, with `Window::init`. -/
def new : DfbM WindowObject := do
  let this ← create .windowObject
  match ← tryCreate succeeds .window with
  | none => return ⟨this, none, none, false⟩
  | some window =>
      return ⟨this, some window, ← tryCreate succeeds .windowSurface, false⟩

/-- `Window::isVisible`, with a `GetOpacity` that may fail. -/
def isVisible (window : WindowObject) : DfbM Bool :=
  match window.mDFBWindow with
  | none => return false
  | some _ => do
      if ← call succeeds then return window.visible else return false

/-- `SetOpacity`, behind the test for NULL. -/
def setOpacity (window : WindowObject) (visible : Bool) : DfbM WindowObject :=
  match window.mDFBWindow with
  | none => return window
  | some _ => do
      if ← call succeeds then return { window with visible := visible }
      else return window

/-- The size is needed for a coordinate that is missing. -/
def loadIf (missing : Bool) (img : ImageObject) : DfbM ImageObject :=
  if missing then img.loadImage succeeds else return img

/-- `Window::drawImage`; without a coordinate the image is centred, which needs its
size. -/
def drawImage (window : WindowObject) (img : ImageObject) (centreX centreY : Bool) :
    DfbM ImageObject :=
  match window.mDFBSurface with
  | none => return img
  | some _ => do
      let img ← loadIf succeeds centreX img
      let img ← loadIf succeeds centreY img
      img.loadImage succeeds

/-- `delete` of a window: `deinit` releases nothing. -/
def delete (window : WindowObject) : DfbM Unit :=
  release window.this

/-- `delete` behind a test for NULL. -/
def deleteIfSet : Option WindowObject → DfbM Unit
  | none => return
  | some window => window.delete

end WindowObject

/-- `Window::show`. -/
def WindowObject.show (window : WindowObject) : DfbM WindowObject := do
  if ← window.isVisible succeeds then return window
  else window.setOpacity succeeds true

/-- `Window::hide`. -/
def WindowObject.hide (window : WindowObject) : DfbM WindowObject :=
  window.setOpacity succeeds false

end MyDirectFB

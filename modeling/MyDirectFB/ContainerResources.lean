/-
The resources of a container from its construction to its destruction
(ui/directfb/container.cpp): in whatever order it is shown, hidden and given
backgrounds in between, and whichever calls of DirectFB fail, nothing is released
twice, and what is left open in the end are the windows and their surfaces, the
providers of images without a surface, and the last background if it is a colour.
Widgets and the focus, which draw on the window only, have no part in it.
-/
import MyDirectFB.DfbOwners

namespace MyDirectFB

open Dfb

/-- The data members of `Container` that hold resources, and `mVisible`. -/
structure ContainerObject where
  mVisible : Bool
  mWindow : Option WindowObject
  mBgImg : Option HeapImage
  mBgColor : Option (Pointer .colorObject)
deriving Repr, DecidableEq

/-- What is asked of a container: the events of its pipe, and the calls for its
background.  Of a rectangle only counts whether it is valid, and whether its
coordinates are negative. -/
inductive ContainerRequest where
  | show
  | hide
  | setBackgroundColor
  | setBackgroundImage
  | redrawBackground (isValid negativeX negativeY : Bool)
deriving Repr, DecidableEq

namespace ContainerObject

variable (succeeds : Nat → Bool)

/-- The constructors. -/
def new : ContainerObject :=
  ⟨false, none, none, none⟩

/-- The lazy creation in `_show`. -/
def readyWindow (c : ContainerObject) : DfbM WindowObject :=
  match c.mWindow with
  | some window => return window
  | none => WindowObject.new succeeds

/-- `Container::_show`. -/
def _show (c : ContainerObject) : DfbM ContainerObject :=
  if c.mVisible then return c
  else do
    let window ← c.readyWindow succeeds
    let window ← window.show succeeds
    return { c with mWindow := some window, mVisible := true }

/-- `Container::_hide`. -/
def _hide (c : ContainerObject) : DfbM ContainerObject :=
  if !c.mVisible then return c
  else
    match c.mWindow with
    | none => return { c with mVisible := false }
    | some window => do
        if ← window.isVisible succeeds then
          (← window.hide succeeds).delete
          return { c with mVisible := false, mWindow := none }
        else return { c with mVisible := false }

/-- The first part of both `setBackground`, which deletes the background. -/
def deleteBackground (c : ContainerObject) : DfbM Unit := do
  HeapImage.deleteIfSet c.mBgImg
  releaseIfSet c.mBgColor

/-- `Container::setBackground(const Color&, bool)`. -/
def setBackgroundColor (c : ContainerObject) : DfbM ContainerObject := do
  c.deleteBackground
  let color ← create .colorObject
  return { c with mBgImg := none, mBgColor := some color }

/-- `Container::setBackground(const Image&, bool)`. -/
def setBackgroundImage (c : ContainerObject) : DfbM ContainerObject := do
  c.deleteBackground
  let img ← HeapImage.new
  match c.mWindow with
  | none => return { c with mBgImg := some img, mBgColor := none }
  | some window =>
      let image ← window.drawImage succeeds img.image true true
      return { c with mBgImg := some ⟨img.this, image⟩, mBgColor := none }

/-- `Container::redrawBackground`. -/
def redrawBackground (c : ContainerObject) (isValid negativeX negativeY : Bool) :
    DfbM ContainerObject :=
  match c.mWindow, c.mBgImg with
  | some window, some img =>
      if isValid then do
        let (image, imgToRedraw) ← img.image.sub succeeds
        let imgToRedraw ← window.drawImage succeeds imgToRedraw negativeX negativeY
        imgToRedraw.flush
        return { c with mBgImg := some ⟨img.this, image⟩ }
      else return c
  | _, _ => return c

/-- `delete mBgColor` in the destructor, behind a test of `mBgImg`. -/
def deleteColor (c : ContainerObject) : DfbM Unit :=
  if c.mBgImg.isSome then releaseIfSet c.mBgColor else return

/-- The destructor. -/
def destroy (c : ContainerObject) : DfbM Unit := do
  HeapImage.deleteIfSet c.mBgImg
  c.deleteColor
  WindowObject.deleteIfSet c.mWindow

def perform (c : ContainerObject) : ContainerRequest → DfbM ContainerObject
  | .show => c._show succeeds
  | .hide => c._hide succeeds
  | .setBackgroundColor => c.setBackgroundColor
  | .setBackgroundImage => c.setBackgroundImage succeeds
  | .redrawBackground isValid negativeX negativeY =>
      c.redrawBackground succeeds isValid negativeX negativeY

/-- A container from its constructor to its destructor. -/
def lifetime (requests : List ContainerRequest) : DfbM Unit := do
  let c ← requests.foldlM (perform succeeds) new
  c.destroy

/-! ### Owners -/

def background (c : ContainerObject) : Multiset Resource :=
  HeapImage.ownedIfSet c.mBgImg + held c.mBgColor

def owned (c : ContainerObject) : Multiset Resource :=
  WindowObject.ownedIfSet c.mWindow + c.background

variable {succeeds : Nat → Bool} (c : ContainerObject)

theorem transfers_readyWindow :
    Transfers (c.readyWindow succeeds) (WindowObject.ownedIfSet c.mWindow)
      WindowObject.owned := by
  obtain ⟨mVisible, _ | window, mBgImg, mBgColor⟩ := c
  · exact WindowObject.transfers_new
  · exact Transfers.pure

theorem transfers_show : Transfers (c._show succeeds) c.owned owned := by
  obtain ⟨_ | _, mWindow, mBgImg, mBgColor⟩ := c
  · refine Transfers.bind ((transfers_readyWindow _).frame _) fun window => ?_
    exact Transfers.bind (window.transfers_show.frame _) fun window => Transfers.pure
  · exact Transfers.pure

theorem transfers_hide : Transfers (c._hide succeeds) c.owned owned := by
  obtain ⟨_ | _, _ | window, mBgImg, mBgColor⟩ := c
  · exact Transfers.pure
  · exact Transfers.pure
  · exact Transfers.pure
  · refine Transfers.bind (window.transfers_isVisible _) fun visible => ?_
    cases visible with
    | false => exact Transfers.pure
    | true =>
        refine Transfers.bind ((window.transfers_setOpacity false).frame _)
          fun window => ?_
        exact Transfers.bind (window.transfers_delete.frame _) fun _ => Transfers.pure

theorem transfers_deleteBackground :
    Transfers c.deleteBackground c.background fun _ => 0 := by
  have himage := (HeapImage.transfers_deleteIfSet c.mBgImg).frame (held c.mBgColor)
  exact Transfers.bind (himage.of_eq rfl fun _ => zero_add _) fun _ =>
    transfers_releaseIfSet c.mBgColor rfl

/-- The part of `setBackground` that both begin with. -/
theorem transfers_withoutBackground :
    Transfers c.deleteBackground c.owned fun _ =>
      WindowObject.ownedIfSet c.mWindow :=
  (c.transfers_deleteBackground.frame _).of_eq (add_comm _ _) fun _ => zero_add _

theorem transfers_setBackgroundColor :
    Transfers c.setBackgroundColor c.owned owned := by
  refine Transfers.bind c.transfers_withoutBackground fun _ => ?_
  have hcreate := (@transfers_create .colorObject).frame
    (WindowObject.ownedIfSet c.mWindow)
  refine Transfers.bind (hcreate.of_eq (zero_add _).symm fun color => ?_)
    fun color => Transfers.pure
  rw [owned, background, add_comm]
  exact congrArg _ (zero_add _).symm

theorem transfers_setBackgroundImage :
    Transfers (c.setBackgroundImage succeeds) c.owned owned := by
  obtain ⟨mVisible, mWindow, mBgImg, mBgColor⟩ := c
  refine Transfers.bind (transfers_withoutBackground _) fun _ => ?_
  have hnew := HeapImage.transfers_new.frame (WindowObject.ownedIfSet mWindow)
  refine Transfers.bind (hnew.of_eq (zero_add _).symm fun _ => rfl) fun img => ?_
  have hset (img : HeapImage) : Transfers
      (pure ⟨mVisible, mWindow, some img, none⟩)
      (img.owned + WindowObject.ownedIfSet mWindow) owned := by
    refine Transfers.pure.of_eq ?_ fun _ => rfl
    rw [owned, background, add_comm]
    exact congrArg _ (add_zero _).symm
  cases mWindow with
  | none => exact hset img
  | some window =>
      have hdraw := (@WindowObject.transfers_drawImage succeeds window img.image true
        true).frame ({img.this.resource} + window.owned)
      refine Transfers.bind (hdraw.of_eq ?_ fun image => ?_) fun image =>
        hset ⟨img.this, image⟩
      · rw [HeapImage.owned, add_assoc, add_left_comm]
        rfl
      · rw [HeapImage.owned, add_assoc, add_left_comm]
        rfl

theorem transfers_redrawBackground (isValid negativeX negativeY : Bool) :
    Transfers (c.redrawBackground succeeds isValid negativeX negativeY) c.owned
      owned := by
  obtain ⟨mVisible, _ | window, _ | img, mBgColor⟩ := c
  · exact Transfers.pure
  · exact Transfers.pure
  · exact Transfers.pure
  · cases isValid with
    | false => exact Transfers.pure
    | true =>
        have hsub := (@ImageObject.transfers_sub succeeds img.image).frame
          (window.owned + ({img.this.resource} + held mBgColor))
        refine Transfers.bind (hsub.of_eq ?_ fun _ => rfl) fun ⟨image, part⟩ => ?_
        · simp only [owned, background, WindowObject.ownedIfSet,
            HeapImage.ownedIfSet, HeapImage.owned]
          ac_rfl
        have hdraw := (@WindowObject.transfers_drawImage succeeds window part negativeX
          negativeY).frame
            (image.owned + (window.owned + ({img.this.resource} + held mBgColor)))
        refine Transfers.bind (hdraw.of_eq ?_ fun _ => rfl) fun part => ?_
        · ac_rfl
        refine Transfers.bind (part.transfers_flush.frame _) fun _ => ?_
        refine Transfers.pure.of_eq ?_ fun _ => rfl
        simp only [zero_add, owned, background, WindowObject.ownedIfSet,
          HeapImage.ownedIfSet, HeapImage.owned]
        ac_rfl

theorem transfers_perform (request : ContainerRequest) :
    Transfers (c.perform succeeds request) c.owned owned := by
  cases request with
  | «show» => exact c.transfers_show
  | hide => exact c.transfers_hide
  | setBackgroundColor => exact c.transfers_setBackgroundColor
  | setBackgroundImage => exact c.transfers_setBackgroundImage
  | redrawBackground isValid negativeX negativeY =>
      exact c.transfers_redrawBackground isValid negativeX negativeY

/-- A colour stays without an owner. -/
theorem transfers_destroy (hc : c.mBgImg = none ∨ c.mBgColor = none) :
    Transfers c.destroy c.owned fun _ => held c.mBgColor := by
  obtain ⟨mVisible, mWindow, mBgImg, mBgColor⟩ := c
  have hcolor : Transfers (deleteColor ⟨mVisible, mWindow, mBgImg, mBgColor⟩)
      (WindowObject.ownedIfSet mWindow + held mBgColor)
      fun _ => WindowObject.ownedIfSet mWindow + held mBgColor := by
    cases mBgImg with
    | none => exact @Transfers.pure Unit (fun _ => _) ⟨⟩
    | some img =>
        obtain rfl : mBgColor = none := hc.resolve_left (Option.some_ne_none img)
        exact @Transfers.pure Unit (fun _ => _) ⟨⟩
  have himage := (HeapImage.transfers_deleteIfSet mBgImg).frame
    (WindowObject.ownedIfSet mWindow + held mBgColor)
  have hwindow := (WindowObject.transfers_deleteIfSet mWindow).frame (held mBgColor)
  refine Transfers.bind (himage.of_eq ?_ fun _ => zero_add _) fun _ =>
    Transfers.bind hcolor fun _ => hwindow.of_eq rfl fun _ => zero_add _
  exact add_left_comm _ _ _

end ContainerObject

/-! ### The background -/

inductive BackgroundKind where
  | color
  | image
deriving Repr, DecidableEq

/-- The background that a request sets. -/
def ContainerRequest.background? : ContainerRequest → Option BackgroundKind
  | .setBackgroundColor => some .color
  | .setBackgroundImage => some .image
  | _ => none

/-- The background that was set last. -/
def lastBackground (requests : List ContainerRequest) : Option BackgroundKind :=
  (requests.filterMap ContainerRequest.background?).getLast?

theorem lastBackground_append (requests : List ContainerRequest)
    (request : ContainerRequest) :
    lastBackground (requests ++ [request]) =
      request.background?.or (lastBackground requests) := by
  cases hrequest : request.background? with
  | none => simp [lastBackground, hrequest]
  | some kind => simp [lastBackground, hrequest]

namespace ContainerObject

variable {succeeds : Nat → Bool} {c : ContainerObject} {kind : Option BackgroundKind}

/-- Of the two pointers to a background one at most is set. -/
def HasBackground (c : ContainerObject) : Option BackgroundKind → Prop
  | none => c.mBgImg = none ∧ c.mBgColor = none
  | some .color => c.mBgImg = none ∧ c.mBgColor ≠ none
  | some .image => c.mBgImg ≠ none ∧ c.mBgColor = none

/-- A program from which a container with such a background comes. -/
abbrev GivesBackground (program : DfbM ContainerObject)
    (kind : Option BackgroundKind) : Prop :=
  Triple (fun _ => True) program (fun c _ => c.HasBackground kind) fun _ => True

theorem HasBackground.show (hc : c.HasBackground kind) :
    GivesBackground (c._show succeeds) kind := by
  obtain ⟨_ | _, mWindow, mBgImg, mBgColor⟩ := c
  · exact Triple.bind Triple.trivial fun window =>
      Triple.bind Triple.trivial fun window => Triple.pure fun _ _ => hc
  · exact Triple.pure fun _ _ => hc

theorem HasBackground.hide (hc : c.HasBackground kind) :
    GivesBackground (c._hide succeeds) kind := by
  obtain ⟨_ | _, _ | window, mBgImg, mBgColor⟩ := c
  · exact Triple.pure fun _ _ => hc
  · exact Triple.pure fun _ _ => hc
  · exact Triple.pure fun _ _ => hc
  · refine Triple.bind Triple.trivial fun visible => ?_
    cases visible with
    | false => exact Triple.pure fun _ _ => hc
    | true =>
        exact Triple.bind Triple.trivial fun window =>
          Triple.bind Triple.trivial fun _ => Triple.pure fun _ _ => hc

theorem HasBackground.redrawBackground (hc : c.HasBackground kind)
    (isValid negativeX negativeY : Bool) :
    GivesBackground (c.redrawBackground succeeds isValid negativeX negativeY) kind := by
  obtain ⟨mVisible, _ | window, _ | img, mBgColor⟩ := c
  · exact Triple.pure fun _ _ => hc
  · exact Triple.pure fun _ _ => hc
  · exact Triple.pure fun _ _ => hc
  · cases isValid with
    | false => exact Triple.pure fun _ _ => hc
    | true =>
        refine Triple.bind Triple.trivial fun ⟨image, part⟩ =>
          Triple.bind Triple.trivial fun part =>
            Triple.bind Triple.trivial fun _ => Triple.pure fun _ _ => ?_
        rcases kind with _ | _ | _
        · exact absurd hc.1 (by simp)
        · exact absurd hc.1 (by simp)
        · exact ⟨by simp, hc.2⟩

theorem HasBackground.perform (hc : c.HasBackground kind)
    (request : ContainerRequest) :
    GivesBackground (c.perform succeeds request) (request.background?.or kind) := by
  cases request with
  | «show» => exact hc.show
  | hide => exact hc.hide
  | setBackgroundColor =>
      exact Triple.bind Triple.trivial fun _ =>
        Triple.bind Triple.trivial fun color =>
          Triple.pure fun _ _ => ⟨rfl, Option.some_ne_none color⟩
  | setBackgroundImage =>
      obtain ⟨mVisible, _ | window, mBgImg, mBgColor⟩ := c
      · exact Triple.bind Triple.trivial fun _ =>
          Triple.bind Triple.trivial fun img =>
            Triple.pure fun _ _ => ⟨Option.some_ne_none img, rfl⟩
      · exact Triple.bind Triple.trivial fun _ =>
          Triple.bind Triple.trivial fun img =>
            Triple.bind Triple.trivial fun image =>
              Triple.pure fun _ _ => ⟨Option.some_ne_none _, rfl⟩
  | redrawBackground isValid negativeX negativeY =>
      exact hc.redrawBackground isValid negativeX negativeY

/-- A container with its background, and the owner of its resources. -/
theorem HasBackground.perform_owns (request : ContainerRequest) :
    Triple (fun dfb => c.HasBackground kind ∧ dfb.Owns (c.owned + 0))
      (c.perform succeeds request)
      (fun c dfb => c.HasBackground (request.background?.or kind) ∧
        dfb.Owns (c.owned + 0)) DfbFault.IsNull :=
  Triple.of_fact fun hc => ((hc.perform request).and
    (c.transfers_perform request 0)).mono (fun _ hdfb => ⟨trivial, hdfb⟩)
      (fun _ _ hafter => hafter) fun _ hfault => hfault.2

theorem HasBackground.not_both (hc : c.HasBackground kind) :
    c.mBgImg = none ∨ c.mBgColor = none := by
  rcases kind with _ | _ | _
  · exact .inl hc.1
  · exact .inl hc.1
  · exact .inr hc.2

/-- The colour that the destructor leaves behind. -/
theorem HasBackground.card_held (hc : c.HasBackground kind) :
    (held c.mBgColor).card = if kind = some .color then 1 else 0 := by
  rcases kind with _ | _ | _
  · rw [hc.2]
    rfl
  · obtain ⟨color, hcolor⟩ := Option.ne_none_iff_exists'.mp hc.2
    rw [hcolor]
    rfl
  · rw [hc.2]
    rfl

end ContainerObject

/-- What a container leaves open: everything that its windows got from DirectFB,
the providers of images that no surface was created for, and the last background
if it is a colour. -/
structure Dfb.LeftBy (requests : List ContainerRequest) (dfb : Dfb) : Prop where
  windows : ∀ r ∈ dfb.ledger.acquired, r.kind.ofWindow = true → r ∈ dfb.ledger.opened
  providers : ∀ r : Resource, r.kind = .imageProvider →
    (r ∈ dfb.ledger.opened ↔ r ∈ dfb.unrendered)
  colors : dfb.ledger.opened.countP (·.kind = .colorObject) =
    if lastBackground requests = some .color then 1 else 0
  others : ∀ r ∈ dfb.ledger.opened, r.kind.ofWindow = true ∨
    r.kind = .imageProvider ∨ r.kind = .colorObject

theorem Dfb.Owns.leftBy {dfb : Dfb} {color : Option (Pointer .colorObject)}
    (hdfb : dfb.Owns (held color)) {requests : List ContainerRequest}
    (hcolor : (held color).card = if lastBackground requests = some .color then 1
      else 0) : dfb.LeftBy requests := by
  obtain ⟨windows, haccounts, hwindows⟩ := hdfb.accounts
  have hmem (r : Resource) : r ∈ dfb.ledger.opened ↔
      r ∈ held color ∨ r ∈ windows ∨ r ∈ dfb.unrendered := by
    rw [haccounts.mem_opened, Multiset.mem_add, Multiset.mem_coe]
  have hnoColor : ((windows + (dfb.unrendered : Multiset Resource)).countP
      (·.kind = .colorObject)) = 0 := by
    refine Multiset.countP_eq_zero.mpr fun r hr hkind => ?_
    rcases Multiset.mem_add.mp hr with hr | hr
    · exact absurd (hwindows r hr) (by rw [hkind]; decide)
    · exact absurd (hdfb.unrendered r hr) (by rw [hkind]; decide)
  refine ⟨hdfb.kept, fun r hkind => ?_, ?_, fun r hr => ?_⟩
  · rw [hmem]
    refine ⟨fun hr => ?_, fun hr => .inr (.inr hr)⟩
    rcases hr with hr | hr | hr
    · exact absurd (kind_of_mem_held hr) (by rw [hkind]; decide)
    · exact absurd (hwindows r hr) (by rw [hkind]; decide)
    · exact hr
  · rw [← Multiset.coe_countP, haccounts.opened, Multiset.countP_add, hnoColor,
      add_zero, ← hcolor]
    exact Multiset.countP_eq_card.mpr fun r hr => kind_of_mem_held hr
  · rcases (hmem r).mp hr with hr | hr | hr
    · exact .inr (.inr (kind_of_mem_held hr))
    · exact .inl (hwindows r hr)
    · exact .inr (.inl (hdfb.unrendered r hr))

/-- Whatever of this is requested and whichever calls fail, the only fault in the life
of a container is a call through the surface of an image that could not be loaded; and
without it, that is what the container leaves open. -/
theorem container_leaves (succeeds : Nat → Bool) (requests : List ContainerRequest) :
    match ContainerObject.lifetime succeeds requests Dfb.init with
    | .ok (_, dfb) => dfb.LeftBy requests
    | .error fault => fault = .nullSurface := by
  have hrequests := @Triple.foldlM _ _ _ _ DfbFault.IsNull
    (fun done c dfb => c.HasBackground (lastBackground done) ∧ dfb.Owns (c.owned + 0))
    (ContainerObject.perform succeeds)
    (fun done c request => by
      rw [lastBackground_append]
      exact ContainerObject.HasBackground.perform_owns request)
    [] ContainerObject.new requests
  have hlifetime : Triple (fun dfb => (ContainerObject.new.HasBackground
        (lastBackground [])) ∧ dfb.Owns (ContainerObject.new.owned + 0))
      (ContainerObject.lifetime succeeds requests)
      (fun _ dfb => dfb.LeftBy requests) DfbFault.IsNull := by
    refine Triple.bind hrequests fun c => Triple.of_fact fun hc => ?_
    refine (c.transfers_destroy hc.not_both 0).mono (fun _ hdfb => hdfb)
      (fun _ dfb hdfb => ?_) fun _ hfault => hfault
    rw [add_zero] at hdfb
    exact hdfb.leftBy hc.card_held
  cases hrun : ContainerObject.lifetime succeeds requests Dfb.init with
  | ok result => exact hlifetime.of_ok ⟨⟨rfl, rfl⟩, Dfb.init_owns⟩ hrun
  | error fault => exact hlifetime.of_error ⟨⟨rfl, rfl⟩, Dfb.init_owns⟩ hrun

/-- A container that was shown twice leaves two windows behind, and its colour. -/
example : ((ContainerObject.lifetime (fun _ => true)
      [.show, .setBackgroundImage, .hide, .setBackgroundColor, .show] Dfb.init).map
        fun result => result.2.ledger.opened.map Resource.kind).toOption =
    some [.windowSurface, .window, .colorObject, .windowSurface, .window] := by
  decide +kernel

end MyDirectFB

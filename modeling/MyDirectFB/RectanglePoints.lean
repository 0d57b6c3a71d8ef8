/-
Points and pixels of a rectangle (ui/directfb/rectangle.cpp, window.cpp).  The test of
a point closes the far edges of the rectangle; the test of a rectangle, and what the
window draws and flips, leave them out.
-/
import MyDirectFB.ContainerBackground

namespace MyDirectFB

namespace Rectangle

/-- `contains(int x, int y)`.  It has no value where a sum overflows. -/
def containsPoint (self : Rectangle) (x y : Int32) : Option Bool :=
  if x ≥ self.mX then do
    let right ← CheckedInt.add self.mX self.mWidth
    if x ≤ right then
      if y ≥ self.mY then do
        let bottom ← CheckedInt.add self.mY self.mHeight
        some (y ≤ bottom)
      else some false
    else some false
  else some false

/-- The rectangle of one pixel. -/
def unit (x y : Int32) : Rectangle := ⟨x, y, 1, 1⟩

end Rectangle

/-- A region of DirectFB; its far edges belong to it. -/
structure DFBRegion where
  x1 : Int32
  y1 : Int32
  x2 : Int32
  y2 : Int32
deriving Repr, DecidableEq

def DFBRegion.Has (region : DFBRegion) (p : Int × Int) : Prop :=
  (region.x1.toInt ≤ p.1 ∧ p.1 ≤ region.x2.toInt) ∧
    region.y1.toInt ≤ p.2 ∧ p.2 ≤ region.y2.toInt

/-- The region that `update(rect)` flips; there is none without a surface.  It has no
value where a sum overflows. -/
def PaintedWindow.update (window : PaintedWindow) (rect : Rectangle) :
    Option (Option DFBRegion) :=
  match window.mDFBSurface with
  | none => some none
  | some _ => do
      let right ← CheckedInt.add rect.mX rect.mWidth
      let x2 ← CheckedInt.sub right 1
      let bottom ← CheckedInt.add rect.mY rect.mHeight
      let y2 ← CheckedInt.sub bottom 1
      some (some ⟨rect.mX, rect.mY, x2, y2⟩)

namespace Rectangle

/-! ### Pixels -/

/-- `drawRectangle` fills the pixel: whatever is drawn on, and in whichever colour. -/
def Fills (rect : Rectangle) (p : Int × Int) : Prop :=
  ∀ (window : PaintedWindow) (surface : Surface) (color : Color),
    window.mDFBSurface = some surface → (surface p).isSome →
    ∃ after, (window.drawRectangle rect color).mDFBSurface = some after ∧
      after p = some color

/-- `update(rect)` flips the pixel. -/
def Flips (rect : Rectangle) (p : Int × Int) : Prop :=
  ∀ window : PaintedWindow, window.mDFBSurface.isSome →
    ∃ region, window.update rect = some (some region) ∧ region.Has p

/-- The point is on the right or on the lower edge of the rectangle, which are the
first column and row that it has no pixel in. -/
def OnFarEdge (rect : Rectangle) (p : Int × Int) : Prop :=
  ((rect.mX.toInt ≤ p.1 ∧ p.1 ≤ rect.right) ∧
    rect.mY.toInt ≤ p.2 ∧ p.2 ≤ rect.bottom) ∧
  (p.1 = rect.right ∨ p.2 = rect.bottom)

instance (rect : Rectangle) : DecidablePred rect.OnFarEdge :=
  fun _ => inferInstanceAs (Decidable (_ ∧ _))

/-- The pixel at a point. -/
def pixelAt (x y : Int32) : Int × Int := (x.toInt, y.toInt)

/-- The two tests agree on the point, with each other and with the pixels that are
filled and flipped. -/
structure PointAgrees (rect : Rectangle) (x y : Int32) : Prop where
  contained : rect.containsPoint x y = some true ↔
    rect.contains (unit x y) = some true
  filled : rect.containsPoint x y = some true ↔ rect.Fills (pixelAt x y)
  flipped : rect.containsPoint x y = some true ↔ rect.Flips (pixelAt x y)

/-- What the test of a point says of two rectangles: it agrees with their pixels, is
not true of both if they share none, and is true of their union if of one of them. -/
structure PairAgrees (a b : Rectangle) (x y : Int32) : Prop where
  left : a.isValid = true → a.PointAgrees x y
  right : b.isValid = true → b.PointAgrees x y
  apart : a.isValid = true → b.isValid = true → (∀ p, ¬ (a.Covers p ∧ b.Covers p)) →
    ¬ (a.containsPoint x y = some true ∧ b.containsPoint x y = some true)
  united : ∀ u, a.united b = some u → u.isValid = true →
    a.containsPoint x y = some true ∨ b.containsPoint x y = some true →
    u.containsPoint x y = some true

variable {a b rect u : Rectangle} {x y : Int32} {p : Int × Int}

theorem Covers.isValid (hp : rect.Covers p) : rect.isValid = true := by
  simp only [Covers, Rectangle.right, Rectangle.bottom] at hp
  exact isValid_iff.mpr ⟨by omega, by omega⟩

theorem Covers.not_onFarEdge (hp : rect.Covers p) : ¬ rect.OnFarEdge p := by
  simp only [Covers, OnFarEdge] at hp ⊢
  omega

/-- The test of a point closes all four edges. -/
theorem containsPoint_eq_some_true (hfit : rect.EdgesFit) :
    rect.containsPoint x y = some true ↔
      (rect.mX.toInt ≤ x.toInt ∧ x.toInt ≤ rect.right) ∧
        rect.mY.toInt ≤ y.toInt ∧ y.toInt ≤ rect.bottom := by
  obtain ⟨right, hright, hrightEq⟩ := add_mX_mWidth hfit
  obtain ⟨bottom, hbottom, hbottomEq⟩ := add_mY_mHeight hfit
  simp only [containsPoint, ge_iff_le, Int32.le_iff_toInt_le, hright, hbottom,
    Option.bind_eq_bind, Option.bind_some, ite_eq_some_true, Option.some.injEq,
    decide_eq_true_eq, hrightEq, hbottomEq, and_assoc]

/-- So it is true of the pixels of the rectangle and of the points on its far edges. -/
theorem containsPoint_iff (hfit : rect.EdgesFit) :
    rect.containsPoint x y = some true ↔
      rect.Covers (pixelAt x y) ∨ rect.OnFarEdge (pixelAt x y) := by
  rw [containsPoint_eq_some_true hfit]
  simp only [Covers, OnFarEdge, pixelAt]
  omega

/-- In terms of the box that a rectangle stands for, the point is in both of its closed
intervals. -/
theorem Spans.containsPoint_iff {box : Box} (hspans : rect.Spans box) :
    rect.containsPoint x y = some true ↔
      (box.1.fst ≤ x.toInt ∧ x.toInt ≤ box.1.snd) ∧
        box.2.fst ≤ y.toInt ∧ y.toInt ≤ box.2.snd := by
  rw [containsPoint_eq_some_true hspans.edgesFit, hspans.left, hspans.right,
    hspans.top, hspans.bottom]

theorem unit_right (x y : Int32) : (unit x y).right = x.toInt + 1 := rfl

theorem unit_bottom (x y : Int32) : (unit x y).bottom = y.toInt + 1 := rfl

/-- The test of a rectangle is true of the pixels alone. -/
theorem contains_unit_iff (hfit : rect.EdgesFit) (hpoint : (unit x y).EdgesFit) :
    rect.contains (unit x y) = some true ↔ rect.Covers (pixelAt x y) := by
  rw [contains_eq_some_true, unit_right, unit_bottom]
  simp only [hfit, hpoint, and_true]
  simp only [Covers, pixelAt, unit]
  omega

theorem fills_iff_covers : rect.Fills p ↔ rect.Covers p := by
  constructor
  · intro hfills
    by_contra hp
    obtain ⟨after, hafter, hcolor⟩ := hfills
      ⟨some fun _ => some Color.RESET, 1, 1⟩ _ ⟨0xFF, 0xFF, 0xFF, 0xFF⟩ rfl rfl
    obtain rfl := Option.some.inj hafter
    have hkept : some Color.RESET = some (⟨0xFF, 0xFF, 0xFF, 0xFF⟩ : Color) :=
      (Picture.paint_of_not_mem hp).symm.trans hcolor
    exact absurd hkept (by decide)
  · intro hp window surface color hsurface hinside
    refine ⟨Picture.paint rect.Covers (fun _ => color) surface, ?_, ?_⟩
    · simp only [PaintedWindow.drawRectangle, hsurface, Option.map_some]
    · obtain ⟨old, hold⟩ := Option.isSome_iff_exists.mp hinside
      rw [Picture.paint_of_mem hp, hold, Option.map_some]

/-- The region that is flipped ends one column and one row before the edges. -/
theorem update_eq_some (hvalid : rect.isValid = true) (hfit : rect.EdgesFit)
    {window : PaintedWindow} (hwindow : window.mDFBSurface.isSome) :
    ∃ x2 y2, window.update rect = some (some ⟨rect.mX, rect.mY, x2, y2⟩) ∧
      x2.toInt = rect.right - 1 ∧ y2.toInt = rect.bottom - 1 := by
  obtain ⟨hwidth, hheight⟩ := isValid_iff.mp hvalid
  obtain ⟨right, hright, hrightEq⟩ := add_mX_mWidth hfit
  obtain ⟨bottom, hbottom, hbottomEq⟩ := add_mY_mHeight hfit
  have hleft := rect.mX.le_toInt
  have htop := rect.mY.le_toInt
  have hrightFit := CheckedInt.fits_iff.mp hfit.1
  have hbottomFit := CheckedInt.fits_iff.mp hfit.2
  have hone : (1 : Int32).toInt = 1 := rfl
  obtain ⟨x2, hx2⟩ : ∃ x2, CheckedInt.sub right 1 = some x2 := by
    refine CheckedInt.exists_ofInt?.mpr (CheckedInt.fits_iff.mpr ?_)
    rw [hrightEq, hone]
    unfold Rectangle.right at hrightFit ⊢
    omega
  obtain ⟨y2, hy2⟩ : ∃ y2, CheckedInt.sub bottom 1 = some y2 := by
    refine CheckedInt.exists_ofInt?.mpr (CheckedInt.fits_iff.mpr ?_)
    rw [hbottomEq, hone]
    unfold Rectangle.bottom at hbottomFit ⊢
    omega
  obtain ⟨surface, hsurface⟩ := Option.isSome_iff_exists.mp hwindow
  refine ⟨x2, y2, ?_, ?_, ?_⟩
  · simp only [PaintedWindow.update, hsurface, hright, hx2, hbottom, hy2,
      Option.bind_eq_bind, Option.bind_some]
  · rw [CheckedInt.sub_eq_some.mp hx2, hrightEq, hone]
  · rw [CheckedInt.sub_eq_some.mp hy2, hbottomEq, hone]

theorem flips_iff_covers (hvalid : rect.isValid = true) (hfit : rect.EdgesFit) :
    rect.Flips p ↔ rect.Covers p := by
  have hregion {window : PaintedWindow} (hwindow : window.mDFBSurface.isSome) :
      (∃ region, window.update rect = some (some region) ∧ region.Has p) ↔
        rect.Covers p := by
    obtain ⟨x2, y2, hupdate, hx2, hy2⟩ := update_eq_some hvalid hfit hwindow
    simp only [hupdate, Option.some.injEq, exists_eq_left', DFBRegion.Has, hx2, hy2,
      Covers]
    omega
  constructor
  · intro hflips
    exact (hregion rfl).mp (hflips ⟨some fun _ => none, 1, 1⟩ rfl)
  · exact fun hp window hwindow => (hregion hwindow).mpr hp

/-- The tests agree on a point exactly if it is not on a far edge. -/
theorem pointAgrees_iff (hvalid : rect.isValid = true) (hfit : rect.EdgesFit)
    (hpoint : (unit x y).EdgesFit) :
    rect.PointAgrees x y ↔ ¬ rect.OnFarEdge (pixelAt x y) := by
  constructor
  · intro hagrees hedge
    have hcontains := (containsPoint_iff hfit).mpr (.inr hedge)
    have hcovers := fills_iff_covers.mp (hagrees.filled.mp hcontains)
    exact hcovers.not_onFarEdge hedge
  · intro hedge
    have hcovers : rect.containsPoint x y = some true ↔ rect.Covers (pixelAt x y) := by
      rw [containsPoint_iff hfit, or_iff_left hedge]
    exact ⟨hcovers.trans (contains_unit_iff hfit hpoint).symm,
      hcovers.trans fills_iff_covers.symm,
      hcovers.trans (flips_iff_covers hvalid hfit).symm⟩

/-! ### Two rectangles -/

/-- Two rectangles side by side share no pixel, and both contain the points where they
meet. -/
theorem adjacent_containsPoint (ha : a.isValid = true) (hb : b.isValid = true)
    (haFit : a.EdgesFit) (hbFit : b.EdgesFit) (hmeet : a.right = b.mX.toInt)
    (haRow : a.mY.toInt ≤ y.toInt ∧ y.toInt ≤ a.bottom)
    (hbRow : b.mY.toInt ≤ y.toInt ∧ y.toInt ≤ b.bottom) :
    (∀ p, ¬ (a.Covers p ∧ b.Covers p)) ∧
      a.containsPoint b.mX y = some true ∧ b.containsPoint b.mX y = some true := by
  have haWidth := ValidRectangle.left_le_right ⟨a, ha, haFit⟩
  have hbWidth := ValidRectangle.left_le_right ⟨b, hb, hbFit⟩
  refine ⟨fun p hp => ?_, (containsPoint_eq_some_true haFit).mpr ⟨?_, haRow⟩,
    (containsPoint_eq_some_true hbFit).mpr ⟨⟨Int.le_refl _, hbWidth⟩, hbRow⟩⟩
  · simp only [Covers] at hp
    omega
  · exact ⟨hmeet ▸ haWidth, Int.le_of_eq hmeet.symm⟩

/-- The point is on no far edge of a valid rectangle, and on one of an invalid rectangle
only if it is a pixel of the valid one. -/
structure OffFarEdges (a b : Rectangle) (p : Int × Int) : Prop where
  left : a.isValid = true → ¬ a.OnFarEdge p
  right : b.isValid = true → ¬ b.OnFarEdge p
  leftInvalid : a.isValid = false → b.isValid = true → a.OnFarEdge p → b.Covers p
  rightInvalid : b.isValid = false → a.isValid = true → b.OnFarEdge p → a.Covers p

/-- A rectangle that is not valid contains the points of its far edges. -/
theorem containsPoint_iff_of_invalid (hfit : rect.EdgesFit)
    (hinvalid : rect.isValid = false) :
    rect.containsPoint x y = some true ↔ rect.OnFarEdge (pixelAt x y) := by
  rw [containsPoint_iff hfit]
  refine or_iff_right fun hp => ?_
  rw [hp.isValid] at hinvalid
  cases hinvalid

/-- Where the tests agree, two rectangles that contain a point share its pixel. -/
theorem PointAgrees.covers (hagrees : rect.PointAgrees x y)
    (hcontains : rect.containsPoint x y = some true) : rect.Covers (pixelAt x y) :=
  fills_iff_covers.mp (hagrees.filled.mp hcontains)

/-- What stands for a larger box contains more points. -/
theorem Spans.containsPoint_mono {p q : Box} (ha : a.Spans p) (hu : u.Spans q)
    (hle : p ≤ q) (hcontains : a.containsPoint x y = some true) :
    u.containsPoint x y = some true := by
  obtain ⟨hleft, hright⟩ := NonemptyInterval.le_def.mp hle.1
  obtain ⟨htop, hbottom⟩ := NonemptyInterval.le_def.mp hle.2
  rw [ha.containsPoint_iff] at hcontains
  rw [hu.containsPoint_iff]
  omega

/-- A union of valid rectangles contains the points of both. -/
theorem containsPoint_of_united (ha : a.isValid = true) (hb : b.isValid = true)
    (haFit : a.EdgesFit) (hbFit : b.EdgesFit) (hu : a.united b = some u)
    (hcontains : a.containsPoint x y = some true ∨ b.containsPoint x y = some true) :
    u.containsPoint x y = some true := by
  have hleft := ValidRectangle.spans ⟨a, ha, haFit⟩
  have hright := ValidRectangle.spans ⟨b, hb, hbFit⟩
  have hspans := (united_eq_some_iff hleft hright).mp hu
  rcases hcontains with hpoint | hpoint
  · exact hleft.containsPoint_mono hspans le_sup_left hpoint
  · exact hright.containsPoint_mono hspans le_sup_right hpoint

/-- A union with an invalid rectangle has its points if these are pixels of the valid
one. -/
theorem containsPoint_of_united_invalid (hfit : rect.EdgesFit) (haFit : a.EdgesFit)
    (hinvalid : a.isValid = false)
    (hedge : a.OnFarEdge (pixelAt x y) → rect.Covers (pixelAt x y))
    (hcontains : a.containsPoint x y = some true) :
    rect.containsPoint x y = some true :=
  (containsPoint_iff hfit).mpr
    (.inl (hedge ((containsPoint_iff_of_invalid haFit hinvalid).mp hcontains)))

/-- And conversely, where the tests agree on the valid one. -/
theorem covers_of_united_invalid (hagrees : rect.PointAgrees x y)
    (haFit : a.EdgesFit)
    (hunited : a.containsPoint x y = some true → rect.containsPoint x y = some true)
    (hedge : a.OnFarEdge (pixelAt x y)) : rect.Covers (pixelAt x y) :=
  hagrees.covers (hunited ((containsPoint_iff haFit).mpr (.inr hedge)))

theorem OffFarEdges.containsPoint_united (hoff : a.OffFarEdges b (pixelAt x y))
    (ha : a.EdgesFit) (hb : b.EdgesFit) (hu : a.united b = some u)
    (huValid : u.isValid = true)
    (hcontains : a.containsPoint x y = some true ∨ b.containsPoint x y = some true) :
    u.containsPoint x y = some true := by
  cases hbValid : b.isValid with
  | false =>
      rw [united_of_argument_invalid (Bool.eq_false_iff.mp hbValid)] at hu
      obtain rfl := Option.some.inj hu
      exact hcontains.elim id (containsPoint_of_united_invalid ha hb hbValid
        (hoff.rightInvalid hbValid huValid))
  | true =>
      cases haValid : a.isValid with
      | false =>
          rw [united_of_receiver_invalid (Bool.eq_false_iff.mp haValid) hbValid] at hu
          obtain rfl := Option.some.inj hu
          exact hcontains.elim (containsPoint_of_united_invalid hb ha haValid
            (hoff.leftInvalid haValid hbValid)) id
      | true => exact containsPoint_of_united haValid hbValid ha hb hu hcontains

end Rectangle

open Rectangle in
/-- The test of a point agrees with the test of a rectangle and with what is drawn and
flipped, is never true of two rectangles that share no pixel, and is true of a union if
of a part of it, exactly if the point is off the far edges. -/
theorem pairAgrees_iff (a b : Rectangle) (x y : Int32) (ha : a.EdgesFit)
    (hb : b.EdgesFit) (hpoint : (Rectangle.unit x y).EdgesFit) :
    a.PairAgrees b x y ↔ a.OffFarEdges b (pixelAt x y) := by
  constructor
  · intro hagrees
    refine ⟨fun hvalid => (pointAgrees_iff hvalid ha hpoint).mp (hagrees.left hvalid),
      fun hvalid => (pointAgrees_iff hvalid hb hpoint).mp (hagrees.right hvalid),
      fun hinvalid hvalid hedge => ?_, fun hinvalid hvalid hedge => ?_⟩
    · have hu := united_of_receiver_invalid (Bool.eq_false_iff.mp hinvalid) hvalid
      exact covers_of_united_invalid (hagrees.right hvalid) ha
        (fun hcontains => hagrees.united b hu hvalid (.inl hcontains)) hedge
    · have hu := united_of_argument_invalid (a := a) (Bool.eq_false_iff.mp hinvalid)
      exact covers_of_united_invalid (hagrees.left hvalid) hb
        (fun hcontains => hagrees.united a hu hvalid (.inr hcontains)) hedge
  · intro hoff
    have hleft := fun hvalid => (pointAgrees_iff hvalid ha hpoint).mpr (hoff.left hvalid)
    have hright := fun hvalid =>
      (pointAgrees_iff hvalid hb hpoint).mpr (hoff.right hvalid)
    refine ⟨hleft, hright, fun haValid hbValid hapart hboth => ?_,
      fun u hu huValid hcontains => ?_⟩
    · exact hapart _ ⟨(hleft haValid).covers hboth.1, (hright hbValid).covers hboth.2⟩
    · exact hoff.containsPoint_united ha hb hu huValid hcontains

namespace Rectangle

/-- A pixel of the first of two rectangles of one pixel. -/
theorem pairAgrees_pixel :
    PairAgrees ⟨0, 0, 1, 1⟩ ⟨1, 0, 1, 1⟩ 0 0 :=
  (pairAgrees_iff ⟨0, 0, 1, 1⟩ ⟨1, 0, 1, 1⟩ 0 0 (by decide) (by decide) (by decide)).mpr
    ⟨fun _ => by decide, fun _ => by decide, fun h => absurd h (by decide),
      fun h => absurd h (by decide)⟩

/-- The pixel of the second is a point of both. -/
theorem not_pairAgrees_pixel : ¬ PairAgrees ⟨0, 0, 1, 1⟩ ⟨1, 0, 1, 1⟩ 1 0 := by
  intro hagrees
  obtain ⟨hapart, hboth⟩ := adjacent_containsPoint (a := ⟨0, 0, 1, 1⟩)
    (b := ⟨1, 0, 1, 1⟩) (y := 0) rfl rfl (by decide) (by decide) rfl (by decide)
    (by decide)
  exact hagrees.apart rfl rfl hapart hboth

end Rectangle

end MyDirectFB

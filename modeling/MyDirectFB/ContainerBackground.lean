/-
The background of a container (ui/directfb/container.cpp), with what window.cpp and
image.cpp do to draw it.  The whole background puts an image in the middle of the
window; the part that is drawn again is cut out of the image at the coordinates of the
window.  A surface of DirectFB is a picture; `Blit` copies, since the images have no
pixel that is not opaque.
-/
import MyDirectFB.Lib.Picture
import MyDirectFB.Rectangle
import Mathlib.Algebra.Group.Prod
import Mathlib.Algebra.Group.Int.Defs

namespace MyDirectFB

structure Color where
  mRed : UInt8
  mGreen : UInt8
  mBlue : UInt8
  mAlpha : UInt8
deriving Repr, DecidableEq

def Color.RESET : Color := ⟨0x00, 0x00, 0x00, 0x00⟩

abbrev Surface := Picture (Int × Int) Color

namespace Rectangle

/-- The pixels of a rectangle. -/
def Covers (rect : Rectangle) (p : Int × Int) : Prop :=
  (rect.mX.toInt ≤ p.1 ∧ p.1 < rect.right) ∧ rect.mY.toInt ≤ p.2 ∧ p.2 < rect.bottom

instance (rect : Rectangle) : DecidablePred rect.Covers :=
  fun _ => inferInstanceAs (Decidable (_ ∧ _))

/-- The rectangle of a surface. -/
def ofSize (width height : Int32) : Rectangle := ⟨0, 0, width, height⟩

/-- The rectangle lies inside a surface. -/
def Within (rect : Rectangle) (width height : Int32) : Prop :=
  (0 ≤ rect.mX.toInt ∧ rect.right ≤ width.toInt) ∧
    0 ≤ rect.mY.toInt ∧ rect.bottom ≤ height.toInt

instance (rect : Rectangle) (width height : Int32) :
    Decidable (rect.Within width height) :=
  inferInstanceAs (Decidable (_ ∧ _))

/-- The corner of a rectangle. -/
def corner (rect : Rectangle) : Int × Int := (rect.mX.toInt, rect.mY.toInt)

end Rectangle

/-- An image file that DirectFB can read: its size, and the pixels that it renders to a
surface of a size. -/
structure ImageProvider where
  width : Int32
  height : Int32
  width_pos : 0 < width.toInt
  height_pos : 0 < height.toInt
  renderTo : Int32 → Int32 → Int × Int → Color

structure Image where
  mDFBSurface : Option Surface
  mPath : String
  mWidth : Int32
  mHeight : Int32

namespace Image

/-- `Image(path)`. -/
def ofPath (path : String) : Image := ⟨none, path, -1, -1⟩

/-- `loadImage`; `files` has the images that a provider can be created for. -/
def loadImage (files : String → Option ImageProvider) (img : Image) : Image :=
  match img.mDFBSurface, files img.mPath with
  | some _, _ => img
  | none, none => img
  | none, some provider =>
      let mWidth := if img.mWidth > 0 then img.mWidth else provider.width
      let mHeight := if img.mHeight > 0 then img.mHeight else provider.height
      { img with
        mWidth, mHeight
        mDFBSurface := some (Picture.ofRegion (Rectangle.ofSize mWidth mHeight).Covers
          (provider.renderTo mWidth mHeight)) }

/-- `Image(img, rect)`; without a surface `src` is null and is dereferenced. -/
def sub (files : String → Option ImageProvider) (img : Image) (rect : Rectangle) :
    Option Image :=
  (img.loadImage files).mDFBSurface.map fun src =>
    { mDFBSurface := some (src.cut rect.corner
        (Rectangle.ofSize rect.mWidth rect.mHeight).Covers)
      mPath := ""
      mWidth := rect.mWidth
      mHeight := rect.mHeight }

end Image

/-- A window and its surface. -/
structure PaintedWindow where
  mDFBSurface : Option Surface
  mWidth : Int32
  mHeight : Int32

namespace PaintedWindow

/-- Where `drawImage` puts an extent that is given no coordinate. -/
def centred (extent size : Int32) : Int32 := (extent - size) / 2

def drawImage (files : String → Option ImageProvider) (window : PaintedWindow)
    (img : Option Image) (x y : Int32) : PaintedWindow :=
  match window.mDFBSurface, img with
  | some surface, some img =>
      let loaded := img.loadImage files
      let x := if x < 0 then centred window.mWidth loaded.mWidth else x
      let y := if y < 0 then centred window.mHeight loaded.mHeight else y
      match loaded.mDFBSurface with
      | some source =>
          { window with
            mDFBSurface := some (Picture.blit source (x.toInt, y.toInt) surface) }
      | none => window
  | _, _ => window

def drawRectangle (window : PaintedWindow) (rect : Rectangle) (color : Color) :
    PaintedWindow :=
  { window with
    mDFBSurface := window.mDFBSurface.map (Picture.paint rect.Covers fun _ => color) }

/-- `clear(color)`. -/
def clear (window : PaintedWindow) (color : Color) : PaintedWindow :=
  { window with mDFBSurface := window.mDFBSurface.map (Picture.clear color) }

/-- `clear(rect, color)`. -/
def clearRect (window : PaintedWindow) (rect : Rectangle) (color : Color) :
    PaintedWindow :=
  window.drawRectangle rect color

end PaintedWindow

/-- The window and the background of a container. -/
structure ContainerBackground where
  mWindow : Option PaintedWindow
  mBgImg : Option Image
  mBgColor : Option Color

/-- What `setBackground` is given. -/
inductive Background where
  | color (color : Color)
  | image (img : Image)

namespace ContainerBackground

/-- The two `setBackground`. -/
def setBackground (files : String → Option ImageProvider) (c : ContainerBackground) :
    Background → ContainerBackground
  | .color color =>
      { mBgImg := none
        mBgColor := some color
        mWindow := c.mWindow.map fun window => window.clear color }
  | .image img =>
      let mBgImg := some (Image.ofPath img.mPath)
      { mBgImg
        mBgColor := none
        mWindow := c.mWindow.map fun window => window.drawImage files mBgImg (-1) (-1) }

/-- `redrawBackground`; it has no value where a null pointer is dereferenced. -/
def redrawBackground (files : String → Option ImageProvider) (c : ContainerBackground)
    (rect : Rectangle) : Option ContainerBackground :=
  match c.mWindow with
  | none => some c
  | some window =>
      if !rect.isValid then some c
      else
        let cleared := window.clearRect rect Color.RESET
        match c.mBgImg, c.mBgColor with
        | some mBgImg, _ => do
            let imgToRedraw ← mBgImg.sub files rect
            some { c with
              mWindow := some (cleared.drawImage files (some imgToRedraw) rect.mX rect.mY) }
        | none, some mBgColor =>
            some { c with mWindow := some (cleared.drawRectangle rect mBgColor) }
        | none, none => some { c with mWindow := some cleared }

/-- The pixels of the window. -/
def pixel (c : ContainerBackground) (p : Int × Int) : Option Color :=
  c.mWindow.bind fun window => window.mDFBSurface.bind fun surface => surface p

/-- Whatever is drawn inside a rectangle. -/
def drawInside (c : ContainerBackground) (rect : Rectangle)
    (drawn : Int × Int → Color) : ContainerBackground :=
  { c with
    mWindow := c.mWindow.map fun window =>
      { window with
        mDFBSurface := window.mDFBSurface.map (Picture.paint rect.Covers drawn) } }

/-- The window is cleared. -/
def cleared (c : ContainerBackground) : ContainerBackground :=
  { c with mWindow := c.mWindow.map fun window => window.clear Color.RESET }

/-- The container has a window of the size, with any pixels. -/
def HasWindow (c : ContainerBackground) (width height : Int32) : Prop :=
  ∃ content, c.mWindow = some ⟨some (Picture.ofRegion
    (Rectangle.ofSize width height).Covers content), width, height⟩

/-- After the background is set, drawn over inside the rectangle and drawn again
there, the pixels inside are those of the background on a cleared window, and the
others have not changed. -/
def Repaints (files : String → Option ImageProvider) (c : ContainerBackground)
    (b : Background) (rect : Rectangle) (drawn : Int × Int → Color) : Prop :=
  ∃ after, ((c.setBackground files b).drawInside rect drawn).redrawBackground files
      rect = some after ∧
    ∀ p, after.pixel p =
      if rect.Covers p then (c.cleared.setBackground files b).pixel p
      else (c.setBackground files b).pixel p

end ContainerBackground

namespace ImageProvider

/-- The image in its own size. -/
def picture (provider : ImageProvider) : Surface :=
  Picture.ofRegion (Rectangle.ofSize provider.width provider.height).Covers
    (provider.renderTo provider.width provider.height)

/-- What is seen of the image at a position on a cleared window. -/
def shown (provider : ImageProvider) (p : Int × Int) : Color :=
  (provider.picture p).getD Color.RESET

/-- Where the image begins in the middle of a window. -/
def offset (provider : ImageProvider) (width height : Int32) : Int × Int :=
  ((PaintedWindow.centred width provider.width).toInt,
    (PaintedWindow.centred height provider.height).toInt)

end ImageProvider

/-- The background is a colour, or an image in which the rectangle shows the same with
and without the offset. -/
def Background.SameUnmoved (files : String → Option ImageProvider)
    (width height : Int32) (rect : Rectangle) : Background → Prop
  | .color _ => True
  | .image img =>
      ∃ provider, files img.mPath = some provider ∧
        ∀ p, rect.Covers p →
          provider.shown p = provider.shown (p - provider.offset width height)

namespace Rectangle

variable {rect : Rectangle} {width height : Int32} {p : Int × Int}

theorem covers_ofSize : (ofSize width height).Covers p ↔
    (0 ≤ p.1 ∧ p.1 < width.toInt) ∧ 0 ≤ p.2 ∧ p.2 < height.toInt := by
  simp [Covers, ofSize, right, bottom]

/-- Counted from its corner, a rectangle begins at zero. -/
theorem covers_sub_corner :
    (ofSize rect.mWidth rect.mHeight).Covers (p - rect.corner) ↔ rect.Covers p := by
  rw [covers_ofSize]
  simp only [Covers, corner, right, bottom, Prod.fst_sub, Prod.snd_sub]
  omega

theorem Within.covers (hwithin : rect.Within width height) (hp : rect.Covers p) :
    (ofSize width height).Covers p := by
  rw [covers_ofSize]
  simp only [Covers, Within] at hp hwithin
  omega

end Rectangle

/-! ### What is drawn -/

section

variable {files : String → Option ImageProvider} {path : String}
  {provider : ImageProvider} {rect : Rectangle} {surface : Surface}
  {width height : Int32}

theorem Image.loadImage_ofPath (hfile : files path = some provider) :
    (Image.ofPath path).loadImage files =
      ⟨some provider.picture, path, provider.width, provider.height⟩ := by
  simp only [loadImage, ofPath, hfile]
  rfl

theorem Image.sub_ofPath (hfile : files path = some provider) (rect : Rectangle) :
    (Image.ofPath path).sub files rect =
      some ⟨some (provider.picture.cut rect.corner
        (Rectangle.ofSize rect.mWidth rect.mHeight).Covers), "", rect.mWidth,
        rect.mHeight⟩ := by
  rw [sub, loadImage_ofPath hfile]
  rfl

theorem Image.sub_ofPath_of_none (hfile : files path = none) (rect : Rectangle) :
    (Image.ofPath path).sub files rect = none := by
  simp only [sub, loadImage, ofPath, hfile, Option.map_none]

/-- A rectangle that is cleared and drawn again shows the image that begins where the
surface does. -/
theorem ImageProvider.redrawn_eq_shown (provider : ImageProvider) {p : Int × Int}
    (hp : rect.Covers p) (hinside : (surface p).isSome) :
    Picture.blit (provider.picture.cut rect.corner
        (Rectangle.ofSize rect.mWidth rect.mHeight).Covers) rect.corner
        (Picture.paint rect.Covers (fun _ => Color.RESET) surface) p =
      some (provider.shown p) := by
  obtain ⟨old, hold⟩ := Option.isSome_iff_exists.mp hinside
  rw [Picture.blit_cut_of_mem (Rectangle.covers_sub_corner.mpr hp),
    Picture.paint_of_mem hp, hold]
  rfl

/-- A cleared surface shows the image where it was drawn. -/
theorem ImageProvider.drawn_eq_shown (provider : ImageProvider) (position : Int × Int)
    {p : Int × Int} (hinside : (surface p).isSome) :
    Picture.blit provider.picture position (Picture.clear Color.RESET surface) p =
      some (provider.shown (p - position)) := by
  obtain ⟨old, hold⟩ := Option.isSome_iff_exists.mp hinside
  rw [Picture.blit, Picture.clear, hold]
  rfl

/-- Without coordinates an image is drawn in the middle. -/
theorem PaintedWindow.drawImage_ofPath (hfile : files path = some provider) :
    PaintedWindow.drawImage files ⟨some surface, width, height⟩
        (some (Image.ofPath path)) (-1) (-1) =
      ⟨some (Picture.blit provider.picture (provider.offset width height) surface),
        width, height⟩ := by
  have hdefault : (-1 : Int32) < 0 := by decide
  simp only [drawImage, Image.loadImage_ofPath hfile, if_pos hdefault]
  rfl

theorem PaintedWindow.drawImage_at {source : Surface} {img : Image}
    (hsource : img.mDFBSurface = some source) (hx : 0 ≤ rect.mX.toInt)
    (hy : 0 ≤ rect.mY.toInt) :
    PaintedWindow.drawImage files ⟨some surface, width, height⟩ (some img) rect.mX
        rect.mY =
      ⟨some (Picture.blit source rect.corner surface), width, height⟩ := by
  have hloaded : img.loadImage files = img := by
    simp only [Image.loadImage, hsource]
  have hnotX : ¬ rect.mX < 0 := by rw [Int32.lt_iff_toInt_lt]; exact Int.not_lt.mpr hx
  have hnotY : ¬ rect.mY < 0 := by rw [Int32.lt_iff_toInt_lt]; exact Int.not_lt.mpr hy
  simp only [drawImage, hloaded, hsource, if_neg hnotX, if_neg hnotY]
  rfl

end

namespace ContainerBackground

variable {files : String → Option ImageProvider} {rect : Rectangle}
  {surface : Surface} {width height : Int32} {mBgImg : Option Image}
  {mBgColor : Option Color}

@[simp] theorem pixel_mk (p : Int × Int) :
    pixel ⟨some ⟨some surface, width, height⟩, mBgImg, mBgColor⟩ p = surface p := rfl

theorem cleared_mk :
    cleared ⟨some ⟨some surface, width, height⟩, mBgImg, mBgColor⟩ =
      ⟨some ⟨some (Picture.clear Color.RESET surface), width, height⟩, mBgImg,
        mBgColor⟩ := rfl

theorem drawInside_mk (drawn : Int × Int → Color) :
    drawInside ⟨some ⟨some surface, width, height⟩, mBgImg, mBgColor⟩ rect drawn =
      ⟨some ⟨some (Picture.paint rect.Covers drawn surface), width, height⟩, mBgImg,
        mBgColor⟩ := rfl

theorem setBackground_color (color : Color) :
    setBackground files ⟨some ⟨some surface, width, height⟩, mBgImg, mBgColor⟩
        (.color color) =
      ⟨some ⟨some (Picture.clear color surface), width, height⟩, none, some color⟩ :=
  rfl

theorem setBackground_image {img : Image} {provider : ImageProvider}
    (hfile : files img.mPath = some provider) :
    setBackground files ⟨some ⟨some surface, width, height⟩, mBgImg, mBgColor⟩
        (.image img) =
      ⟨some ⟨some (Picture.blit provider.picture (provider.offset width height)
        surface), width, height⟩, some (Image.ofPath img.mPath), none⟩ := by
  simp only [setBackground, Option.map_some, PaintedWindow.drawImage_ofPath hfile]

theorem redrawBackground_color (hvalid : rect.isValid = true) (color : Color) :
    redrawBackground files ⟨some ⟨some surface, width, height⟩, none, some color⟩
        rect =
      some ⟨some ⟨some (Picture.paint rect.Covers (fun _ => color)
        (Picture.paint rect.Covers (fun _ => Color.RESET) surface)), width, height⟩,
        none, some color⟩ := by
  simp only [redrawBackground, hvalid]
  rfl

theorem redrawBackground_image (hvalid : rect.isValid = true)
    (hwithin : rect.Within width height) {path : String} {provider : ImageProvider}
    (hfile : files path = some provider) :
    redrawBackground files
        ⟨some ⟨some surface, width, height⟩, some (Image.ofPath path), mBgColor⟩ rect =
      some ⟨some ⟨some (Picture.blit (provider.picture.cut rect.corner
        (Rectangle.ofSize rect.mWidth rect.mHeight).Covers) rect.corner
        (Picture.paint rect.Covers (fun _ => Color.RESET) surface)), width, height⟩,
        some (Image.ofPath path), mBgColor⟩ := by
  have hdrawn : PaintedWindow.drawImage files
      ⟨some (Picture.paint rect.Covers (fun _ => Color.RESET) surface), width, height⟩
      (some ⟨some (provider.picture.cut rect.corner
        (Rectangle.ofSize rect.mWidth rect.mHeight).Covers), "", rect.mWidth,
        rect.mHeight⟩) rect.mX rect.mY = _ :=
    PaintedWindow.drawImage_at rfl hwithin.1.1 hwithin.2.1
  simp only [redrawBackground, hvalid, Image.sub_ofPath hfile]
  rw [← hdrawn]
  rfl

/-- Without an image the null pointer is dereferenced. -/
theorem redrawBackground_of_none (hvalid : rect.isValid = true) {path : String}
    (hfile : files path = none) (window : PaintedWindow) :
    redrawBackground files ⟨some window, some (Image.ofPath path), mBgColor⟩ rect =
      none := by
  simp only [redrawBackground, hvalid, Image.sub_ofPath_of_none hfile]
  rfl

/-- A colour is drawn again as it was. -/
theorem repaints_color {c : ContainerBackground} (hwindow : c.HasWindow width height)
    (hvalid : rect.isValid = true) (color : Color) (drawn : Int × Int → Color) :
    c.Repaints files (.color color) rect drawn := by
  obtain ⟨content, hcontent⟩ := hwindow
  obtain ⟨_, mBgImg, mBgColor⟩ := c
  subst hcontent
  rw [Repaints, cleared_mk, setBackground_color, setBackground_color, drawInside_mk,
    redrawBackground_color hvalid]
  refine ⟨_, rfl, fun p => ?_⟩
  rw [pixel_mk, pixel_mk, pixel_mk, Picture.paint_paint, Picture.paint_paint]
  by_cases hp : rect.Covers p
  · rw [if_pos hp, Picture.paint_of_mem hp]
    simp only [Picture.clear, Option.map_map, Function.comp_def]
  · rw [if_neg hp, Picture.paint_of_not_mem hp]

/-- An image is drawn again as it was exactly if the rectangle shows the same of it
with and without the offset. -/
theorem repaints_image_iff {c : ContainerBackground}
    (hwindow : c.HasWindow width height) (hvalid : rect.isValid = true)
    (hwithin : rect.Within width height) {img : Image} {provider : ImageProvider}
    (hfile : files img.mPath = some provider) (drawn : Int × Int → Color) :
    c.Repaints files (.image img) rect drawn ↔ ∀ p, rect.Covers p →
      provider.shown p = provider.shown (p - provider.offset width height) := by
  obtain ⟨content, hcontent⟩ := hwindow
  obtain ⟨_, mBgImg, mBgColor⟩ := c
  subst hcontent
  rw [Repaints, cleared_mk, setBackground_image hfile, setBackground_image hfile,
    drawInside_mk, redrawBackground_image hvalid hwithin hfile]
  have hinside : ∀ p, rect.Covers p →
      (Picture.ofRegion (Rectangle.ofSize width height).Covers content p).isSome :=
    fun p hp => Picture.ofRegion_of_mem (hwithin.covers hp) ▸ rfl
  have hdrawn : ∀ p, rect.Covers p → (Picture.paint rect.Covers drawn
      (Picture.blit provider.picture (provider.offset width height)
        (Picture.ofRegion (Rectangle.ofSize width height).Covers content)) p).isSome := by
    intro p hp
    rw [Picture.isSome_paint, Picture.isSome_blit]
    exact hinside p hp
  have hpart := fun p hp => provider.redrawn_eq_shown hp (hdrawn p hp)
  have hfull := fun p hp =>
    provider.drawn_eq_shown (provider.offset width height) (hinside p hp)
  constructor
  · rintro ⟨after, hafter, hpixel⟩ p hp
    obtain rfl := Option.some.inj hafter
    have hsame := hpixel p
    rw [if_pos hp, pixel_mk, pixel_mk, hpart p hp, hfull p hp] at hsame
    exact Option.some.inj hsame
  · intro hsame
    refine ⟨_, rfl, fun p => ?_⟩
    rw [pixel_mk, pixel_mk, pixel_mk]
    by_cases hp : rect.Covers p
    · rw [if_pos hp, hpart p hp, hfull p hp, hsame p hp]
    · rw [if_neg hp, Picture.blit_cut_of_not_mem
        (fun hcut => hp (Rectangle.covers_sub_corner.mp hcut)),
        Picture.paint_of_not_mem hp, Picture.paint_of_not_mem hp]

/-- The part of the background that is drawn again is as before exactly if the
background is a colour, or the rectangle shows the same of the image with and without
the offset. -/
theorem repaints_iff {c : ContainerBackground} (hwindow : c.HasWindow width height)
    (hvalid : rect.isValid = true) (hwithin : rect.Within width height)
    (b : Background) (drawn : Int × Int → Color) :
    c.Repaints files b rect drawn ↔ b.SameUnmoved files width height rect := by
  cases b with
  | color color => exact iff_of_true (repaints_color hwindow hvalid color drawn) trivial
  | image img =>
      cases hfile : files img.mPath with
      | some provider =>
          rw [repaints_image_iff hwindow hvalid hwithin hfile, Background.SameUnmoved,
            hfile]
          simp
      | none =>
          refine iff_of_false ?_ ?_
          · rintro ⟨after, hafter, -⟩
            obtain ⟨content, hcontent⟩ := hwindow
            simp only [drawInside, setBackground, hcontent, Option.map_some,
              redrawBackground_of_none hvalid hfile] at hafter
            cases hafter
          · rintro ⟨provider, hprovider, -⟩
            rw [hfile] at hprovider
            cases hprovider

theorem toInt_one_pos : 0 < (1 : Int32).toInt := by decide

theorem toInt_two_pos : 0 < (2 : Int32).toInt := by decide

/-- An image of two pixels. -/
def twoPixels : ImageProvider where
  width := 2
  height := 1
  width_pos := toInt_two_pos
  height_pos := toInt_one_pos
  renderTo _ _ p := if p.1 = 0 then ⟨0xFF, 0xFF, 0xFF, 0xFF⟩ else ⟨0, 0, 0, 0xFF⟩

/-- A window of a height of one that is cleared. -/
def clearedLine (width : Int32) : ContainerBackground :=
  ⟨some ⟨some (Picture.ofRegion (Rectangle.ofSize width 1).Covers fun _ => Color.RESET),
    width, 1⟩, none, none⟩

/-- An image of two pixels in a window of three begins where the window does. -/
theorem twoPixels_repaints :
    (clearedLine 3).Repaints (fun _ => some twoPixels) (.image (Image.ofPath "bg.png"))
      ⟨1, 0, 2, 1⟩ fun _ => Color.RESET := by
  have hwindow : (clearedLine 3).HasWindow 3 1 := ⟨_, rfl⟩
  have hzero : twoPixels.offset 3 1 = 0 := by decide
  refine (repaints_iff hwindow (by decide) (by decide) _ _).mpr
    ⟨twoPixels, rfl, fun p _ => ?_⟩
  rw [hzero, sub_zero]

/-- In a window of four it begins at the second pixel, and the first one is drawn again
as the first of the image. -/
theorem twoPixels_not_repaints :
    ¬ (clearedLine 4).Repaints (fun _ => some twoPixels)
      (.image (Image.ofPath "bg.png")) ⟨0, 0, 4, 1⟩ fun _ => Color.RESET := by
  intro hrepaints
  have hwindow : (clearedLine 4).HasWindow 4 1 := ⟨_, rfl⟩
  have hsame := (repaints_image_iff hwindow (by decide) (by decide) rfl _).mp hrepaints
    (0, 0) (by decide)
  revert hsame
  decide

/-! ### Sizes -/

theorem toInt_centred {extent size : Int32} (hextent : 0 < extent.toInt)
    (hsize : 0 < size.toInt) :
    (PaintedWindow.centred extent size).toInt =
      (extent.toInt - size.toInt).tdiv 2 := by
  have hextentLt := extent.toInt_lt
  have hsizeLt := size.toInt_lt
  rw [PaintedWindow.centred, Int32.toInt_div_of_ne_right _ _ (by decide),
    Int32.toInt_sub, Int.bmod_eq_of_le_mul_two (by omega) (by omega)]
  rfl

/-- The division of C rounds towards zero. -/
theorem tdiv_two_cases (n : Int) :
    (0 ≤ n ∧ n.tdiv 2 = n / 2) ∨ (n < 0 ∧ n.tdiv 2 = -(-n / 2)) := by
  rcases lt_or_ge n 0 with hneg | hnonneg
  · refine .inr ⟨hneg, ?_⟩
    rw [← Int.tdiv_eq_ediv_of_nonneg (by omega), Int.neg_tdiv, neg_neg]
  · exact .inl ⟨hnonneg, Int.tdiv_eq_ediv_of_nonneg hnonneg⟩

theorem tdiv_two_eq_zero_iff (n : Int) : n.tdiv 2 = 0 ↔ n.natAbs ≤ 1 := by
  rcases tdiv_two_cases n with ⟨hn, heq⟩ | ⟨hn, heq⟩
  · rw [heq]
    omega
  · rw [heq]
    omega

/-- The middle of a window shows a part of the image. -/
theorem middle_overlaps {extent size : Int32} (hextent : 0 < extent.toInt)
    (hsize : 0 < size.toInt) :
    ∃ pos : Int, (0 ≤ pos ∧ pos < extent.toInt) ∧
      0 ≤ pos - (PaintedWindow.centred extent size).toInt ∧
      pos - (PaintedWindow.centred extent size).toInt < size.toInt := by
  rw [toInt_centred hextent hsize]
  refine ⟨max 0 ((extent.toInt - size.toInt).tdiv 2), ?_⟩
  rcases tdiv_two_cases (extent.toInt - size.toInt) with ⟨hn, heq⟩ | ⟨hn, heq⟩
  · rw [heq]
    omega
  · rw [heq]
    omega

/-- The image that has one white pixel. -/
def markAt (mark : Int × Int) (_ _ : Int32) (p : Int × Int) : Color :=
  if p = mark then ⟨0xFF, 0xFF, 0xFF, 0xFF⟩ else Color.RESET

theorem shown_markAt_iff {w h : Int32} (hw : 0 < w.toInt) (hh : 0 < h.toInt)
    {mark : Int × Int} (hmark : (Rectangle.ofSize w h).Covers mark) (p : Int × Int) :
    ImageProvider.shown ⟨w, h, hw, hh, markAt mark⟩ p ≠ Color.RESET ↔ p = mark := by
  rw [ImageProvider.shown, ImageProvider.picture]
  constructor
  · intro hshown
    by_contra hne
    apply hshown
    by_cases hp : (Rectangle.ofSize w h).Covers p
    · rw [Picture.ofRegion_of_mem hp]
      exact if_neg hne
    · rw [Picture.ofRegion_of_not_mem hp, Option.getD_none]
  · rintro rfl
    rw [Picture.ofRegion_of_mem hmark]
    exact (if_pos rfl).trans_ne (by decide)

/-- Whatever the pixels of the images of a size are, and whichever part is drawn again,
it is as before exactly if the image is as wide and as high as the window, but for one
pixel. -/
theorem repaints_all_iff {w h : Int32} (hwidth : 0 < width.toInt)
    (hheight : 0 < height.toInt) (hw : 0 < w.toInt) (hh : 0 < h.toInt) (img : Image) :
    (∀ renderTo (c : ContainerBackground) (rect : Rectangle) drawn,
      c.HasWindow width height → rect.isValid = true → rect.Within width height →
      c.Repaints (fun _ => some ⟨w, h, hw, hh, renderTo⟩) (.image img) rect drawn) ↔
    (width.toInt - w.toInt).natAbs ≤ 1 ∧ (height.toInt - h.toInt).natAbs ≤ 1 := by
  rw [← tdiv_two_eq_zero_iff, ← tdiv_two_eq_zero_iff, ← toInt_centred hwidth hw,
    ← toInt_centred hheight hh]
  constructor
  · intro hall
    obtain ⟨x, hx, hxImage⟩ := middle_overlaps hwidth hw
    obtain ⟨y, hy, hyImage⟩ := middle_overlaps hheight hh
    obtain ⟨offset, hoffset⟩ : ∃ offset, offset =
        ((PaintedWindow.centred width w).toInt,
          (PaintedWindow.centred height h).toInt) := ⟨_, rfl⟩
    have hmark : (Rectangle.ofSize w h).Covers ((x, y) - offset) := by
      rw [hoffset]
      exact Rectangle.covers_ofSize.mpr ⟨hxImage, hyImage⟩
    have hvalid : (Rectangle.ofSize width height).isValid = true :=
      Rectangle.isValid_iff.mpr ⟨hwidth, hheight⟩
    have hwithin : (Rectangle.ofSize width height).Within width height := by
      simp [Rectangle.Within, Rectangle.ofSize, Rectangle.right, Rectangle.bottom]
    have hwindow : HasWindow ⟨some ⟨some (Picture.ofRegion
        (Rectangle.ofSize width height).Covers fun _ => Color.RESET), width, height⟩,
        none, none⟩ width height := ⟨_, rfl⟩
    have hsame := (repaints_image_iff hwindow hvalid hwithin rfl
      fun _ => Color.RESET).mp (hall (markAt ((x, y) - offset)) _ _ _ hwindow hvalid
        hwithin) (x, y) (Rectangle.covers_ofSize.mpr ⟨hx, hy⟩)
    rw [ImageProvider.offset, ← hoffset] at hsame
    have hmoved := (shown_markAt_iff hw hh hmark _).mpr rfl
    have hunmoved := (shown_markAt_iff hw hh hmark _).mp (hsame.trans_ne hmoved)
    have hzero : offset = 0 := sub_eq_self.mp hunmoved.symm
    rwa [hoffset, Prod.mk_eq_zero] at hzero
  · rintro ⟨hx, hy⟩ renderTo c rect drawn hwindow hvalid hwithin
    refine (repaints_image_iff hwindow hvalid hwithin rfl drawn).mpr fun p _ => ?_
    rw [ImageProvider.offset, hx, hy]
    exact congrArg _ (sub_zero p).symm

end ContainerBackground

end MyDirectFB

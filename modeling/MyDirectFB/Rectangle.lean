/-
Rectangles (ui/directfb/rectangle.cpp).  A valid rectangle stands for a pair of
intervals, ordered by inclusion, and `united` is the least upper bound of two.
-/
import MyDirectFB.Lib.CheckedInt
import Mathlib.Order.Interval.Basic

namespace MyDirectFB

structure Rectangle where
  mX : Int32
  mY : Int32
  mWidth : Int32
  mHeight : Int32
deriving Repr, DecidableEq

namespace Rectangle

def isValid (self : Rectangle) : Bool :=
  self.mWidth > 0 && self.mHeight > 0

/-- `contains(const Rectangle&)`.  It has no value where a sum overflows. -/
def contains (self rect : Rectangle) : Option Bool :=
  if rect.mX ≥ self.mX then do
    let rectRight ← CheckedInt.add rect.mX rect.mWidth
    let right ← CheckedInt.add self.mX self.mWidth
    if rectRight ≤ right then
      if rect.mY ≥ self.mY then do
        let rectBottom ← CheckedInt.add rect.mY rect.mHeight
        let bottom ← CheckedInt.add self.mY self.mHeight
        some (rectBottom ≤ bottom)
      else some false
    else some false
  else some false

def MIN (x y : Int32) : Int32 := if x > y then y else x

def MAX (x y : Int32) : Int32 := if x > y then x else y

/-- `united`: the rectangle afterwards. -/
def united (self rect : Rectangle) : Option Rectangle :=
  if !rect.isValid then some self
  else if !self.isValid then some rect
  else do
    let x1 := MIN self.mX rect.mX
    let y1 := MIN self.mY rect.mY
    let right ← CheckedInt.add self.mX self.mWidth
    let rectRight ← CheckedInt.add rect.mX rect.mWidth
    let x2 := MAX right rectRight
    let bottom ← CheckedInt.add self.mY self.mHeight
    let rectBottom ← CheckedInt.add rect.mY rect.mHeight
    let y2 := MAX bottom rectBottom
    let width ← CheckedInt.sub x2 x1
    let height ← CheckedInt.sub y2 y1
    some ⟨x1, y1, width, height⟩

def right (self : Rectangle) : Int := self.mX.toInt + self.mWidth.toInt

def bottom (self : Rectangle) : Int := self.mY.toInt + self.mHeight.toInt

/-- The edges of the rectangle are values of `int`. -/
def EdgesFit (self : Rectangle) : Prop :=
  CheckedInt.Fits self.right ∧ CheckedInt.Fits self.bottom

instance (self : Rectangle) : Decidable self.EdgesFit :=
  inferInstanceAs (Decidable (_ ∧ _))

end Rectangle

/-- A pair of intervals, the horizontal one first. -/
abbrev Box := NonemptyInterval Int × NonemptyInterval Int

/-- The extents of the box are values of `int`. -/
def Box.ExtentsFit (box : Box) : Prop :=
  CheckedInt.Fits (box.1.snd - box.1.fst) ∧
    CheckedInt.Fits (box.2.snd - box.2.fst)

/-- Smaller boxes have smaller extents. -/
theorem Box.ExtentsFit.mono {p q : Box} (hfit : q.ExtentsFit) (hle : p ≤ q) :
    p.ExtentsFit := by
  obtain ⟨hleft, hright⟩ := NonemptyInterval.le_def.mp hle.1
  obtain ⟨htop, hbottom⟩ := NonemptyInterval.le_def.mp hle.2
  have hwidth := p.1.fst_le_snd
  have hheight := p.2.fst_le_snd
  simp only [Box.ExtentsFit, CheckedInt.fits_iff] at hfit ⊢
  omega

/-- A rectangle of positive width and height whose edges are values of `int`. -/
structure ValidRectangle extends Rectangle where
  valid : toRectangle.isValid = true
  edgesFit : toRectangle.EdgesFit

namespace Rectangle

variable {a b u : Rectangle}

theorem isValid_iff : a.isValid = true ↔ 0 < a.mWidth.toInt ∧ 0 < a.mHeight.toInt := by
  simp [isValid, Int32.lt_iff_toInt_lt]

theorem toInt_MIN (x y : Int32) : (MIN x y).toInt = min x.toInt y.toInt := by
  simp only [MIN, gt_iff_lt, Int32.lt_iff_toInt_lt]
  split <;> omega

theorem toInt_MAX (x y : Int32) : (MAX x y).toInt = max x.toInt y.toInt := by
  simp only [MAX, gt_iff_lt, Int32.lt_iff_toInt_lt]
  split <;> omega

theorem add_mX_mWidth (h : a.EdgesFit) :
    ∃ edge, CheckedInt.add a.mX a.mWidth = some edge ∧ edge.toInt = a.right := by
  obtain ⟨edge, hedge⟩ := CheckedInt.exists_ofInt?.mpr h.1
  exact ⟨edge, hedge, CheckedInt.ofInt?_eq_some.mp hedge⟩

theorem add_mY_mHeight (h : a.EdgesFit) :
    ∃ edge, CheckedInt.add a.mY a.mHeight = some edge ∧ edge.toInt = a.bottom := by
  obtain ⟨edge, hedge⟩ := CheckedInt.exists_ofInt?.mpr h.2
  exact ⟨edge, hedge, CheckedInt.ofInt?_eq_some.mp hedge⟩

theorem united_of_argument_invalid (h : ¬ b.isValid) : a.united b = some a := by
  simp [united, h]

theorem united_of_receiver_invalid (ha : ¬ a.isValid) (hb : b.isValid) :
    a.united b = some b := by
  simp [united, ha, hb]

theorem ite_eq_some_true {p : Prop} [Decidable p] {x : Option Bool} :
    (if p then x else some false) = some true ↔ p ∧ x = some true := by
  split
  · next hp => exact (and_iff_right hp).symm
  · next hp => exact iff_of_false (by simp) fun h => hp h.1

/-- Where the test has a value, it compares the four edges. -/
theorem contains_eq_some_true : a.contains b = some true ↔
    (a.mX.toInt ≤ b.mX.toInt ∧ b.right ≤ a.right) ∧
      (a.mY.toInt ≤ b.mY.toInt ∧ b.bottom ≤ a.bottom) ∧
      a.EdgesFit ∧ b.EdgesFit := by
  simp only [contains, ge_iff_le, Int32.le_iff_toInt_le]
  constructor
  · intro h
    obtain ⟨hleft, h⟩ := ite_eq_some_true.mp h
    obtain ⟨bRight, hbRight, h⟩ := Option.bind_eq_some_iff.mp h
    obtain ⟨aRight, haRight, h⟩ := Option.bind_eq_some_iff.mp h
    obtain ⟨hright, h⟩ := ite_eq_some_true.mp h
    obtain ⟨htop, h⟩ := ite_eq_some_true.mp h
    obtain ⟨bBottom, hbBottom, h⟩ := Option.bind_eq_some_iff.mp h
    obtain ⟨aBottom, haBottom, h⟩ := Option.bind_eq_some_iff.mp h
    have hbottom := of_decide_eq_true (Option.some.inj h)
    rw [CheckedInt.add_eq_some.mp hbRight, CheckedInt.add_eq_some.mp haRight]
      at hright
    rw [CheckedInt.add_eq_some.mp hbBottom, CheckedInt.add_eq_some.mp haBottom]
      at hbottom
    exact ⟨⟨hleft, hright⟩, ⟨htop, hbottom⟩,
      ⟨CheckedInt.exists_ofInt?.mp ⟨_, haRight⟩,
        CheckedInt.exists_ofInt?.mp ⟨_, haBottom⟩⟩,
      ⟨CheckedInt.exists_ofInt?.mp ⟨_, hbRight⟩,
        CheckedInt.exists_ofInt?.mp ⟨_, hbBottom⟩⟩⟩
  · rintro ⟨⟨hleft, hright⟩, ⟨htop, hbottom⟩, ha, hb⟩
    obtain ⟨aRight, haRight, haEq⟩ := add_mX_mWidth ha
    obtain ⟨bRight, hbRight, hbEq⟩ := add_mX_mWidth hb
    obtain ⟨aBottom, haBottom, haEq'⟩ := add_mY_mHeight ha
    obtain ⟨bBottom, hbBottom, hbEq'⟩ := add_mY_mHeight hb
    simp only [hleft, htop, haRight, hbRight, haBottom, hbBottom, haEq, hbEq,
      haEq', hbEq', hright, hbottom, ↓reduceIte, Option.bind_eq_bind,
      Option.bind_some, decide_true]

/-- The rectangle is valid and stands for the box. -/
structure Spans (a : Rectangle) (box : Box) : Prop where
  valid : a.isValid = true
  edgesFit : a.EdgesFit
  left : a.mX.toInt = box.1.fst
  right : a.right = box.1.snd
  top : a.mY.toInt = box.2.fst
  bottom : a.bottom = box.2.snd

variable {p q : Box}

/-- A rectangle stands for one box. -/
theorem Spans.box_unique (hp : a.Spans p) (hq : a.Spans q) : p = q := by
  ext
  · exact hp.left.symm.trans hq.left
  · exact hp.right.symm.trans hq.right
  · exact hp.top.symm.trans hq.top
  · exact hp.bottom.symm.trans hq.bottom

end Rectangle

namespace ValidRectangle

theorem left_le_right (a : ValidRectangle) : a.mX.toInt ≤ a.right := by
  obtain ⟨hwidth, -⟩ := Rectangle.isValid_iff.mp a.valid
  unfold Rectangle.right
  omega

theorem top_le_bottom (a : ValidRectangle) : a.mY.toInt ≤ a.bottom := by
  obtain ⟨-, hheight⟩ := Rectangle.isValid_iff.mp a.valid
  unfold Rectangle.bottom
  omega

/-- The box of a valid rectangle. -/
def box (a : ValidRectangle) : Box :=
  (⟨(a.mX.toInt, a.right), a.left_le_right⟩, ⟨(a.mY.toInt, a.bottom), a.top_le_bottom⟩)

theorem spans (a : ValidRectangle) : a.Spans a.box :=
  ⟨a.valid, a.edgesFit, rfl, rfl, rfl, rfl⟩

end ValidRectangle

namespace Rectangle

variable {a b u : Rectangle} {p q : Box}

/-- What contains a valid rectangle is valid. -/
theorem exists_spans_of_contains {d : Rectangle} (ha : a.Spans p)
    (hcontains : d.contains a = some true) : ∃ box, d.Spans box := by
  obtain ⟨⟨hleft, hright⟩, ⟨htop, hbottom⟩, hd, -⟩ :=
    contains_eq_some_true.mp hcontains
  obtain ⟨hwidth, hheight⟩ := isValid_iff.mp ha.valid
  unfold Rectangle.right at hright
  unfold Rectangle.bottom at hbottom
  let valid : ValidRectangle := ⟨d, isValid_iff.mpr ⟨by omega, by omega⟩, hd⟩
  exact ⟨valid.box, valid.spans⟩

/-- Containment is the order of the boxes. -/
theorem contains_iff_le (ha : a.Spans p) (hb : b.Spans q) :
    a.contains b = some true ↔ q ≤ p := by
  rw [contains_eq_some_true, Prod.le_def, NonemptyInterval.le_def,
    NonemptyInterval.le_def, ha.left, ha.right, ha.top, ha.bottom, hb.left,
    hb.right, hb.top, hb.bottom]
  exact ⟨fun h => ⟨h.1, h.2.1⟩, fun h => ⟨h.1, h.2, ha.edgesFit, hb.edgesFit⟩⟩

/-- The rectangle between four edges. -/
theorem spans_iff (hleft : p.1.fst < p.1.snd) (htop : p.2.fst < p.2.snd) :
    u.Spans p ↔ (u.mX.toInt = p.1.fst ∧ u.mY.toInt = p.2.fst) ∧
      u.mWidth.toInt = p.1.snd - p.1.fst ∧
      u.mHeight.toInt = p.2.snd - p.2.fst ∧
      CheckedInt.Fits p.1.snd ∧ CheckedInt.Fits p.2.snd := by
  constructor
  · intro h
    have hright := h.right
    have hbottom := h.bottom
    rw [Rectangle.right, h.left] at hright
    rw [Rectangle.bottom, h.top] at hbottom
    exact ⟨⟨h.left, h.top⟩, by omega, by omega, h.right ▸ h.edgesFit.1,
      h.bottom ▸ h.edgesFit.2⟩
  · rintro ⟨⟨hx, hy⟩, hwidth, hheight, hfits⟩
    have hright : u.right = p.1.snd := by rw [Rectangle.right]; omega
    have hbottom : u.bottom = p.2.snd := by rw [Rectangle.bottom]; omega
    exact ⟨isValid_iff.mpr ⟨by omega, by omega⟩,
      by rwa [EdgesFit, hright, hbottom], hx, hright, hy, hbottom⟩

/-- A valid rectangle is not empty. -/
theorem Spans.lt (h : a.Spans p) : p.1.fst < p.1.snd ∧ p.2.fst < p.2.snd := by
  obtain ⟨hwidth, hheight⟩ := isValid_iff.mp h.valid
  rw [← h.left, ← h.right, ← h.top, ← h.bottom, Rectangle.right, Rectangle.bottom]
  omega

theorem sup_lt (ha : a.Spans p) (hb : b.Spans q) :
    (p ⊔ q).1.fst < (p ⊔ q).1.snd ∧ (p ⊔ q).2.fst < (p ⊔ q).2.snd := by
  have hp := ha.lt
  have hq := hb.lt
  change min p.1.fst q.1.fst < max p.1.snd q.1.snd ∧
    min p.2.fst q.2.fst < max p.2.snd q.2.snd
  omega

/-- `united` is the join of the boxes. -/
theorem united_eq_some_iff (ha : a.Spans p) (hb : b.Spans q) :
    a.united b = some u ↔ u.Spans (p ⊔ q) := by
  obtain ⟨aRight, haRight, haEq⟩ := add_mX_mWidth ha.edgesFit
  obtain ⟨bRight, hbRight, hbEq⟩ := add_mX_mWidth hb.edgesFit
  obtain ⟨aBottom, haBottom, haEq'⟩ := add_mY_mHeight ha.edgesFit
  obtain ⟨bBottom, hbBottom, hbEq'⟩ := add_mY_mHeight hb.edgesFit
  have hx1 : (MIN a.mX b.mX).toInt = (p ⊔ q).1.fst := by
    rw [toInt_MIN, ha.left, hb.left]; rfl
  have hy1 : (MIN a.mY b.mY).toInt = (p ⊔ q).2.fst := by
    rw [toInt_MIN, ha.top, hb.top]; rfl
  have hx2 : (MAX aRight bRight).toInt = (p ⊔ q).1.snd := by
    rw [toInt_MAX, haEq, hbEq, ha.right, hb.right]; rfl
  have hy2 : (MAX aBottom bBottom).toInt = (p ⊔ q).2.snd := by
    rw [toInt_MAX, haEq', hbEq', ha.bottom, hb.bottom]; rfl
  obtain ⟨hleft, htop⟩ := sup_lt ha hb
  rw [spans_iff hleft htop, ← hx1, ← hy1, ← hx2, ← hy2]
  simp only [united, ha.valid, hb.valid, haRight, hbRight, haBottom, hbBottom,
    Bool.not_true, Bool.false_eq_true, ↓reduceIte, Option.bind_eq_bind,
    Option.bind_some, Option.bind_eq_some_iff, CheckedInt.sub_eq_some]
  constructor
  · rintro ⟨width, hwidth, height, hheight, hu⟩
    obtain rfl := Option.some.inj hu
    exact ⟨⟨rfl, rfl⟩, hwidth, hheight, CheckedInt.fits_toInt _,
      CheckedInt.fits_toInt _⟩
  · rintro ⟨⟨hx, hy⟩, hwidth, hheight, -⟩
    refine ⟨u.mWidth, hwidth, u.mHeight, hheight, ?_⟩
    rw [← Int32.toInt_inj.mp hx, ← Int32.toInt_inj.mp hy]

/-- Two rectangles whose hull has extents in `int` have a union. -/
theorem exists_spans_sup (ha : a.Spans p) (hb : b.Spans q)
    (hfit : (p ⊔ q).ExtentsFit) : ∃ u : Rectangle, u.Spans (p ⊔ q) := by
  obtain ⟨width, hwidth⟩ := CheckedInt.exists_ofInt?.mpr hfit.1
  obtain ⟨height, hheight⟩ := CheckedInt.exists_ofInt?.mpr hfit.2
  obtain ⟨hleft, htop⟩ := sup_lt ha hb
  refine ⟨⟨MIN a.mX b.mX, MIN a.mY b.mY, width, height⟩,
    (spans_iff hleft htop).mpr ⟨⟨?_, ?_⟩, CheckedInt.ofInt?_eq_some.mp hwidth,
      CheckedInt.ofInt?_eq_some.mp hheight, ?_, ?_⟩⟩
  · rw [toInt_MIN, ha.left, hb.left]
    rfl
  · rw [toInt_MIN, ha.top, hb.top]
    rfl
  · exact (ha.right ▸ ha.edgesFit.1).max (hb.right ▸ hb.edgesFit.1)
  · exact (ha.bottom ▸ ha.edgesFit.2).max (hb.bottom ▸ hb.edgesFit.2)

/-- `united` of two rectangles is a rectangle that contains both, and any that
contains both contains it. -/
theorem united_isLub (ha : a.Spans p) (hb : b.Spans q) (hu : u.Spans (p ⊔ q)) :
    u.contains a = some true ∧ u.contains b = some true ∧
      ∀ d : Rectangle, d.contains a = some true → d.contains b = some true →
        d.contains u = some true := by
  refine ⟨(contains_iff_le hu ha).mpr le_sup_left,
    (contains_iff_le hu hb).mpr le_sup_right, fun d hda hdb => ?_⟩
  obtain ⟨box, hd⟩ := exists_spans_of_contains ha hda
  exact (contains_iff_le hd hu).mpr
    (sup_le ((contains_iff_le hd ha).mp hda) ((contains_iff_le hd hb).mp hdb))

theorem united_comm (ha : a.Spans p) (hb : b.Spans q) :
    a.united b = b.united a := by
  refine Option.ext fun u => ?_
  rw [united_eq_some_iff ha hb, united_eq_some_iff hb ha, sup_comm]

theorem united_self (ha : a.Spans p) : a.united a = some a := by
  rw [united_eq_some_iff ha ha, sup_idem]
  exact ha

theorem united_eq_self_iff (ha : a.Spans p) (hb : b.Spans q) :
    a.united b = some a ↔ a.contains b = some true := by
  rw [united_eq_some_iff ha hb, contains_iff_le ha hb]
  constructor
  · intro hsup
    rw [ha.box_unique hsup]
    exact le_sup_right
  · intro hle
    rwa [sup_eq_left.mpr hle]

theorem united_assoc {c v : Rectangle} {r : Box} (ha : a.Spans p) (hb : b.Spans q)
    (hc : c.Spans r) (hu : a.united b = some u) (hv : b.united c = some v) :
    u.united c = a.united v := by
  rw [united_eq_some_iff ha hb] at hu
  rw [united_eq_some_iff hb hc] at hv
  refine Option.ext fun w => ?_
  rw [united_eq_some_iff hu hc, united_eq_some_iff ha hv, sup_assoc]

end Rectangle

open Rectangle in
/-- `united` is the least upper bound of valid rectangles under containment:
commutative, associative, idempotent, and the identity on what is contained.  An
invalid rectangle on either side changes nothing. -/
theorem united_isLeast (a b : ValidRectangle)
    (hfit : (a.box ⊔ b.box).ExtentsFit) :
    (∃ u, a.united b.toRectangle = some u ∧ u.isValid = true ∧
      u.contains a.toRectangle = some true ∧
      u.contains b.toRectangle = some true ∧
      ∀ d : Rectangle, d.contains a.toRectangle = some true →
        d.contains b.toRectangle = some true → d.contains u = some true) ∧
    a.united b.toRectangle = b.united a.toRectangle ∧
    (∀ c : ValidRectangle, (a.box ⊔ b.box ⊔ c.box).ExtentsFit →
      ∃ u v w, a.united b.toRectangle = some u ∧
        b.united c.toRectangle = some v ∧
        u.united c.toRectangle = some w ∧ a.united v = some w) ∧
    a.united a.toRectangle = some a.toRectangle ∧
    (a.united b.toRectangle = some a.toRectangle ↔
      a.contains b.toRectangle = some true) ∧
    (∀ self rect : Rectangle, rect.isValid = false →
      self.united rect = some self) ∧
    (∀ self : Rectangle, self.isValid = false →
      self.united a.toRectangle = some a.toRectangle) := by
  have ha := a.spans
  have hb := b.spans
  refine ⟨?_, united_comm ha hb, fun c hhull => ?_, united_self ha,
    united_eq_self_iff ha hb, fun self rect hrect => ?_, fun self hself => ?_⟩
  · obtain ⟨u, hu⟩ := exists_spans_sup ha hb hfit
    exact ⟨u, (united_eq_some_iff ha hb).mpr hu, hu.valid, united_isLub ha hb hu⟩
  · have hc := c.spans
    obtain ⟨u, hu⟩ := exists_spans_sup ha hb hfit
    obtain ⟨v, hv⟩ := exists_spans_sup hb hc
      (hhull.mono (sup_le_sup_right le_sup_right c.box))
    obtain ⟨w, hw⟩ := exists_spans_sup hu hc hhull
    have hab := (united_eq_some_iff ha hb).mpr hu
    have hbc := (united_eq_some_iff hb hc).mpr hv
    have huc := (united_eq_some_iff hu hc).mpr hw
    exact ⟨u, v, w, hab, hbc, huc, united_assoc ha hb hc hab hbc ▸ huc⟩
  · exact united_of_argument_invalid (by rw [hrect]; exact Bool.false_ne_true)
  · exact united_of_receiver_invalid (by rw [hself]; exact Bool.false_ne_true)
      a.valid

/-- Two rectangles that share no point, and the one that spans them. -/
theorem united_apart :
    ∃ u, Rectangle.united ⟨0, 0, 2, 1⟩ ⟨5, -4, 2, 3⟩ = some u ∧
      u.contains ⟨0, 0, 2, 1⟩ = some true ∧
      u.contains ⟨5, -4, 2, 3⟩ = some true := by
  obtain ⟨u, hu, -, ha, hb, -⟩ := (united_isLeast
    ⟨⟨0, 0, 2, 1⟩, rfl, by decide⟩ ⟨⟨5, -4, 2, 3⟩, rfl, by decide⟩
    ⟨by decide, by decide⟩).1
  exact ⟨u, hu, ha, hb⟩

end MyDirectFB

import Mathlib.Algebra.Order.Field.Basic
import Mathlib.Data.List.Nodup
import ThermalLabel.Editor.Selection
import ThermalLabel.Proofs.Scalar.Rational

/-! # What a marquee hits

Two corners span a rectangle, whichever of them the pointer came from. A point lies strictly between
them (`Point.Between`) or on an edge at most (`Point.Within`), and by such points alone it is said
which elements a marquee hits (`HitTest`): those with a point that lies strictly within both the
marquee and the element as it is displayed (`Selection.marquee_hits`).

The test compares edges. Along one axis two stretches that are not empty overlap if each begins
before the other ends (`exists_between_iff`); what is hit overlaps along both. -/

namespace ThermalLabel

namespace Point

/-- A point lies within the rectangle between two corners, on none of its edges. -/
structure Between (p a b : Point Rat) : Prop where
  left : min a.x b.x < p.x
  right : p.x < max a.x b.x
  top : min a.y b.y < p.y
  bottom : p.y < max a.y b.y

/-- A point lies within the rectangle between two corners or on its edges. -/
structure Within (p a b : Point Rat) : Prop where
  left : min a.x b.x ≤ p.x
  right : p.x ≤ max a.x b.x
  top : min a.y b.y ≤ p.y
  bottom : p.y ≤ max a.y b.y

variable {p a b : Point Rat}

theorem Between.within (h : p.Between a b) : p.Within a b :=
  ⟨h.left.le, h.right.le, h.top.le, h.bottom.le⟩

theorem within_first (a b : Point Rat) : a.Within a b :=
  ⟨min_le_left _ _, le_max_left _ _, min_le_left _ _, le_max_left _ _⟩

theorem within_second (a b : Point Rat) : b.Within a b :=
  ⟨min_le_right _ _, le_max_right _ _, min_le_right _ _, le_max_right _ _⟩

end Point

/-- Two stretches of an axis overlap if each begins before the other ends. -/
theorem exists_between_iff {low high low' high' : Rat} (h : low < high) (h' : low' < high') :
    (∃ x, (low < x ∧ x < high) ∧ low' < x ∧ x < high') ↔ low < high' ∧ low' < high := by
  constructor
  · rintro ⟨x, ⟨hlow, hhigh⟩, hlow', hhigh'⟩
    exact ⟨hlow.trans hhigh', hlow'.trans hhigh⟩
  · rintro ⟨hfirst, hsecond⟩
    have hroom : max low low' < min high high' :=
      max_lt (lt_min h hfirst) (lt_min hsecond h')
    obtain ⟨x, hlow, hhigh⟩ := exists_between hroom
    rw [max_lt_iff] at hlow
    rw [lt_min_iff] at hhigh
    exact ⟨x, ⟨hlow.1, hhigh.1⟩, hlow.2, hhigh.2⟩

/-! ### Rectangles by their corners -/

namespace Rect

/-- The edges of a rectangle lie at two corners. -/
structure Spans (r : Rect Rat) (a b : Point Rat) : Prop where
  left : r.x = min a.x b.x
  right : r.right = max a.x b.x
  top : r.y = min a.y b.y
  bottom : r.bottom = max a.y b.y

variable {r s : Rect Rat} {a b c d : Point Rat}

theorem spans_ofCorners (a b : Point Rat) : (ofCorners a b).Spans a b := by
  constructor <;> simp [ofCorners, right, bottom]

/-- Whichever two opposite corners it is drawn between, a rectangle is the same. -/
theorem ofCorners_eq_of_exchanged (hx : c.x = a.x ∧ d.x = b.x ∨ c.x = b.x ∧ d.x = a.x)
    (hy : c.y = a.y ∧ d.y = b.y ∨ c.y = b.y ∧ d.y = a.y) : ofCorners c d = ofCorners a b := by
  obtain ⟨hcx, hdx⟩ | ⟨hcx, hdx⟩ := hx <;> obtain ⟨hcy, hdy⟩ | ⟨hcy, hdy⟩ := hy <;>
    simp [ofCorners, hcx, hdx, hcy, hdy, min_comm, max_comm]

theorem intersects_iff : r.intersects s = true ↔
    (r.x < s.right ∧ s.x < r.right) ∧ r.y < s.bottom ∧ s.y < r.bottom := by
  simp only [intersects, Scalar.lt, Bool.and_eq_true, decide_eq_true_eq, and_assoc]

end Rect

/-- Whether a rectangle is hit that lies between `c` and `d`, by the marquee between `a` and `b`. A
rectangle without any point outside of the marquee is, and one that has at most points of the edges
in common with it is not. -/
structure HitTest (a b c d : Point Rat) (hit : Bool) : Prop where
  overlap : hit = true ↔ ∃ p : Point Rat, p.Between a b ∧ p.Between c d
  inside : (∀ p : Point Rat, p.Within c d → p.Within a b) → hit = true
  apart : (∀ p : Point Rat, p.Within c d → p.Within a b → ¬ p.Between a b) → hit = false

namespace Rect

variable {r s : Rect Rat} {a b c d : Point Rat}

/-- Rectangles of some extent intersect if some point lies strictly within both. -/
theorem Spans.intersects_iff (hr : r.Spans a b) (hs : s.Spans c d) (hx : a.x ≠ b.x)
    (hy : a.y ≠ b.y) (hx' : c.x ≠ d.x) (hy' : c.y ≠ d.y) :
    r.intersects s = true ↔ ∃ p : Point Rat, p.Between a b ∧ p.Between c d := by
  rw [Rect.intersects_iff, hr.left, hr.right, hr.top, hr.bottom, hs.left, hs.right, hs.top,
    hs.bottom, ← exists_between_iff (min_lt_max.mpr hx) (min_lt_max.mpr hx'),
    ← exists_between_iff (min_lt_max.mpr hy) (min_lt_max.mpr hy')]
  constructor
  · rintro ⟨⟨x, ⟨hleft, hright⟩, hleft', hright'⟩, y, ⟨htop, hbottom⟩, htop', hbottom'⟩
    exact ⟨⟨x, y⟩, ⟨hleft, hright, htop, hbottom⟩, hleft', hright', htop', hbottom'⟩
  · rintro ⟨p, h, h'⟩
    exact ⟨⟨p.x, ⟨h.left, h.right⟩, h'.left, h'.right⟩, p.y, ⟨h.top, h.bottom⟩, h'.top, h'.bottom⟩

theorem Spans.hitTest (hr : r.Spans a b) (hs : s.Spans c d) (hx : a.x ≠ b.x) (hy : a.y ≠ b.y)
    (hx' : c.x ≠ d.x) (hy' : c.y ≠ d.y) : HitTest a b c d (r.intersects s) := by
  have hoverlap := hr.intersects_iff hs hx hy hx' hy'
  refine ⟨hoverlap, fun hinside => ?_, fun hapart => ?_⟩
  · -- the corners of the rectangle are within the marquee, and so is what lies between them
    have hc := hinside c (Point.within_first c d)
    have hd := hinside d (Point.within_second c d)
    rw [Rect.intersects_iff, hr.left, hr.right, hr.top, hr.bottom, hs.left, hs.right, hs.top,
      hs.bottom]
    exact ⟨⟨(le_min hc.left hd.left).trans_lt (min_lt_max.mpr hx'),
        (min_lt_max.mpr hx').trans_le (max_le hc.right hd.right)⟩,
      (le_min hc.top hd.top).trans_lt (min_lt_max.mpr hy'),
      (min_lt_max.mpr hy').trans_le (max_le hc.bottom hd.bottom)⟩
  · rw [← Bool.not_eq_true, hoverlap]
    rintro ⟨p, h, h'⟩
    exact hapart p h'.within h.within h

end Rect

/-! ### Elements -/

namespace Element

/-- The corner of an element across from its position. -/
def farCorner (measured : MeasuredSizes Rat) (e : Element Rat) : Point Rat :=
  ⟨e.x + (e.footprint measured).width, e.y + (e.footprint measured).height⟩

variable {measured : MeasuredSizes Rat} {e : Element Rat} {zoom : Rat}

theorem spans_bounds (hzoom : 0 < zoom) (hwidth : 0 < (e.footprint measured).width)
    (hheight : 0 < (e.footprint measured).height) :
    ((e.bounds measured).scale zoom).Spans (e.position.scale zoom)
      ((e.farCorner measured).scale zoom) := by
  have hx : e.x * zoom ≤ (e.x + (e.footprint measured).width) * zoom :=
    mul_le_mul_of_nonneg_right (le_add_of_nonneg_right hwidth.le) hzoom.le
  have hy : e.y * zoom ≤ (e.y + (e.footprint measured).height) * zoom :=
    mul_le_mul_of_nonneg_right (le_add_of_nonneg_right hheight.le) hzoom.le
  exact ⟨(min_eq_left hx).symm, (add_mul ..).symm.trans (max_eq_right hx).symm,
    (min_eq_left hy).symm, (add_mul ..).symm.trans (max_eq_right hy).symm⟩

theorem scale_ne_of_footprint (hzoom : 0 < zoom) (hwidth : 0 < (e.footprint measured).width)
    (hheight : 0 < (e.footprint measured).height) :
    (e.position.scale zoom).x ≠ ((e.farCorner measured).scale zoom).x ∧
      (e.position.scale zoom).y ≠ ((e.farCorner measured).scale zoom).y :=
  ⟨(mul_lt_mul_of_pos_right (lt_add_of_pos_right _ hwidth) hzoom).ne,
    (mul_lt_mul_of_pos_right (lt_add_of_pos_right _ hheight) hzoom).ne⟩

end Element

namespace Selection

/-- **A marquee hits what it overlaps**, in drawing order and between whichever corners it is drawn.
Elements that have no extent are left aside. -/
theorem marquee_hits (els : List (Element Rat)) (measured : MeasuredSizes Rat) {zoom : Rat}
    (hzoom : 0 < zoom) {a b : Point Rat} (hx : a.x ≠ b.x) (hy : a.y ≠ b.y) :
    ∃ hit : Element Rat → Bool,
      marqueeHits els measured (Rect.ofCorners a b) zoom = Sequence.ids (els.filter hit) ∧
      (∀ e ∈ els, (∀ other ∈ els, other.id = e.id → other = e) →
        (e.id ∈ marqueeHits els measured (Rect.ofCorners a b) zoom ↔ hit e = true)) ∧
      (∀ e : Element Rat, 0 < (e.footprint measured).width →
        0 < (e.footprint measured).height →
        HitTest a b (e.position.scale zoom) ((e.farCorner measured).scale zoom) (hit e)) ∧
      ∀ c d : Point Rat, (c.x = a.x ∧ d.x = b.x ∨ c.x = b.x ∧ d.x = a.x) →
        (c.y = a.y ∧ d.y = b.y ∨ c.y = b.y ∧ d.y = a.y) →
        marqueeHits els measured (Rect.ofCorners c d) zoom =
          marqueeHits els measured (Rect.ofCorners a b) zoom := by
  refine ⟨fun e => (Rect.ofCorners a b).intersects ((e.bounds measured).scale zoom), rfl,
    fun e he hown => ?_, fun e hwidth hheight => ?_, fun c d hcx hcy => ?_⟩
  · unfold marqueeHits Sequence.ids
    rw [List.mem_map]
    constructor
    · rintro ⟨other, hother, hid⟩
      obtain ⟨hmem, hhit⟩ := List.mem_filter.mp hother
      rwa [hown other hmem hid] at hhit
    · exact fun hhit => ⟨e, List.mem_filter.mpr ⟨he, hhit⟩, rfl⟩
  · obtain ⟨hx', hy'⟩ := Element.scale_ne_of_footprint hzoom hwidth hheight
    exact (Rect.spans_ofCorners a b).hitTest (Element.spans_bounds hzoom hwidth hheight) hx hy
      hx' hy'
  · rw [Rect.ofCorners_eq_of_exchanged hcx hcy]

/-- A box, a text that is displayed next to it, and two boxes further out. -/
def scattered : List (Element Rat) := [
  { Element.default .box with id := "a", x := 10, y := 10 },
  { Element.default .text with id := "b", x := 5, y := 12 },
  { Element.default .box with id := "c", x := 0, y := 20 },
  { Element.default .box with id := "d", x := 40, y := 40 }]

/-- The display has shown the text. -/
def textMeasured : MeasuredSizes Rat := StringMap.ofList [("b", ⟨8, 3⟩)]

/-- A marquee is drawn upwards and to the left. It hits the box in part and the whole text; the
third element only touches it. -/
theorem first_two_of_scattered_hit :
    (∃ hit : Element Rat → Bool,
      marqueeHits scattered textMeasured (Rect.ofCorners ⟨60, 80⟩ ⟨0, 0⟩) 4 =
        Sequence.ids (scattered.filter hit) ∧
      ∀ e ∈ scattered,
        (e.id ∈ marqueeHits scattered textMeasured (Rect.ofCorners ⟨60, 80⟩ ⟨0, 0⟩) 4 ↔
          hit e = true) ∧
        HitTest ⟨60, 80⟩ ⟨0, 0⟩ (e.position.scale 4) ((e.farCorner textMeasured).scale 4)
          (hit e)) ∧
    marqueeHits scattered textMeasured (Rect.ofCorners ⟨60, 80⟩ ⟨0, 0⟩) 4 = ["a", "b"] ∧
    marqueeHits scattered textMeasured (Rect.ofCorners ⟨0, 80⟩ ⟨60, 0⟩) 4 =
      marqueeHits scattered textMeasured (Rect.ofCorners ⟨60, 80⟩ ⟨0, 0⟩) 4 := by
  have hextent : ∀ e ∈ scattered, 0 < (e.footprint textMeasured).width ∧
      0 < (e.footprint textMeasured).height := by decide +kernel
  have hids : (Sequence.ids scattered).Nodup := by decide
  have hzoom : (0 : Rat) < 4 := by decide +kernel
  obtain ⟨hit, hhits, hown, htest, hsame⟩ := marquee_hits scattered textMeasured hzoom
    (a := ⟨60, 80⟩) (b := ⟨0, 0⟩) (by decide +kernel) (by decide +kernel)
  refine ⟨⟨hit, hhits, fun e he => ⟨?_, htest e (hextent e he).1 (hextent e he).2⟩⟩, ?_,
    hsame ⟨0, 80⟩ ⟨60, 0⟩ (.inr ⟨rfl, rfl⟩) (.inl ⟨rfl, rfl⟩)⟩
  · exact hown e he fun other hother hid => List.inj_on_of_nodup_map hids hother he hid
  · decide +kernel

end Selection

end ThermalLabel

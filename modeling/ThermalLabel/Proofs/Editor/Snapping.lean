import Mathlib.Algebra.Order.Ring.Abs
import ThermalLabel.Editor.Gesture
import ThermalLabel.Proofs.Scalar.Rational

/-! # Snapping

A number is snapped to the multiple of the grid nearest to it, so at most half a cell away; what is
on the grid stays where it is, and of two numbers the larger one stays the larger one.

A drag holds a coordinate at zero before it snaps, and zero is on every grid. A resize holds a side
at one millimetre before it snaps and once more after that, for one millimetre need not be on the
grid, and on a coarse grid a side of one would be snapped to nothing. Either way the outcome is at
most half a cell from where the pointer led, and a second gesture that leads nowhere changes nothing
(`snapping_laws`). -/

namespace ThermalLabel

/-! ### One number -/

/-- A multiple of a grid. -/
def OnGrid (grid x : Rat) : Prop := ∃ n : Int, x = n * grid

/-- A multiple of a grid that is at most half a cell away from a value. -/
structure Snapped (grid value x : Rat) : Prop where
  onGrid : OnGrid grid x
  near : |x - value| ≤ grid / 2

section
variable {grid : Rat}

theorem snapped_snap (h : 0 < grid) (value : Rat) : Snapped grid value (snap value grid) := by
  obtain ⟨n, hround, hnear⟩ := Rational.exists_round_eq (value / grid)
  have hcell : n * grid - value = (n - value / grid) * grid := by
    rw [sub_mul, div_mul_cancel₀ value h.ne']
  rw [snap_of_pos h, hround]
  refine ⟨⟨n, rfl⟩, ?_⟩
  calc |(n : Rat) * grid - value|
      = |n - value / grid| * grid := by rw [hcell, abs_mul, abs_of_pos h]
    _ ≤ 1 / 2 * grid := mul_le_mul_of_nonneg_right hnear h.le
    _ = grid / 2 := one_div_mul_eq_div 2 grid

theorem snap_of_onGrid (h : 0 < grid) {x : Rat} (hx : OnGrid grid x) : snap x grid = x := by
  obtain ⟨n, rfl⟩ := hx
  rw [snap_of_pos h, mul_div_cancel_right₀ _ h.ne', Rational.round_intCast]

theorem snap_snap (grid value : Rat) : snap (snap value grid) grid = snap value grid := by
  by_cases h : 0 < grid
  · exact snap_of_onGrid h (snapped_snap h value).onGrid
  · rw [snap_of_nonpos (not_lt.mp h), snap_of_nonpos (not_lt.mp h)]

theorem snap_mono {x y : Rat} (hxy : x ≤ y) (grid : Rat) : snap x grid ≤ snap y grid := by
  by_cases h : 0 < grid
  · have hround := Rational.round_mono (div_le_div_of_nonneg_right hxy h.le)
    rw [snap_of_pos h, snap_of_pos h]
    exact mul_le_mul_of_nonneg_right hround h.le
  · rw [snap_of_nonpos (not_lt.mp h), snap_of_nonpos (not_lt.mp h)]
    exact hxy

theorem snapTo_snapTo (grid : Option Rat) (value : Rat) :
    snapTo grid (snapTo grid value) = snapTo grid value := by
  cases grid with
  | none => rfl
  | some g => exact snap_snap g value

theorem snapTo_of_nonpos {grid : Option Rat} (h : ∀ g ∈ grid, g ≤ 0) (value : Rat) :
    snapTo grid value = value := by
  cases grid with
  | none => rfl
  | some g => exact snap_of_nonpos (h g rfl) value

end

namespace Gesture

/-! ### Drags -/

/-- Where a drag leads a coordinate: not below zero, and with a grid to a multiple of it. -/
structure DraggedAlong (start delta : Rat) (grid : Option Rat) (x : Rat) : Prop where
  nonneg : 0 ≤ x
  snapped : ∀ g ∈ grid, 0 < g → Snapped g (max (start + delta) 0) x
  free : (∀ g ∈ grid, g ≤ 0) → x = max (start + delta) 0

theorem draggedAlong_snapTo (start delta : Rat) (grid : Option Rat) :
    DraggedAlong start delta grid (snapTo grid (max (start + delta) 0)) where
  nonneg := snapTo_nonneg (le_max_right _ _) grid
  snapped := by
    rintro g rfl hg
    exact snapped_snap hg _
  free h := snapTo_of_nonpos h _

theorem dragPosition_eq (origin delta : Point Rat) (grid : Option Rat) :
    dragPosition origin delta grid =
      ⟨snapTo grid (max (origin.x + delta.x) 0), snapTo grid (max (origin.y + delta.y) 0)⟩ := by
  simp only [dragPosition, Rational.max_eq, Rational.zero_eq]

theorem dragPosition_nonneg (origin delta : Point Rat) (grid : Option Rat) :
    0 ≤ (dragPosition origin delta grid).x ∧ 0 ≤ (dragPosition origin delta grid).y := by
  rw [dragPosition_eq]
  exact ⟨snapTo_nonneg (le_max_right _ _) grid, snapTo_nonneg (le_max_right _ _) grid⟩

/-- A drag from where a drag has led, to the same place. -/
theorem dragPosition_again (origin delta : Point Rat) (grid : Option Rat) :
    dragPosition (dragPosition origin delta grid) ⟨0, 0⟩ grid =
      dragPosition origin delta grid := by
  have hcoordinate (value : Rat) : snapTo grid (max (snapTo grid (max value 0) + 0) 0) =
      snapTo grid (max value 0) := by
    have hnonneg := snapTo_nonneg (le_max_right value 0) grid
    rw [add_zero, max_eq_left hnonneg, snapTo_snapTo]
  rw [dragPosition_eq, dragPosition_eq, hcoordinate, hcoordinate]

/-! ### Resizes -/

/-- What a resize makes of a side: at least one millimetre, and with a grid a multiple of it unless
that is too small. A side that the handle does not change stays. -/
structure ResizedAlong (affected : Bool) (start delta : Rat) (grid : Option Rat) (x : Rat) :
    Prop where
  atLeast : affected = true → 1 ≤ x
  snapped : affected = true → ∀ g ∈ grid, 0 < g →
    (OnGrid g x ∨ x = 1) ∧ |x - max (start + delta) 1| ≤ g / 2
  free : affected = true → (∀ g ∈ grid, g ≤ 0) → x = max (start + delta) 1
  untouched : affected = false → x = start

theorem grow_eq (side delta : Rat) (grid : Option Rat) :
    grow side delta grid = max (snapTo grid (max (side + delta) 1)) 1 := by
  simp only [grow, Rational.max_eq, Rational.one_eq]

/-- Above one millimetre the side is where it was snapped to; below, it is put at one, which is not
further from where the pointer led. -/
theorem grow_snapped {grid : Rat} (h : 0 < grid) (side delta : Rat) :
    (OnGrid grid (grow side delta (some grid)) ∨ grow side delta (some grid) = 1) ∧
      |grow side delta (some grid) - max (side + delta) 1| ≤ grid / 2 := by
  have hone : 1 ≤ max (side + delta) 1 := le_max_right _ _
  obtain ⟨honGrid, hnear⟩ := snapped_snap h (max (side + delta) 1)
  have hgrow : grow side delta (some grid) = max (snap (max (side + delta) 1) grid) 1 :=
    grow_eq side delta (some grid)
  rw [hgrow]
  by_cases hlarge : 1 ≤ snap (max (side + delta) 1) grid
  · rw [max_eq_left hlarge]
    exact ⟨.inl honGrid, hnear⟩
  · have hsmall : snap (max (side + delta) 1) grid ≤ 1 := le_of_not_ge hlarge
    rw [max_eq_right hsmall]
    refine ⟨.inr rfl, ?_⟩
    rw [abs_le] at hnear ⊢
    exact ⟨by linarith, by linarith⟩

theorem resizedAlong_grow (affected : Bool) (start delta : Rat) (grid : Option Rat) :
    ResizedAlong affected start delta grid (if affected then grow start delta grid else start) := by
  cases affected with
  | false => exact ⟨nofun, nofun, nofun, fun _ => rfl⟩
  | true =>
    refine ⟨fun _ => ?_, fun _ => ?_, fun _ hgrid => ?_, nofun⟩
    · show 1 ≤ grow start delta grid
      rw [grow_eq]
      exact le_max_right _ _
    · rintro g rfl hg
      exact grow_snapped hg start delta
    · show grow start delta grid = _
      rw [grow_eq, snapTo_of_nonpos hgrid, max_eq_left (le_max_right _ _)]

/-- A side that was put at one although it was snapped below stays at one: where it was snapped to,
one is snapped below as well. -/
theorem grow_again (side delta : Rat) (grid : Option Rat) :
    grow (grow side delta grid) 0 grid = grow side delta grid := by
  have hone : 1 ≤ max (side + delta) 1 := le_max_right _ _
  rw [grow_eq (grow side delta grid), grow_eq side, add_zero, max_eq_left (le_max_right _ 1)]
  by_cases hlarge : 1 ≤ snapTo grid (max (side + delta) 1)
  · rw [max_eq_left hlarge, snapTo_snapTo, max_eq_left hlarge]
  · have hsmall : snapTo grid (max (side + delta) 1) ≤ 1 := le_of_not_ge hlarge
    have hbelow : snapTo grid 1 ≤ 1 := by
      cases grid with
      | none => exact le_rfl
      | some g => exact (snap_mono hone g).trans hsmall
    rw [max_eq_right hsmall, max_eq_right hbelow]

theorem resized_again (initial : Size Rat) (handle : Handle) (delta : Point Rat)
    (grid : Option Rat) :
    resized (resized initial handle delta grid) handle ⟨0, 0⟩ grid =
      resized initial handle delta grid := by
  cases handle <;> simp [resized, Handle.affectsWidth, Handle.affectsHeight, grow_again]

/-- **Snapping.** A number is snapped to a multiple of the grid at most half a cell away, once and
for all and in order, and without a grid it stays. So a drag leads to coordinates that are not
negative, on the grid and at most half a cell from where the pointer led, and a resize to sides of
at least one millimetre that are on the grid or exactly one, while a side that the handle does not
change stays; and neither changes anything when it is done again without moving. -/
theorem snapping_laws :
    (∀ grid : Rat, 0 < grid → ∀ value, Snapped grid value (snap value grid) ∧
      snap (snap value grid) grid = snap value grid ∧
      ∀ more, value ≤ more → snap value grid ≤ snap more grid) ∧
    (∀ grid : Rat, grid ≤ 0 → ∀ value, snap value grid = value) ∧
    (∀ (origin delta : Point Rat) (grid : Option Rat),
      let position := dragPosition origin delta grid
      DraggedAlong origin.x delta.x grid position.x ∧
        DraggedAlong origin.y delta.y grid position.y ∧
        dragPosition position ⟨0, 0⟩ grid = position) ∧
    ∀ (initial : Size Rat) (handle : Handle) (delta : Point Rat) (grid : Option Rat),
      let size := resized initial handle delta grid
      ResizedAlong handle.affectsWidth initial.width delta.x grid size.width ∧
        ResizedAlong handle.affectsHeight initial.height delta.y grid size.height ∧
        resized size handle ⟨0, 0⟩ grid = size := by
  refine ⟨fun grid h value => ?_, fun grid h value => snap_of_nonpos h value,
    fun origin delta grid => ?_, fun initial handle delta grid => ?_⟩
  · exact ⟨snapped_snap h value, snap_snap grid value, fun more hle => snap_mono hle grid⟩
  · intro position
    refine ⟨?_, ?_, dragPosition_again origin delta grid⟩
    · simp only [position, dragPosition_eq]
      exact draggedAlong_snapTo origin.x delta.x grid
    · simp only [position, dragPosition_eq]
      exact draggedAlong_snapTo origin.y delta.y grid
  · exact ⟨resizedAlong_grow _ _ _ grid, resizedAlong_grow _ _ _ grid,
      resized_again initial handle delta grid⟩

/-- A number in the middle of a cell, a corner dragged over the label's edge, and the three handles
on a coarse grid: the lower one leaves the width as it is, the right one the height, and the corner
neither. Of the height under the lower handle and of the width under the corner too little is left
for the grid. -/
theorem middle_corner_and_short_side_snapped :
    (snap (15 / 4 : Rat) (5 / 2) = 5 ∧ Snapped (5 / 2) (15 / 4 : Rat) 5 ∧
      snap (15 / 4 : Rat) (5 / 2) ≤ snap 4 (5 / 2)) ∧
    snap (15 / 4 : Rat) (-1) = 15 / 4 ∧
    (let position : Point Rat := dragPosition ⟨2, 2⟩ ⟨-5, 7 / 2⟩ (some 1);
      0 ≤ position.x ∧ Snapped 1 (max (2 + -5) 0) position.x ∧
        Snapped 1 (max (2 + 7 / 2) 0) position.y) ∧
    (let size : Size Rat := resized ⟨10, 12⟩ .s ⟨-50, -50⟩ (some 5);
      size.width = 10 ∧ 1 ≤ size.height ∧ (OnGrid 5 size.height ∨ size.height = 1)) ∧
    (let size : Size Rat := resized ⟨10, 12⟩ .e ⟨4, -50⟩ (some 5);
      size.height = 12 ∧ 1 ≤ size.width ∧ (OnGrid 5 size.width ∨ size.width = 1)) ∧
    let size : Size Rat := resized ⟨10, 12⟩ .se ⟨-50, 7 / 2⟩ (some 5);
    (1 ≤ size.width ∧ (OnGrid 5 size.width ∨ size.width = 1)) ∧
      1 ≤ size.height ∧ (OnGrid 5 size.height ∨ size.height = 1) := by
  obtain ⟨hsnap, hoff, hdrag, hresize⟩ := snapping_laws
  have hmiddle : snap (15 / 4 : Rat) (5 / 2) = 5 := by decide +kernel
  obtain ⟨hsnapped, -, hmono⟩ := hsnap (5 / 2) (by decide +kernel) (15 / 4)
  obtain ⟨hx, hy, -⟩ := hdrag ⟨2, 2⟩ ⟨-5, 7 / 2⟩ (some 1)
  obtain ⟨hkept, hlow, -⟩ := hresize ⟨10, 12⟩ .s ⟨-50, -50⟩ (some 5)
  obtain ⟨hright, hkept', -⟩ := hresize ⟨10, 12⟩ .e ⟨4, -50⟩ (some 5)
  obtain ⟨hwidth, hheight, -⟩ := hresize ⟨10, 12⟩ .se ⟨-50, 7 / 2⟩ (some 5)
  have hgrid : (0 : Rat) < 5 := by decide +kernel
  refine ⟨⟨hmiddle, ?_, hmono 4 (by decide +kernel)⟩, hoff (-1) (by decide +kernel) (15 / 4),
    ⟨hx.nonneg, ?_, ?_⟩, ⟨hkept.untouched rfl, ?_⟩, ⟨hkept'.untouched rfl, ?_⟩, ?_, ?_⟩
  · rwa [hmiddle] at hsnapped
  · exact hx.snapped 1 rfl (by decide +kernel)
  · exact hy.snapped 1 rfl (by decide +kernel)
  · exact ⟨hlow.atLeast rfl, (hlow.snapped rfl 5 rfl hgrid).1⟩
  · exact ⟨hright.atLeast rfl, (hright.snapped rfl 5 rfl hgrid).1⟩
  · exact ⟨hwidth.atLeast rfl, (hwidth.snapped rfl 5 rfl hgrid).1⟩
  · exact ⟨hheight.atLeast rfl, (hheight.snapped rfl 5 rfl hgrid).1⟩

end Gesture

end ThermalLabel

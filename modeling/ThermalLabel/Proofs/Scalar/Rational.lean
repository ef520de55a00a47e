import Mathlib.Algebra.Order.Field.Rat
import Mathlib.Tactic.Linarith
import ThermalLabel.Geometry
import ThermalLabel.Scalar.Rational

/-! # Exact scalars are an ordered field

Over the rationals the operations of scalars are those of the ordered field. Rounding leads at most
a half away, keeps the order and leaves whole numbers as they are, and snapping to a grid does not
lead below zero. -/

namespace ThermalLabel

namespace Rational

@[simp]
theorem max_eq (x y : Rat) : Scalar.max x y = max x y := (max_def x y).symm

@[simp]
theorem min_eq (x y : Rat) : Scalar.min x y = min x y := (min_def x y).symm

@[simp]
theorem zero_eq : (Scalar.zero : Rat) = 0 := rfl

@[simp]
theorem one_eq : (Scalar.one : Rat) = 1 := rfl

@[simp]
theorem half_eq (x : Rat) : Scalar.half x = x / 2 := rfl

/-- Rounding leads to a whole number that is at most a half away. -/
theorem exists_round_eq (x : Rat) : ∃ n : Int, Rational.round x = n ∧ |(n : Rat) - x| ≤ 1 / 2 := by
  unfold Rational.round
  split_ifs
  · have hfloor := Rat.floor_le (x + 1 / 2)
    have hnext := Rat.lt_floor (x := x + 1 / 2)
    exact ⟨_, rfl, abs_le.mpr ⟨by linarith, by linarith⟩⟩
  · have hceil := Rat.le_ceil (x := x - 1 / 2)
    have hnext := Rat.ceil_lt (x := x - 1 / 2)
    exact ⟨_, rfl, abs_le.mpr ⟨by linarith, by linarith⟩⟩

theorem round_nonneg {x : Rat} (h : 0 ≤ x) : 0 ≤ Rational.round x := by
  have hfloor : 0 ≤ (x + 1 / 2).floor := by
    rw [Rat.le_floor_iff]
    push_cast
    linarith
  rw [Rational.round, if_pos h]
  exact_mod_cast hfloor

/-- A whole number is where it is rounded to. -/
theorem round_intCast (n : Int) : Rational.round n = n := by
  obtain ⟨m, hround, hnear⟩ := exists_round_eq n
  have hclose : |m - n| < 1 := by
    have hlt : |((m - n : Int) : Rat)| < 1 := by
      push_cast
      linarith
    exact_mod_cast hlt
  have hsame : m = n := by
    rw [abs_lt] at hclose
    omega
  rw [hround, hsame]

theorem round_mono {x y : Rat} (h : x ≤ y) : Rational.round x ≤ Rational.round y := by
  by_cases hx : 0 ≤ x
  · have hy : 0 ≤ y := hx.trans h
    have hfloor : (x + 1 / 2).floor ≤ (y + 1 / 2).floor := Rat.floor_monotone (by linarith)
    rw [Rational.round, Rational.round, if_pos hx, if_pos hy]
    exact_mod_cast hfloor
  · have hxceil : (x - 1 / 2).ceil ≤ 0 := Rat.ceil_le_iff.mpr (by push_cast; linarith)
    by_cases hy : 0 ≤ y
    · have hrounded : Rational.round x ≤ 0 := by
        rw [Rational.round, if_neg hx]
        exact_mod_cast hxceil
      exact hrounded.trans (round_nonneg hy)
    · have hceil : (x - 1 / 2).ceil ≤ (y - 1 / 2).ceil := by
        have hle := Rat.le_ceil (x := y - 1 / 2)
        exact Rat.ceil_le_iff.mpr (by linarith)
      rw [Rational.round, Rational.round, if_neg hx, if_neg hy]
      exact_mod_cast hceil

end Rational

theorem snap_of_nonpos {grid : Rat} (h : grid ≤ 0) (value : Rat) : snap value grid = value :=
  if_pos (Bool.or_eq_true_iff.mpr (.inl (decide_eq_true h)))

theorem snap_of_pos {grid : Rat} (h : 0 < grid) (value : Rat) :
    snap value grid = Rational.round (value / grid) * grid := by
  have hgrid : Scalar.le grid Scalar.zero = false := decide_eq_false (not_le.mpr h)
  have hfinite : Scalar.isFinite grid = true := rfl
  unfold snap
  rw [hgrid, hfinite]
  rfl

theorem snap_nonneg {value : Rat} (h : 0 ≤ value) (grid : Rat) : 0 ≤ snap value grid := by
  by_cases hgrid : 0 < grid
  · rw [snap_of_pos hgrid]
    exact mul_nonneg (Rational.round_nonneg (div_nonneg h hgrid.le)) hgrid.le
  · rw [snap_of_nonpos (not_lt.mp hgrid)]
    exact h

theorem snapTo_nonneg {value : Rat} (h : 0 ≤ value) (grid : Option Rat) :
    0 ≤ snapTo grid value := by
  cases grid with
  | none => exact h
  | some g => exact snap_nonneg h g

end ThermalLabel

import Mathlib.Tactic.SplitIfs
import ThermalLabel.Proofs.Scalar.Rational
import ThermalLabel.Scalar.Binary64

/-! # Lower bounds

A lower bound is put in force by taking the larger one of a number and the bound. A number within
the bound stays what it is, one that is below becomes the bound, and to do it twice is to do it
once. Zero and one, the bounds of positions and sides, are bounds in this sense over the rationals
and over the binary floating-point numbers, those included that are not ordered. -/

namespace ThermalLabel

/-- A number that can be put in force as a lower bound. Over floating-point numbers a zero may
change its sign thereby, which the test for equality does not see. -/
structure Scalar.IsBound {α : Type} [Scalar α] (bound : α) : Prop where
  twice : ∀ x, Scalar.max (Scalar.max x bound) bound = Scalar.max x bound
  comparable : ∀ x, Scalar.le bound x = true → (x == x) = true
  within : ∀ x, Scalar.le bound x = true → (Scalar.max x bound == x) = true
  below : ∀ x, Scalar.le bound x = false → Scalar.max x bound = bound

/-- Scalars over which zero and one are lower bounds. -/
class BoundedScalar (α : Type) [Scalar α] : Prop where
  zero : Scalar.IsBound (Scalar.zero : α)
  one : Scalar.IsBound (Scalar.one : α)

theorem Rational.isBound (bound : Rat) : Scalar.IsBound bound where
  twice x := by simp
  comparable x _ := beq_self_eq_true x
  within x h := by
    have hle : bound ≤ x := of_decide_eq_true h
    simp [hle]
  below x h := by
    have hlt : ¬ bound ≤ x := of_decide_eq_false h
    simp [le_of_not_ge hlt]

instance : BoundedScalar Rat := ⟨Rational.isBound _, Rational.isBound _⟩

/-! ### Binary floating-point numbers -/

namespace Float64

/-- How two floating-point numbers compare; one that is undefined compares to none. -/
def compare? (x y : Float) : Option Ordering := x.toModel.unpack.compare y.toModel.unpack

theorem le_iff_compare? {x y : Float} :
    Scalar.le x y = true ↔ compare? x y = some .lt ∨ compare? x y = some .eq := by
  show decide (x ≤ y) = true ↔ _
  rw [decide_eq_true_iff]
  change Float.le x y = true ↔ _
  rw [Float.le, decide_eq_true_iff]
  change (compare? x y).any (·.isLE) = true ↔ _
  cases compare? x y with
  | none => decide
  | some o => cases o <;> decide

theorem lt_iff_compare? {x y : Float} : x < y ↔ compare? x y = some .lt := by
  change Float.lt x y = true ↔ _
  rw [Float.lt, decide_eq_true_iff]
  change (compare? x y == some .lt) = true ↔ _
  rw [beq_iff_eq]

theorem beq_iff_compare? {x y : Float} : (x == y) = true ↔ compare? x y = some .eq := by
  change (compare? x y == some .eq) = true ↔ _
  rw [beq_iff_eq]

/-- Only defined numbers compare. -/
theorem isNaN_of_compare? {x y : Float} {o : Ordering} (h : compare? x y = some o) :
    x.isNaN = false ∧ y.isNaN = false := by
  change x.toModel.unpack.isNaN = false ∧ y.toModel.unpack.isNaN = false
  unfold compare? at h
  generalize x.toModel.unpack = x at h ⊢
  generalize y.toModel.unpack = y at h ⊢
  constructor
  · cases x with
    | notANumber => cases y <;> cases h
    | _ => rfl
  · cases y with
    | notANumber => cases x <;> cases h
    | _ => rfl

/-- A defined number is equal to itself. -/
theorem beq_self {x : Float} (h : x.isNaN = false) : (x == x) = true := by
  rw [beq_iff_compare?, compare?]
  change x.toModel.unpack.isNaN = false at h
  cases hx : x.toModel.unpack with
  | infinity sign => cases sign <;> rfl
  | notANumber => rw [hx] at h; cases h
  | zero sign => rfl
  | finite sign mantissa exponent positive =>
    have hsame : (compare exponent exponent).then (compare mantissa mantissa) = .eq := by
      rw [Int.compare_eq_eq.mpr rfl, Nat.compare_eq_eq.mpr rfl]
      rfl
    cases sign with
    | negative => exact congrArg (fun o : Ordering => some o.swap) hsame
    | positive => exact congrArg some hsame

theorem isNaN_of_le {x y : Float} (h : Scalar.le x y = true) :
    x.isNaN = false ∧ y.isNaN = false :=
  (le_iff_compare?.mp h).elim isNaN_of_compare? isNaN_of_compare?

/-- Every defined number is a bound. -/
theorem isBound {bound : Float} (h : bound.isNaN = false) : Scalar.IsBound bound := by
  have hmax (x : Float) : Scalar.max x bound = if bound < x then x else bound := by
    show Float64.max x bound = _
    rw [Float64.max, h]
    rfl
  refine ⟨fun x => ?_, fun x hx => beq_self (isNaN_of_le hx).2, fun x hx => ?_, fun x hx => ?_⟩
  · rw [hmax x]
    split_ifs with hlt
    · rw [hmax, if_pos hlt]
    · rw [hmax, ite_self]
  · rw [hmax]
    split_ifs with hlt
    · exact beq_self (isNaN_of_le hx).2
    · rw [lt_iff_compare?] at hlt
      exact beq_iff_compare?.mpr ((le_iff_compare?.mp hx).resolve_left hlt)
  · rw [hmax, if_neg]
    rw [lt_iff_compare?]
    intro hlt
    rw [le_iff_compare?.mpr (.inl hlt)] at hx
    cases hx

end Float64

instance : BoundedScalar Float := ⟨Float64.isBound (by decide), Float64.isBound (by decide)⟩

end ThermalLabel

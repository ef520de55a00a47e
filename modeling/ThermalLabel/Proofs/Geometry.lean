import Mathlib.Order.Bounds.Basic
import ThermalLabel.Proofs.Scalar.Rational

/-! # Rectangles around others

The rectangle that is built up from a list has the outermost edges of the list
(`Rect.around_unionAll`). It is the only one that has (`Rect.Around.unique`), so it does not depend
on the order. -/

namespace ThermalLabel.Rect

/-- The edges of a rectangle are the outermost ones of a list. -/
structure Around (box : Rect Rat) (rects : List (Rect Rat)) : Prop where
  left : IsLeast {x | x ∈ rects.map Rect.x} box.x
  right : IsGreatest {x | x ∈ rects.map Rect.right} box.right
  top : IsLeast {y | y ∈ rects.map Rect.y} box.y
  bottom : IsGreatest {y | y ∈ rects.map Rect.bottom} box.bottom

variable {box box' : Rect Rat} {rects rects' : List (Rect Rat)}

theorem setOf_mem_map_concat (f : Rect Rat → Rat) (rects : List (Rect Rat)) (r : Rect Rat) :
    {x | x ∈ (rects ++ [r]).map f} = {x | x ∈ rects.map f} ∪ {f r} := by
  ext x
  simp [eq_comm, or_comm]

theorem around_singleton (r : Rect Rat) : Around r [r] := by
  constructor <;> simp [IsLeast, IsGreatest, lowerBounds, upperBounds]

/-- The rectangle around a list and one rectangle more. -/
theorem Around.union (h : Around box rects) (r : Rect Rat) :
    Around (box.union r) (rects ++ [r]) := by
  constructor
  · rw [setOf_mem_map_concat]
    simpa [Rect.union] using h.left.union isLeast_singleton
  · rw [setOf_mem_map_concat]
    simpa [Rect.union, Rect.right] using h.right.union isGreatest_singleton
  · rw [setOf_mem_map_concat]
    simpa [Rect.union] using h.top.union isLeast_singleton
  · rw [setOf_mem_map_concat]
    simpa [Rect.union, Rect.bottom] using h.bottom.union isGreatest_singleton

theorem Around.foldl_union (h : Around box rects) (rest : List (Rect Rat)) :
    Around (rest.foldl Rect.union box) (rects ++ rest) := by
  induction rest generalizing box rects with
  | nil => simpa using h
  | cons r rest ih => simpa using ih (h.union r)

/-- **The rectangle built up from a list is the one around it.** -/
theorem around_unionAll (r : Rect Rat) (rest : List (Rect Rat)) :
    ∃ box, unionAll (r :: rest) = some box ∧ Around box (r :: rest) :=
  ⟨_, rfl, (around_singleton r).foldl_union rest⟩

theorem Around.perm (h : Around box rects) (hperm : rects.Perm rects') : Around box rects' := by
  have hset (f : Rect Rat → Rat) : {x | x ∈ rects.map f} = {x | x ∈ rects'.map f} := by
    ext x
    exact (hperm.map f).mem_iff
  refine ⟨?_, ?_, ?_, ?_⟩
  · rw [← hset]; exact h.left
  · rw [← hset]; exact h.right
  · rw [← hset]; exact h.top
  · rw [← hset]; exact h.bottom

theorem Around.unique (h : Around box rects) (h' : Around box' rects) : box = box' := by
  obtain ⟨x, y, width, height⟩ := box
  obtain ⟨x', y', width', height'⟩ := box'
  obtain rfl : x = x' := h.left.unique h'.left
  obtain rfl : y = y' := h.top.unique h'.top
  obtain rfl : width = width' := add_left_cancel (h.right.unique h'.right)
  obtain rfl : height = height' := add_left_cancel (h.bottom.unique h'.bottom)
  rfl

end ThermalLabel.Rect

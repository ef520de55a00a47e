import ThermalLabel.Decimal.Exact
import ThermalLabel.Proofs.Editor.Lasting

/-! # Bounds of the geometry

Positions are not negative, sides are at least one millimetre, a font is at least one point, and
neither padding nor stroke is negative. Over exact numbers these bounds are a lasting property of
elements, so that no run of an editor leaves them, as long as the documents from outside keep to
them (`bounds_after`). -/

namespace ThermalLabel

open Sequence (All)

/-- Sides are at least one millimetre, a font is at least one point, and neither padding nor stroke
is negative. -/
def Body.InBounds : Body Rat → Prop
  | .text t => 1 ≤ t.fontSize
  | .qrcode q => 1 ≤ q.width ∧ 1 ≤ q.height ∧ 0 ≤ q.padding
  | .barcode b => 1 ≤ b.width ∧ 1 ≤ b.height
  | .box b => 1 ≤ b.width ∧ 1 ≤ b.height ∧ 0 ≤ b.strokeWidth

/-- An element within the bounds of the geometry. -/
structure Element.InBounds (e : Element Rat) : Prop where
  x : 0 ≤ e.x
  y : 0 ≤ e.y
  body : e.body.InBounds

instance : (b : Body Rat) → Decidable b.InBounds
  | .text t => inferInstanceAs (Decidable (1 ≤ t.fontSize))
  | .qrcode q => inferInstanceAs (Decidable (1 ≤ q.width ∧ 1 ≤ q.height ∧ 0 ≤ q.padding))
  | .barcode b => inferInstanceAs (Decidable (1 ≤ b.width ∧ 1 ≤ b.height))
  | .box b => inferInstanceAs (Decidable (1 ≤ b.width ∧ 1 ≤ b.height ∧ 0 ≤ b.strokeWidth))

instance : DecidablePred Element.InBounds := fun e =>
  decidable_of_iff (0 ≤ e.x ∧ 0 ≤ e.y ∧ e.body.InBounds)
    ⟨fun ⟨x, y, body⟩ => ⟨x, y, body⟩, fun h => ⟨h.x, h.y, h.body⟩⟩

/-- The larger number is not below the second one, which is the bound wherever one is put in force.
-/
theorem Rational.le_max (x bound : Rat) : bound ≤ Scalar.max x bound := by
  show bound ≤ if x ≤ bound then bound else x
  split_ifs with h
  · exact Rat.le_refl
  · exact Rat.le_of_lt (Rat.not_le.mp h)

/-- A field that is named gets at least its bound, and one that is not named stays. -/
theorem Rational.le_getD_max {named : Option Rat} {bound value : Rat} (h : bound ≤ value) :
    bound ≤ (named.map fun x => Scalar.max x bound).getD value := by
  cases named with
  | none => exact h
  | some x => exact Rational.le_max x bound

namespace Body

/-- A size with sides of at least one millimetre. -/
theorem InBounds.withSize {b : Body Rat} (h : b.InBounds) {size : Size Rat}
    (hwidth : 1 ≤ size.width) (hheight : 1 ≤ size.height) : (b.withSize size).InBounds := by
  cases b with
  | text t => exact h
  | qrcode q => exact ⟨hwidth, hheight, h.2.2⟩
  | barcode b => exact ⟨hwidth, hheight⟩
  | box b => exact ⟨hwidth, hheight, h.2.2⟩

theorem InBounds.patched {b : Body Rat} (h : b.InBounds) (patch : Patch Rat) :
    (patch.applyBody b).InBounds := by
  cases b with
  | text t => exact Rational.le_getD_max h
  | qrcode q => exact ⟨h.1, h.2.1, Rational.le_getD_max h.2.2⟩
  | barcode b => exact h
  | box b => exact ⟨h.1, h.2.1, Rational.le_getD_max h.2.2⟩

end Body

namespace Element

theorem InBounds.moveTo {e : Element Rat} (h : e.InBounds) (p : Point Rat) :
    (e.moveTo p).InBounds :=
  ⟨Rational.le_max p.x 0, Rational.le_max p.y 0, h.body⟩

theorem InBounds.resize {e : Element Rat} (h : e.InBounds) (size : Size Rat) :
    (e.resize size).InBounds :=
  ⟨h.x, h.y, h.body.withSize (Rational.le_max size.width 1) (Rational.le_max size.height 1)⟩

theorem InBounds.applyPosition {e : Element Rat} (h : e.InBounds) (patch : Patch Rat) :
    (patch.applyPosition e).InBounds := by
  unfold Patch.applyPosition
  split_ifs
  · exact h.moveTo _
  · exact h

theorem InBounds.applySize {e : Element Rat} (h : e.InBounds) (patch : Patch Rat) :
    (patch.applySize e).InBounds := by
  unfold Patch.applySize
  split
  · split_ifs
    · exact h.resize _
    · exact h
  · exact h

theorem InBounds.apply {e : Element Rat} (h : e.InBounds) (patch : Patch Rat) :
    (patch.apply e).InBounds := by
  have hsized := (h.applyPosition patch).applySize patch
  exact ⟨hsized.x, hsized.y, hsized.body.patched patch⟩

theorem lasting_inBounds : Lasting InBounds where
  sample kind := by cases kind <;> decide +kernel
  withId _ _ h := ⟨h.x, h.y, h.body⟩
  moveTo _ p h := h.moveTo p
  resize _ size h := h.resize size
  apply _ patch h := h.apply patch

end Element

namespace Editor

/-- **No run leaves the bounds.** -/
theorem bounds_after {stored : Except Error (Option (Session Rat))}
    (hopen : All Element.InBounds (storedElements stored)) {ops : List (Operation Rat)}
    (hops : ∀ op ∈ ops, All Element.InBounds op.brought) (supply : IdSupply) :
    Everywhere (All Element.InBounds) ((openStored stored supply).after ops) :=
  Element.lasting_inBounds.everywhere_after hopen hops supply

/-- A text, a QR code and a box, on a grid below zero. -/
def mixed : Session Rat where
  document := ⟨LabelSize.standard,
    [{ Element.default .text with id := "t" }, { Element.default .qrcode with id := "q", x := 3 },
      { Element.default .box with id := "b", y := 7 }]⟩
  settings := ⟨StringMap.empty, .tspl, -2⟩

/-- A template of a box with the least sides. -/
def leastBox : String :=
  "\x7b\"labelSize\":\x7b\"width\":2,\"height\":1\x7d,\"elements\":[\x7b\"id\":\"l\"," ++
    "\"type\":\"box\",\"width\":1,\"height\":1,\"strokeWidth\":0\x7d]\x7d"

/-- A drag and a resize far past the label's corner with a coarse grid, patches and nudges below
every bound, an alignment by a measured size that is larger than the label, and an import in the
middle of a drag. -/
theorem bounds_after_rough_handling :
    Everywhere (All Element.InBounds) ((openStored (.ok (some mixed)) (.numbered 0)).after
      [.selectAll, .pointerDown (.element "q") ⟨0, 0⟩ ⟨false, false⟩,
        .pointerUp ⟨-400, 90⟩ ⟨false, false⟩, .setGrid 7, .setZoom (1 / 3),
        .pointerDown (.handle "b" .se) ⟨0, 0⟩ ⟨false, false⟩,
        .pointerUp ⟨-90, -90⟩ ⟨false, false⟩,
        .update "q" { x := some (-1), width := some (-5), padding := some (-1) },
        .update "t" { fontSize := some 0 }, .nudge ⟨-9, -9⟩, .measure "b" ⟨500, -3⟩,
        .align .center, .distribute .vertical, .duplicate, .undo, .restore mixed,
        .pointerDown (.element "b") ⟨0, 0⟩ ⟨false, false⟩, .pointerMove ⟨-8, -8⟩ ⟨false, true⟩,
        .importTemplate leastBox]) :=
  bounds_after (by decide +kernel) (by decide +kernel) _

end Editor

end ThermalLabel

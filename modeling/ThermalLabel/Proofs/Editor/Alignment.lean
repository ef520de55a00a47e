import Mathlib.Tactic.Linarith
import Mathlib.Tactic.Ring
import ThermalLabel.Proofs.Editor.Placement
import ThermalLabel.Proofs.Geometry

/-! # Alignment

An alignment is about a line of a rectangle: an edge or a centre (`Alignment.line`). It moves the
selected elements along one axis, until their lines lie on that of the rectangle around them, or on
that of the label if there is only one (`Editor.aligned`).

Rectangles that have a line in common have it in common with the rectangle around them
(`Alignment.line_of_around`). So the rectangle around the elements that are aligned has its line
where the one around them had it before, and aligning them again moves none of them. -/

namespace ThermalLabel

open Distribute (along withAlong)

namespace Alignment

/-- The axis that an alignment moves elements along. -/
def axis : Alignment → Distribution
  | .left | .center | .right => .horizontal
  | .top | .middle | .bottom => .vertical

/-- The edge or centre of a rectangle that an alignment is about. -/
def line : Alignment → Rect Rat → Rat
  | .left, r => r.x
  | .center, r => r.x + r.width / 2
  | .right, r => r.x + r.width
  | .top, r => r.y
  | .middle, r => r.y + r.height / 2
  | .bottom, r => r.y + r.height

/-- Where a rectangle starts along the axis of an alignment. -/
def start (alignment : Alignment) (r : Rect Rat) : Rat :=
  match alignment.axis with
  | .horizontal => r.x
  | .vertical => r.y

/-- How far a rectangle extends along the axis of an alignment. -/
def extent (alignment : Alignment) (r : Rect Rat) : Rat :=
  match alignment.axis with
  | .horizontal => r.width
  | .vertical => r.height

/-- How much of a rectangle lies before the line. -/
def share : Alignment → Rat
  | .left | .top => 0
  | .center | .middle => 1 / 2
  | .right | .bottom => 1

variable {alignment : Alignment} {r box : Rect Rat} {rects : List (Rect Rat)}

theorem share_mem (alignment : Alignment) : 0 ≤ alignment.share ∧ alignment.share ≤ 1 := by
  cases alignment <;> norm_num [share]

/-- All six lines in one form. -/
theorem line_eq (alignment : Alignment) (r : Rect Rat) :
    alignment.line r = alignment.start r + alignment.share * alignment.extent r := by
  cases alignment <;> simp [line, start, extent, share, axis] <;> ring

theorem around_start (h : Rect.Around box rects) (alignment : Alignment) :
    IsLeast {x | x ∈ rects.map alignment.start} (alignment.start box) := by
  cases alignment
  case left | center | right => exact h.left
  case top | middle | bottom => exact h.top

theorem around_finish (h : Rect.Around box rects) (alignment : Alignment) :
    IsGreatest {x | x ∈ rects.map fun r => alignment.start r + alignment.extent r}
      (alignment.start box + alignment.extent box) := by
  cases alignment
  case left | center | right => exact h.right
  case top | middle | bottom => exact h.bottom

/-- **Rectangles that have a line in common have it in common with the rectangle around them.** -/
theorem line_of_around (h : Rect.Around box rects) {place : Rat}
    (hline : ∀ r ∈ rects, alignment.line r = place) : alignment.line box = place := by
  obtain ⟨hshare, hshare'⟩ := alignment.share_mem
  obtain ⟨hstart, hleast⟩ := around_start h alignment
  obtain ⟨hfinish, hgreatest⟩ := around_finish h alignment
  obtain ⟨first, hfirst, hstart⟩ := List.mem_map.mp hstart
  obtain ⟨last, hlast, hfinish⟩ := List.mem_map.mp hfinish
  -- a line weighs start and finish, and box has the start of one rectangle, the finish of another
  have hweighed (r : Rect Rat) : alignment.line r = (1 - alignment.share) * alignment.start r +
      alignment.share * (alignment.start r + alignment.extent r) := by
    rw [line_eq]
    ring
  refine le_antisymm ?_ ?_
  · have hle : alignment.start box ≤ alignment.start last := hleast (List.mem_map_of_mem hlast)
    rw [← hline last hlast, hweighed box, hweighed last, hfinish]
    exact add_le_add (mul_le_mul_of_nonneg_left hle (sub_nonneg.mpr hshare')) le_rfl
  · have hle : alignment.start first + alignment.extent first ≤
        alignment.start box + alignment.extent box :=
      hgreatest (List.mem_map.mpr ⟨first, hfirst, rfl⟩)
    rw [← hline first hfirst, hweighed box, hweighed first, ← hstart]
    rw [← hstart] at hle
    exact add_le_add le_rfl (mul_le_mul_of_nonneg_left hle hshare)

/-- No rectangle of a list has to go beyond the start of the label for its line to lie on that of
the rectangle around them. -/
theorem nonneg_of_around (h : Rect.Around box rects) (hpos : ∀ r ∈ rects, 0 ≤ alignment.start r)
    (hr : r ∈ rects) : 0 ≤ alignment.line box - alignment.share * alignment.extent r := by
  obtain ⟨hshare, -⟩ := alignment.share_mem
  obtain ⟨hstart, hleast⟩ := around_start h alignment
  obtain ⟨first, hfirst, hstart⟩ := List.mem_map.mp hstart
  have hbox : 0 ≤ alignment.start box := hstart ▸ hpos first hfirst
  have hextent : alignment.extent r ≤ alignment.extent box := by
    have hle : alignment.start box ≤ alignment.start r := hleast (List.mem_map_of_mem hr)
    have hge := (around_finish h alignment).2 (List.mem_map.mpr ⟨r, hr, rfl⟩)
    linarith
  calc
    0 ≤ alignment.start box + alignment.share * (alignment.extent box - alignment.extent r) :=
      add_nonneg hbox (mul_nonneg hshare (sub_nonneg.mpr hextent))
    _ = alignment.line box - alignment.share * alignment.extent r := by
      rw [line_eq]
      ring

end Alignment

namespace Align

variable {alignment : Alignment} {reference : Rect Rat} {measured : MeasuredSizes Rat}
  {label : LabelSize Rat} {el : Element Rat} {els els' : List (Element Rat)}

/-- The reference rectangle of one element alone. -/
def whole (label : LabelSize Rat) : Rect Rat := ⟨0, 0, label.width, label.height⟩

theorem exists_reference (label : LabelSize Rat) {rects : List (Rect Rat)} (h : 2 ≤ rects.length) :
    ∃ box, reference? label rects = some box ∧ Rect.Around box rects := by
  match rects with
  | r :: s :: rest => exact Rect.around_unionAll r (s :: rest)

theorem exists_reference_of_mem (measured : MeasuredSizes Rat) (label : LabelSize Rat)
    (hel : el ∈ els) :
    ∃ reference, reference? label (els.map (Element.bounds measured)) = some reference := by
  match els with
  | [el] => exact ⟨_, rfl⟩
  | el :: other :: rest => exact ⟨_, rfl⟩

/-- The reference rectangle of several elements is the one around them. -/
theorem around_of_reference {rects : List (Rect Rat)} (h : 2 ≤ rects.length)
    (href : reference? label rects = some reference) : Rect.Around reference rects := by
  obtain ⟨box, hbox, haround⟩ := exists_reference label h
  obtain rfl : box = reference := Option.some_inj.mp (hbox.symm.trans href)
  exact haround

/-- The reference rectangle does not depend on the order. -/
theorem reference?_eq_of_perm (label : LabelSize Rat) {rects rects' : List (Rect Rat)}
    (hperm : rects.Perm rects') : reference? label rects = reference? label rects' := by
  match rects with
  | [] => rw [hperm.nil_eq]
  | [r] => rw [hperm.singleton_eq]
  | r :: s :: rest =>
    have hlength : 2 ≤ (r :: s :: rest).length := Nat.le_add_left 2 rest.length
    obtain ⟨box, hbox, haround⟩ := exists_reference label hlength
    obtain ⟨box', hbox', haround'⟩ := exists_reference label (hperm.length_eq ▸ hlength)
    rw [hbox, hbox', (haround.perm hperm).unique haround']

/-- Where an alignment with a reference rectangle puts an element along its axis. -/
def coordinate (alignment : Alignment) (reference : Rect Rat) (measured : MeasuredSizes Rat)
    (el : Element Rat) : Rat :=
  max (alignment.line reference - alignment.share * alignment.extent (el.bounds measured)) 0

theorem clamp_place (hx : 0 ≤ el.x) (hy : 0 ≤ el.y) (alignment : Alignment) (reference : Rect Rat)
    (measured : MeasuredSizes Rat) :
    clamp (place alignment reference (el.bounds measured)) =
      withAlong alignment.axis (coordinate alignment reference measured el) el := by
  cases alignment <;>
    simp [clamp, place, withAlong, coordinate, Alignment.axis, Alignment.line, Alignment.share,
      Alignment.extent, Rect.right, Rect.bottom, Element.bounds, hx, hy]
  all_goals congr 1; ring

theorem map_fst_targets (els : List (Element Rat)) (measured : MeasuredSizes Rat)
    (label : LabelSize Rat) (alignment : Alignment) :
    (targets els measured label alignment).map Prod.fst = Sequence.ids els := by
  match els with
  | [] => rfl
  | [el] => rfl
  | el :: other :: rest => simp [targets, reference?, Rect.unionAll, Sequence.ids]

theorem targets_of_reference (hpos : ∀ el ∈ els, 0 ≤ el.x ∧ 0 ≤ el.y)
    (h : reference? label (els.map (Element.bounds measured)) = some reference) :
    targets els measured label alignment = els.map fun el =>
      (el.id, withAlong alignment.axis (coordinate alignment reference measured el) el) := by
  rw [targets, h]
  refine List.map_congr_left fun el hel => ?_
  obtain ⟨hx, hy⟩ := hpos el hel
  rw [clamp_place hx hy]

theorem targets_perm (hperm : els.Perm els') (measured : MeasuredSizes Rat)
    (label : LabelSize Rat) (alignment : Alignment) :
    (targets els measured label alignment).Perm (targets els' measured label alignment) := by
  rw [targets, targets, reference?_eq_of_perm label (hperm.map _)]
  split
  · exact List.Perm.refl _
  · exact hperm.map _

/-! ### Where elements are put -/

theorem start_bounds (alignment : Alignment) (measured : MeasuredSizes Rat) (el : Element Rat) :
    alignment.start (el.bounds measured) = along alignment.axis el := by
  cases alignment <;> rfl

/-- An element that is displaced keeps its extent. -/
theorem extent_bounds {el' : Element Rat} (h : Element.Displaced el el') (alignment : Alignment)
    (measured : MeasuredSizes Rat) :
    alignment.extent (el'.bounds measured) = alignment.extent (el.bounds measured) := by
  have hfootprint : el'.footprint measured = el.footprint measured := by
    rw [h]
    rfl
  simp only [Alignment.extent, Element.bounds, hfootprint]

theorem nodup_targets (hids : (Sequence.ids els).Nodup) :
    ((targets els measured label alignment).map Prod.fst).Nodup := by
  rwa [map_fst_targets]

theorem exists_of_mem_targets (hpos : ∀ el ∈ els, 0 ≤ el.x ∧ 0 ≤ el.y)
    {target : ElementId × Point Rat} (h : target ∈ targets els measured label alignment) :
    ∃ el ∈ els, ∃ place, target = (el.id, withAlong alignment.axis place el) := by
  have hid : target.1 ∈ Sequence.ids els := by
    rw [← map_fst_targets els measured label alignment]
    exact List.mem_map_of_mem h
  obtain ⟨el, hel, -⟩ := List.mem_map.mp hid
  obtain ⟨reference, href⟩ := exists_reference_of_mem measured label hel
  rw [targets_of_reference hpos href] at h
  obtain ⟨el, hel, rfl⟩ := List.mem_map.mp h
  exact ⟨el, hel, _, rfl⟩

theorem mem_targets (alignment : Alignment) (hpos : ∀ el ∈ els, 0 ≤ el.x ∧ 0 ≤ el.y)
    (href : reference? label (els.map (Element.bounds measured)) = some reference)
    (hel : el ∈ els) :
    (el.id, withAlong alignment.axis (coordinate alignment reference measured el) el) ∈
      targets els measured label alignment := by
  rw [targets_of_reference hpos href]
  exact List.mem_map_of_mem hel

section
variable (hids : (Sequence.ids els).Nodup) (hpos : ∀ el ∈ els, 0 ≤ el.x ∧ 0 ≤ el.y)
  (href : reference? label (els.map (Element.bounds measured)) = some reference)
include hids hpos href

theorem along_placed (hel : el ∈ els) :
    along alignment.axis (el.placed (targets els measured label alignment)) =
      coordinate alignment reference measured el := by
  rw [Element.placed_of_mem (nodup_targets hids) (mem_targets alignment hpos href hel),
    Distribute.along_moveTo_withAlong]
  exact max_eq_left (le_max_right _ _)

/-- An element that need not go beyond the start of the label has its line where the reference
rectangle has it. -/
theorem line_placed (hel : el ∈ els)
    (hnonneg : 0 ≤ alignment.line reference -
      alignment.share * alignment.extent (el.bounds measured)) :
    alignment.line ((el.placed (targets els measured label alignment)).bounds measured) =
      alignment.line reference := by
  rw [Alignment.line_eq, start_bounds, along_placed hids hpos href hel,
    extent_bounds (el.displaced_placed _), coordinate, max_eq_left hnonneg, sub_add_cancel]

/-- Several elements are aligned with the rectangle around them. -/
theorem line_placed_of_around
    (haround : Rect.Around reference (els.map (Element.bounds measured))) (hel : el ∈ els) :
    alignment.line ((el.placed (targets els measured label alignment)).bounds measured) =
      alignment.line reference := by
  refine line_placed hids hpos href hel ?_
  refine Alignment.nonneg_of_around haround (List.forall_mem_map.mpr fun other hother => ?_)
    (List.mem_map_of_mem hel)
  obtain ⟨hx, hy⟩ := hpos other hother
  cases alignment
  case left | center | right => exact hx
  case top | middle | bottom => exact hy

/-- Aligned elements are aligned with a rectangle that has its line where the first one had it. -/
theorem line_reference_again {reference' : Rect Rat}
    (href' : reference? label ((els.map (Element.placed (targets els measured label alignment))).map
      (Element.bounds measured)) = some reference') :
    alignment.line reference' = alignment.line reference := by
  match els with
  | [] => cases href
  | [el] =>
    cases href
    cases href'
    rfl
  | el :: other :: rest =>
    have haround := around_of_reference (Nat.le_add_left 2 _) href
    have haround' := around_of_reference (Nat.le_add_left 2 _) href'
    refine Alignment.line_of_around haround' ?_
    rw [List.map_map]
    exact List.forall_mem_map.mpr fun el hel => line_placed_of_around hids hpos href haround hel

theorem nonneg_placed (hel : el ∈ els) :
    0 ≤ (el.placed (targets els measured label alignment)).x ∧
      0 ≤ (el.placed (targets els measured label alignment)).y := by
  rw [Element.placed_of_mem (nodup_targets hids) (mem_targets alignment hpos href hel)]
  exact el.nonneg_moveTo _

end

/-- One element alone is aligned with the label if it is not larger, and it is held at the edge
otherwise. -/
theorem placed_of_singleton (hx : 0 ≤ el.x) (hy : 0 ≤ el.y) (measured : MeasuredSizes Rat)
    (label : LabelSize Rat) (alignment : Alignment) :
    (alignment.extent (el.bounds measured) ≤ alignment.extent (whole label) →
      alignment.line ((el.placed (targets [el] measured label alignment)).bounds measured) =
        alignment.line (whole label)) ∧
    (alignment.extent (whole label) < alignment.extent (el.bounds measured) →
      along alignment.axis (el.placed (targets [el] measured label alignment)) = 0) := by
  have hids : (Sequence.ids [el]).Nodup := List.nodup_singleton _
  have hpos : ∀ other ∈ [el], 0 ≤ other.x ∧ 0 ≤ other.y := List.forall_mem_singleton.mpr ⟨hx, hy⟩
  have href : reference? label ([el].map (Element.bounds measured)) = some (whole label) := rfl
  have hmem : el ∈ [el] := List.mem_singleton_self el
  obtain ⟨hshare, -⟩ := alignment.share_mem
  have hstart : alignment.start (whole label) = 0 := by cases alignment <;> rfl
  have hroom : alignment.line (whole label) -
        alignment.share * alignment.extent (el.bounds measured) =
      alignment.share *
        (alignment.extent (whole label) - alignment.extent (el.bounds measured)) := by
    rw [Alignment.line_eq, hstart]
    ring
  refine ⟨fun hfits => line_placed hids hpos href hmem ?_, fun hlarger => ?_⟩
  · rw [hroom]
    exact mul_nonneg hshare (sub_nonneg.mpr hfits)
  · rw [along_placed hids hpos href hmem, coordinate, hroom]
    exact max_eq_right (mul_nonpos_of_nonneg_of_nonpos hshare (sub_nonpos.mpr hlarger.le))

/-- Elements that are aligned stay where they are. -/
theorem placed_again (hids : (Sequence.ids els).Nodup) (hpos : ∀ el ∈ els, 0 ≤ el.x ∧ 0 ≤ el.y)
    (hel : el ∈ els) :
    (el.placed (targets els measured label alignment)).placed
        (targets (els.map (Element.placed (targets els measured label alignment))) measured label
          alignment) =
      el.placed (targets els measured label alignment) := by
  have hagain : el.placed (targets els measured label alignment) ∈
      els.map (Element.placed (targets els measured label alignment)) := List.mem_map_of_mem hel
  obtain ⟨reference, href⟩ := exists_reference_of_mem measured label hel
  obtain ⟨reference', href'⟩ := exists_reference_of_mem measured label hagain
  have hkeys : ((targets els measured label alignment).map Prod.fst).Nodup := nodup_targets hids
  have hkeys' : ((targets (els.map (Element.placed (targets els measured label alignment))) measured
      label alignment).map Prod.fst).Nodup :=
    nodup_targets (by rwa [Element.ids_map_placed])
  have hpos' : ∀ el ∈ els.map (Element.placed (targets els measured label alignment)),
      0 ≤ el.x ∧ 0 ≤ el.y :=
    List.forall_mem_map.mpr fun el hel => nonneg_placed hids hpos href hel
  have hmem := mem_targets alignment hpos href hel
  have hmem' := mem_targets alignment hpos' href' hagain
  rw [Element.id_placed] at hmem'
  refine Element.placed_again hkeys hkeys' hmem hmem' ?_
  rw [coordinate, line_reference_again hids hpos href href', extent_bounds (el.displaced_placed _),
    coordinate]

end Align

namespace Editor

variable {e : Editor Rat}

/-- What is aligned, selected and aligned again are the elements as they are placed. -/
theorem align_again {targets : List (ElementId × Point Rat)} (hkeys : (targets.map Prod.fst).Nodup)
    (alignment : Alignment) :
    (e.moveToTargets targets).editor.align alignment =
      (e.moveToTargets targets).editor.moveToTargets (Align.targets
        (e.chosen.map (Element.placed targets)) e.measured e.document.labelSize alignment) := by
  obtain ⟨history, heditor⟩ := e.editor_moveToTargets hkeys
  rw [chosen, ← Sequence.selected_map (Element.id_placed _), heditor]
  rfl

/-- Elements lined up. The lines of several selected elements lie on that of the rectangle that was
around them, and that of one element alone lies on that of the label, unless the element is larger
and is held at the edge. -/
structure LinedUp (alignment : Alignment) (e : Editor Rat) (placed : Element Rat → Element Rat) :
    Prop where
  group : 2 ≤ e.chosen.length →
    ∃ box, Rect.Around box (e.chosen.map (Element.bounds e.measured)) ∧
      ∀ el ∈ e.chosen, alignment.line ((placed el).bounds e.measured) = alignment.line box
  alone : ∀ el, e.chosen = [el] →
    alignment.extent (el.bounds e.measured) ≤ alignment.extent (Align.whole e.document.labelSize) →
    alignment.line ((placed el).bounds e.measured) =
      alignment.line (Align.whole e.document.labelSize)
  larger : ∀ el, e.chosen = [el] →
    alignment.extent (Align.whole e.document.labelSize) < alignment.extent (el.bounds e.measured) →
    along alignment.axis (placed el) = 0

theorem linedUp_placed (hids : (Sequence.ids e.chosen).Nodup)
    (hpos : ∀ el ∈ e.chosen, 0 ≤ el.x ∧ 0 ≤ el.y) (alignment : Alignment) :
    LinedUp alignment e (Element.placed
      (Align.targets e.chosen e.measured e.document.labelSize alignment)) := by
  have hsingle {el : Element Rat} (hone : e.chosen = [el]) := Align.placed_of_singleton
    (hpos el (hone ▸ List.mem_singleton_self el)).1 (hpos el (hone ▸ List.mem_singleton_self el)).2
    e.measured e.document.labelSize alignment
  refine ⟨fun htwo => ?_, fun el hone => ?_, fun el hone => ?_⟩
  · have hlength : 2 ≤ (e.chosen.map (Element.bounds e.measured)).length := by simpa using htwo
    obtain ⟨box, hbox, haround⟩ := Align.exists_reference e.document.labelSize hlength
    exact ⟨box, haround, fun el hel => Align.line_placed_of_around hids hpos hbox haround hel⟩
  · rw [hone]
    exact (hsingle hone).1
  · rw [hone]
    exact (hsingle hone).2

/-- **Alignment lines up what is selected**, in whatever order the elements lie, and there is
nothing to align a second time. -/
theorem aligned (hids : (Sequence.ids e.chosen).Nodup)
    (hpos : ∀ el ∈ e.chosen, 0 ≤ el.x ∧ 0 ≤ el.y) (alignment : Alignment) :
    ∃ placed,
      (∀ els, els.Perm e.elements →
        ((e.withElements els).align alignment).editor.elements = els.map placed) ∧
      PlacedAlong alignment.axis e.selection e.elements placed ∧
      LinedUp alignment e placed ∧
      (e.align alignment).editor.align alignment = (e.align alignment).editor.keeping () := by
  have hkeys : ((Align.targets e.chosen e.measured e.document.labelSize alignment).map
      Prod.fst).Nodup := Align.nodup_targets hids
  refine ⟨Element.placed (Align.targets e.chosen e.measured e.document.labelSize alignment),
    fun els hperm => ?_, ?_, linedUp_placed hids hpos alignment, ?_⟩
  · have htargets : (Align.targets (e.withElements els).chosen e.measured e.document.labelSize
        alignment).Perm (Align.targets e.chosen e.measured e.document.labelSize alignment) :=
      Align.targets_perm (hperm.filter _) e.measured e.document.labelSize alignment
    have hkeys' := (htargets.map Prod.fst).nodup_iff.mpr hkeys
    obtain ⟨history, heditor⟩ := (e.withElements els).editor_moveToTargets hkeys'
    rw [← Element.placed_eq_of_perm hkeys' htargets]
    exact congrArg Editor.elements heditor
  · exact placedAlong_placed hids hpos hkeys fun target htarget =>
      Align.exists_of_mem_targets hpos htarget
  · have halign : e.align alignment = e.moveToTargets
      (Align.targets e.chosen e.measured e.document.labelSize alignment) := rfl
    rw [halign, align_again hkeys]
    refine moveToTargets_again hids ?_ ?_ fun el hel => Align.placed_again hids hpos hel
    · rw [Align.map_fst_targets]
    · rw [Align.map_fst_targets, Element.ids_map_placed]

/-- An editor with three boxes, all of them selected, the first one of them displayed larger than it
is stored. -/
def threeSelected : Editor Rat := (openStored (.ok (some threeBoxes)) (.numbered 0)).after [
  .measure "a" ⟨60, 12⟩, .selectAll]

/-- Three boxes aligned by their right edges. -/
theorem right_edges_lined_up :
    (∃ placed, (threeSelected.align .right).editor.elements = threeSelected.elements.map placed ∧
      PlacedAlong .horizontal threeSelected.selection threeSelected.elements placed ∧
      LinedUp .right threeSelected placed) ∧
    (threeSelected.align .right).editor.elements.map Element.x = [10, 50, 50] ∧
    (threeSelected.align .right).editor.align .right =
      (threeSelected.align .right).editor.keeping () := by
  obtain ⟨placed, helements, hplaced, hlined, hagain⟩ := aligned (e := threeSelected)
    (by decide +kernel) (by decide +kernel) .right
  refine ⟨⟨placed, helements _ (List.Perm.refl _), hplaced, hlined⟩, ?_, hagain⟩
  decide +kernel

end Editor

end ThermalLabel

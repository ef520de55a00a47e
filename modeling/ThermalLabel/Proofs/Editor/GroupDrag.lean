import ThermalLabel.Decimal.Exact
import ThermalLabel.Proofs.Editor.Frames
import ThermalLabel.Proofs.Editor.Presses
import ThermalLabel.Proofs.Editor.Snapping
import ThermalLabel.Proofs.Element.Kindred

/-! # Dragging a group

A drag moves what is selected, and the element under the pointer leads: it goes where the pointer
leads it, held at the label's edge and snapped to the grid, and every other one goes as far as it
has gone, held at the edge by itself. So two elements keep their distance along an axis on which
neither is held (`group_dragged`). -/

namespace ThermalLabel

open Element (Displaced)

namespace Drag

variable {α : Type} {d : Drag α}

/-- A drag knows where each element was. -/
theorem get?_origins (h : (Sequence.ids d.origin).Nodup) {el : Element α} (hel : el ∈ d.origin) :
    d.origins.get? el.id = some el.position := by
  have hkeys : ((d.origin.map fun e => (e.id, e.position)).map Prod.fst).Nodup := by
    rwa [List.map_map]
  rw [origins, StringMap.get?_ofList hkeys, lookup_eq_some_iff_mem hkeys]
  exact List.mem_map_of_mem hel

variable [Scalar α]

theorem destination?_primary (h : (Sequence.ids d.origin).Nodup) {primary : Element α}
    (hprimary : primary ∈ d.origin) (hid : primary.id = d.primary) (delta : Point α)
    (grid : Option α) :
    d.destination? delta grid primary.id =
      some (Gesture.dragPosition primary.position delta grid) := by
  rw [destination?, ← hid, get?_origins h hprimary]
  simp

theorem destination?_of_ne (h : (Sequence.ids d.origin).Nodup) {primary el : Element α}
    (hprimary : primary ∈ d.origin) (hid : primary.id = d.primary) (hel : el ∈ d.origin)
    (hne : el.id ≠ primary.id) (delta : Point α) (grid : Option α) :
    d.destination? delta grid el.id =
      let applied := Gesture.dragPosition primary.position delta grid - primary.position
      some ⟨el.x + applied.x, el.y + applied.y⟩ := by
  rw [destination?, ← hid, get?_origins h hprimary, get?_origins h hel]
  simp [hne, Element.position]

end Drag

namespace Element

theorem position_moveTo (e : Element Rat) (p : Point Rat) :
    (e.moveTo p).position = ⟨max p.x 0, max p.y 0⟩ := by
  simp [moveTo, position]

end Element

theorem Gesture.travel_eq (start pos : Point Rat) (zoom : Rat) :
    travel start pos zoom = ⟨(pos.x - start.x) / zoom, (pos.y - start.y) / zoom⟩ := by
  show (⟨(pos.x - start.x) * (1 / zoom), (pos.y - start.y) * (1 / zoom)⟩ : Point Rat) = _
  rw [mul_one_div, mul_one_div]

/-- Two coordinates that are displaced alike keep their distance, if neither gets below zero. -/
theorem Rational.distance_displaced {a b displacement : Rat} (ha : 0 ≤ a + displacement)
    (hb : 0 ≤ b + displacement) : max 0 (b + displacement) - max 0 (a + displacement) = b - a := by
  rw [max_eq_right ha, max_eq_right hb]
  linarith

/-- Where a drag has brought a group. The element that leads is at its target, every other one that
is selected goes as far, held at the label's edge by itself, and the rest stays. -/
structure GroupAt (els : List (Element Rat)) (selection : Selection) (leader : Element Rat)
    (target : Point Rat) (placed : Element Rat → Element Rat) : Prop where
  /-- Nothing but positions has changed. -/
  displaced : ∀ el ∈ els, Displaced el (placed el)
  leading : (placed leader).position = target
  following : ∀ el ∈ els, selection.contains el.id = true → el.id ≠ leader.id →
    (placed el).position =
      ⟨max 0 (el.x + (target.x - leader.x)), max 0 (el.y + (target.y - leader.y))⟩
  distance_x : ∀ a ∈ els, ∀ b ∈ els, selection.contains a.id = true →
    selection.contains b.id = true → 0 ≤ a.x + (target.x - leader.x) →
    0 ≤ b.x + (target.x - leader.x) → (placed b).x - (placed a).x = b.x - a.x
  distance_y : ∀ a ∈ els, ∀ b ∈ els, selection.contains a.id = true →
    selection.contains b.id = true → 0 ≤ a.y + (target.y - leader.y) →
    0 ≤ b.y + (target.y - leader.y) → (placed b).y - (placed a).y = b.y - a.y
  unselected : ∀ el ∈ els, selection.contains el.id = false → placed el = el

namespace Drag

/-- An element in a frame of a drag. -/
def placed (d : Drag Rat) (selection : Selection) (delta : Point Rat) (grid : Option Rat)
    (el : Element Rat) : Element Rat :=
  if selection.contains el.id then el.moveTo? (d.destination? delta grid el.id) else el

/-- The leader goes as far as the others do, and it is never held at the edge. -/
theorem position_placed {d : Drag Rat} (hids : (Sequence.ids d.origin).Nodup)
    {leader el : Element Rat} (hleader : leader ∈ d.origin) (hid : leader.id = d.primary)
    (hel : el ∈ d.origin) {selection : Selection} (hselected : selection.contains el.id = true)
    (delta : Point Rat) (grid : Option Rat) :
    let target := Gesture.dragPosition leader.position delta grid
    (d.placed selection delta grid el).position =
      ⟨max 0 (el.x + (target.x - leader.x)), max 0 (el.y + (target.y - leader.y))⟩ := by
  intro target
  obtain ⟨hx, hy⟩ : 0 ≤ target.x ∧ 0 ≤ target.y := Gesture.dragPosition_nonneg ..
  rw [placed, if_pos hselected]
  by_cases hsame : el.id = leader.id
  · obtain rfl : el = leader := List.inj_on_of_nodup_map hids hel hleader hsame
    rw [destination?_primary hids hleader hid, Element.moveTo?, Element.position_moveTo, max_comm,
      max_comm target.y]
    congr 2 <;> exact (add_sub_cancel _ _).symm
  · rw [destination?_of_ne hids hleader hid hel hsame, Element.moveTo?, Element.position_moveTo,
      max_comm, max_comm (el.y + _)]
    rfl

theorem groupAt_placed {d : Drag Rat} (hids : (Sequence.ids d.origin).Nodup)
    {leader : Element Rat} (hleader : leader ∈ d.origin) (hid : leader.id = d.primary)
    {selection : Selection} (hselected : selection.contains leader.id = true) (delta : Point Rat)
    (grid : Option Rat) :
    GroupAt d.origin selection leader (Gesture.dragPosition leader.position delta grid)
      (d.placed selection delta grid) := by
  have hposition {el : Element Rat} (hel : el ∈ d.origin)
      (hsel : selection.contains el.id = true) :=
    d.position_placed hids hleader hid hel hsel delta grid
  refine ⟨fun el _ => ?_, ?_, fun el hel hsel _ => hposition hel hsel, ?_, ?_, fun el _ hnot => ?_⟩
  · unfold placed Element.moveTo?
    split_ifs
    · split
      · exact Element.displaced_moveTo el _
      · exact Element.displaced_refl el
    · exact Element.displaced_refl el
  · obtain ⟨hx, hy⟩ := Gesture.dragPosition_nonneg leader.position delta grid
    have hleading := hposition hleader hselected
    dsimp only at hleading
    rw [add_sub_cancel, add_sub_cancel, max_eq_right hx, max_eq_right hy] at hleading
    exact hleading
  · intro a ha b hb hasel hbsel hax hbx
    have hxa : (d.placed selection delta grid a).x = _ := congrArg Point.x (hposition ha hasel)
    have hxb : (d.placed selection delta grid b).x = _ := congrArg Point.x (hposition hb hbsel)
    rw [hxa, hxb]
    exact Rational.distance_displaced hax hbx
  · intro a ha b hb hasel hbsel hay hby
    have hya : (d.placed selection delta grid a).y = _ := congrArg Point.y (hposition ha hasel)
    have hyb : (d.placed selection delta grid b).y = _ := congrArg Point.y (hposition hb hbsel)
    rw [hya, hyb]
    exact Rational.distance_displaced hay hby
  · rw [placed, if_neg (Bool.eq_false_iff.mp hnot)]

end Drag

namespace Editor

variable {e : Editor Rat}

/-- **The leader takes the group along.** Once the pointer has got past a click, every frame leaves
the leader where the pointer leads it, and the group as far from where it was. -/
theorem group_dragged (hidle : e.gesture = .idle) (hids : (Sequence.ids e.elements).Nodup)
    {target : PointerTarget} {start : Point Rat} {modifiers : Modifiers} {d : Drag Rat}
    (hd : (e.pointerDown target start modifiers).gesture = .dragging d)
    {moves : List (Point Rat × Modifiers)} {last : Point Rat × Modifiers}
    (hpast : ∃ move ∈ moves ++ [last],
      Gesture.exceedsClick (Gesture.travel start move.1 e.zoom) = true) :
    ∃ leader ∈ e.elements, leader.id = d.primary ∧
      (e.pointerDown target start modifiers).selection.contains leader.id = true ∧
      ∃ placed, ((e.pointerDown target start modifiers).after
          (frames (moves ++ [last]))).elements = e.elements.map placed ∧
        GroupAt e.elements (e.pointerDown target start modifiers).selection leader
          (Gesture.dragPosition leader.position
            ⟨(last.1.x - start.x) / e.zoom, (last.1.y - start.y) / e.zoom⟩ (e.grid? last.2))
          placed := by
  obtain ⟨hprimary, hstart, horigin, selection, hselected, hpressed⟩ := exists_of_dragging hidle hd
  obtain ⟨leader, hleader, hid⟩ := List.mem_map.mp hprimary
  rw [hpressed]
  have hcounts : ∃ move ∈ moves ++ [last],
      ({ e with selection, gesture := .dragging d } : Editor Rat).counts move.1 = true := by
    obtain ⟨move, hmem, hexceeds⟩ := hpast
    refine ⟨move, hmem, ?_⟩
    simp [counts, reaches, Gesture.anchor?, hstart, hexceeds]
  have hleft := ((leftAt_frameAt ({ e with selection, gesture := .dragging d } : Editor Rat) last.1
    last.2).dragging d rfl).2
  have hgroup := d.groupAt_placed (horigin ▸ hids) (horigin ▸ hleader) hid (hid ▸ hselected)
    ⟨(last.1.x - start.x) / e.zoom, (last.1.y - start.y) / e.zoom⟩ (e.grid? last.2)
  rw [horigin] at hgroup
  refine ⟨leader, hleader, hid, hid ▸ hselected, _, ?_, hgroup⟩
  rw [after_frames _ moves last hcounts, hleft, hstart, Gesture.travel_eq]
  rfl

/-- An editor with three boxes, the first two selected. -/
def twoOfThree : Editor Rat := (openStored (.ok (some threeBoxes)) (.numbered 0)).after [
  .select "a", .pointerDown (.element "b") ⟨0, 0⟩ ⟨true, false⟩, .pointerUp ⟨0, 0⟩ ⟨true, false⟩]

/-- The pointer gone down on the first box. -/
def pressedOnFirst : Editor Rat := twoOfThree.pointerDown (.element "a") ⟨0, 0⟩ ⟨false, false⟩

theorem idle_twoOfThree : twoOfThree.gesture = .idle :=
  Gesture.eq_idle_of_isIdle (by decide +kernel)

theorem gesture_pressedOnFirst : pressedOnFirst.gesture = .dragging
    ⟨"a", ⟨0, 0⟩, twoOfThree.elements, false, twoOfThree.selection.collapse? "a" false⟩ := by
  rw [pressedOnFirst, pointerDown_element idle_twoOfThree (by decide +kernel)]
  exact congrArg Editor.gesture (if_pos (by decide +kernel))

/-- Both selected boxes are dragged to the left and down. The first one is snapped to the grid, the
second one is held at the left edge, and the third one stays. -/
theorem follower_held_at_edge :
    let after := pressedOnFirst.after
      (frames [(⟨90, 90⟩, ⟨false, true⟩), (⟨-28, 13⟩, ⟨false, false⟩)])
    (∃ leader ∈ twoOfThree.elements, leader.id = "a" ∧
      ∃ placed, after.elements = twoOfThree.elements.map placed ∧
        GroupAt twoOfThree.elements pressedOnFirst.selection leader
          (Gesture.dragPosition leader.position
            ⟨(-28 - 0) / twoOfThree.zoom, (13 - 0) / twoOfThree.zoom⟩
            (twoOfThree.grid? ⟨false, false⟩)) placed) ∧
      after.elements.map Element.x = [5, 0, 30] ∧ after.elements.map Element.y = [5, 10, 0] := by
  intro after
  have hpast : ∃ move ∈ [(⟨90, 90⟩, ⟨false, true⟩)] ++
        [((⟨-28, 13⟩, ⟨false, false⟩) : Point Rat × Modifiers)],
      Gesture.exceedsClick (Gesture.travel ⟨0, 0⟩ move.1 twoOfThree.zoom) = true :=
    ⟨_, List.mem_cons_self, by decide +kernel⟩
  obtain ⟨leader, hleader, hid, -, placed, helements, hgroup⟩ :=
    group_dragged idle_twoOfThree (by decide +kernel) gesture_pressedOnFirst hpast
  refine ⟨⟨leader, hleader, hid, placed, helements, hgroup⟩, ?_⟩
  decide +kernel

end Editor

end ThermalLabel

import ThermalLabel.Proofs.Editor.Refusals

/-! # Presses on an element

At rest, a press on an element changes the selection, and it begins a drag if the element is
selected then (`pointerDown_element`). Nothing else begins a drag (`exists_of_dragging`). -/

namespace ThermalLabel

variable {α : Type}

namespace Selection

/-- The selection after a press on an element: an additive press toggles it, and another one selects
it alone unless it is selected already. -/
def pressed (s : Selection) (id : ElementId) (additive : Bool) : Selection :=
  if additive then s.toggle id else if s.contains id then s else only id

/-- The id to select alone if the press turns out to be a click. -/
def collapse? (s : Selection) (id : ElementId) (additive : Bool) : Option ElementId :=
  if !additive && s.contains id && 1 < s.size then some id else none

end Selection

namespace Editor

variable {e : Editor α}

theorem pointerDown_element (hidle : e.gesture = .idle) {id : ElementId}
    (hid : id ∈ Sequence.ids e.elements) (pos : Point α) (modifiers : Modifiers) :
    e.pointerDown (.element id) pos modifiers =
      let after := { e with selection := e.selection.pressed id modifiers.additive }
      if after.selection.contains id then
        after.beginDrag id pos (e.selection.collapse? id modifiers.additive)
      else after := by
  have hcontains : e.document.contains id = true := (e.document.contains_iff_mem_ids id).mpr hid
  obtain ⟨additive, precise⟩ := modifiers
  simp only [pointerDown, cancel_of_idle hidle, pressElement, hcontains, Selection.pressed,
    Selection.collapse?, Bool.not_true, Bool.false_eq_true, if_false]
  cases additive with
  | true => simp
  | false =>
    by_cases hselected : e.selection.contains id = true
    · simp [hselected]
    · simp [hselected, Selection.contains_only]

theorem pointerDown_of_not_mem (hidle : e.gesture = .idle) {id : ElementId}
    (hid : id ∉ Sequence.ids e.elements) (pos : Point α) (modifiers : Modifiers) :
    e.pointerDown (.element id) pos modifiers = e := by
  have hcontains : e.document.contains id = false :=
    Bool.eq_false_iff.mpr (mt (e.document.contains_iff_mem_ids id).mp hid)
  simp [pointerDown, cancel_of_idle hidle, pressElement, hcontains]

/-- A drag begins on an element that is there and selected, and it keeps where the pointer went down
and the elements as they are. -/
theorem exists_of_dragging (hidle : e.gesture = .idle) {target : PointerTarget} {start : Point α}
    {modifiers : Modifiers} {d : Drag α}
    (hd : (e.pointerDown target start modifiers).gesture = .dragging d) :
    d.primary ∈ Sequence.ids e.elements ∧ d.start = start ∧ d.origin = e.elements ∧
      ∃ selection : Selection, selection.contains d.primary = true ∧
        e.pointerDown target start modifiers = { e with selection, gesture := .dragging d } := by
  cases target with
  | element id =>
    by_cases hid : id ∈ Sequence.ids e.elements
    · rw [pointerDown_element hidle hid] at hd ⊢
      dsimp only at hd ⊢
      split_ifs at hd ⊢ with hselected
      · cases hd
        exact ⟨hid, rfl, rfl, _, hselected, rfl⟩
      · rw [hidle] at hd
        cases hd
    · rw [pointerDown_of_not_mem hidle hid, hidle] at hd
      cases hd
  | handle id handle =>
    rw [pointerDown, cancel_of_idle hidle] at hd
    dsimp only [pressHandle] at hd
    split at hd
    · rw [hidle] at hd
      cases hd
    · cases hd
  | canvas => cases hd

end Editor

end ThermalLabel

import ThermalLabel.Proofs.Editor.Abandoned
import ThermalLabel.Proofs.Editor.Frames
import ThermalLabel.Proofs.Editor.Presses

/-! # Clicks

A click is a stroke on an element that never gets far from where the pointer went down. What it
selects is settled in three places: an additive press toggles, a press on an element that is not
selected selects it alone, and of several selected elements the release leaves one. From the outside
there is one rule (`click_selects`): the element is selected alone, or toggled if the press was
additive, and nothing else in the workspace changes. -/

namespace ThermalLabel

variable {α : Type}

namespace Selection

theorem eq_only_of_size_le_one {s : Selection} {id : ElementId} (hid : s.contains id = true)
    (hsize : s.size ≤ 1) : s = only id := by
  obtain ⟨entries, hsorted⟩ := s
  have hmem : id ∈ entries.map Prod.fst := (StringMap.contains_iff_mem_keys _ id).mp hid
  cases entries with
  | nil => cases hmem
  | cons entry rest =>
    have hrest : rest = [] := List.length_eq_zero_iff.mp (by simpa [StringMap.size] using hsize)
    subst hrest
    obtain rfl : id = entry.1 := by simpa using hmem
    rfl

/-- The selection after a click on an element. -/
def clicked (s : Selection) (id : ElementId) (additive : Bool) : Selection :=
  if additive then s.toggle id else only id

/-- What the press selects, and the release after it if several were selected, is what the click
selects. -/
theorem elim_collapse? (s : Selection) (id : ElementId) (additive : Bool) :
    (s.collapse? id additive).elim (s.pressed id additive) only = s.clicked id additive := by
  unfold collapse? pressed clicked
  cases additive with
  | true => simp
  | false =>
    cases hid : s.contains id with
    | false => simp
    | true =>
      by_cases hsize : 1 < s.size
      · simp [hsize]
      · simpa [hsize] using eq_only_of_size_le_one hid (Nat.le_of_not_lt hsize)

/-- A press that leaves an element unselected leaves nothing for the release to do. -/
theorem collapse?_of_not_pressed {s : Selection} {id : ElementId} {additive : Bool}
    (h : ¬ (s.pressed id additive).contains id = true) : s.collapse? id additive = none := by
  unfold collapse?
  unfold pressed at h
  cases additive with
  | true => rfl
  | false => cases hid : s.contains id <;> simp_all

theorem contains_toggle (s : Selection) (id other : ElementId) :
    (s.toggle id).contains other = if other = id then !s.contains id else s.contains other := by
  unfold toggle
  split_ifs with hid hother hother
  · simp [hother, hid, StringMap.erase, StringMap.contains_filterKeys]
  · simp [hother, StringMap.erase, StringMap.contains_filterKeys]
  · simp [hother, hid, IdSet.contains_add]
  · simp [Ne.symm hother, IdSet.contains_add]

end Selection

variable [Scalar α]

/-- The pointer stays near the place where it went down. -/
def Stroke.Stays (s : Stroke α) (zoom : α) : Prop :=
  ∀ pos ∈ s.moves.map Prod.fst ++ [s.finish],
    Gesture.exceedsClick (Gesture.travel s.start pos zoom) = false

instance (s : Stroke α) (zoom : α) : Decidable (s.Stays zoom) :=
  inferInstanceAs (Decidable (∀ pos ∈ _, _))

namespace Editor

variable {e : Editor α}

/-- Near the place of the press, moving the pointer does nothing. -/
theorem pointerMove_of_near (hidle : e.gesture = .idle) {id : ElementId}
    (hid : id ∈ Sequence.ids e.elements) {start pos : Point α} (pressed modifiers : Modifiers)
    (hnear : Gesture.exceedsClick (Gesture.travel start pos e.zoom) = false) :
    (e.pointerDown (.element id) start pressed).pointerMove pos modifiers =
      e.pointerDown (.element id) start pressed := by
  rw [pointerDown_element hidle hid]
  dsimp only
  split_ifs with hselected
  · simp [beginDrag, pointerMove, dragTo, hnear]
  · simp [pointerMove, hidle]

omit [Scalar α] in
theorem release_pointerDown (hidle : e.gesture = .idle) {id : ElementId}
    (hid : id ∈ Sequence.ids e.elements) (start : Point α) (pressed : Modifiers) :
    (e.pointerDown (.element id) start pressed).release =
      { e with selection := e.selection.clicked id pressed.additive }.keeping () := by
  obtain ⟨document, settings, selection, history, gesture, measured, zoom, supply⟩ := e
  cases hidle
  rw [pointerDown_element rfl hid, ← Selection.elim_collapse?]
  dsimp only
  split_ifs with hselected
  · cases hcollapse : selection.collapse? id pressed.additive <;> rfl
  · rw [Selection.collapse?_of_not_pressed hselected]
    rfl

/-- Near the place of the press, the release does what is left of the click. -/
theorem pointerUp_of_near (hidle : e.gesture = .idle) {id : ElementId}
    (hid : id ∈ Sequence.ids e.elements) {start pos : Point α} (pressed modifiers : Modifiers)
    (hnear : Gesture.exceedsClick (Gesture.travel start pos e.zoom) = false) :
    (e.pointerDown (.element id) start pressed).pointerUp pos modifiers =
      { e with selection := e.selection.clicked id pressed.additive }.keeping () := by
  rw [pointerUp, pointerMove_of_near hidle hid pressed modifiers hnear,
    release_pointerDown hidle hid]

end Editor

namespace Workspace

variable [NumberText α]

theorem performAll_append (w : Workspace α) (ops more : List (Operation α)) :
    w.performAll (ops ++ more) = (w.performAll ops).performAll more := List.foldl_append

/-- **A click selects, and it does nothing else.** -/
theorem click_selects (w : Workspace α) (hidle : w.editor.gesture = .idle) {id : ElementId}
    (hid : id ∈ Sequence.ids w.editor.elements) {s : Stroke α} (htarget : s.target = .element id)
    (hstays : s.Stays w.editor.zoom) :
    ∃ selection, w.performAll s.ops =
        { w with editor := { w.editor with selection, gesture := .idle } } ∧
      (s.pressed.additive = false → selection.keys = [id]) ∧
      (s.pressed.additive = true → ∀ other, selection.contains other =
        if other = id then !w.editor.selection.contains id
        else w.editor.selection.contains other) := by
  refine ⟨w.editor.selection.clicked id s.pressed.additive, ?_, fun hadditive => ?_,
    fun hadditive other => ?_⟩
  · -- up to the release there is nothing to save, and nothing happens after the press
    have hquiet : ∀ op ∈ .pointerDown s.target s.start s.pressed :: Editor.frames s.moves,
        ∀ e : Editor α, (e.perform op).saves = false := by
      intro op hop
      refine not_saves_of_gestures ?_
      rcases List.mem_cons.mp hop with rfl | hop
      · rfl
      · obtain ⟨move, -, rfl⟩ := List.mem_map.mp hop
        rfl
    have hstill :
        w.editor.after (.pointerDown s.target s.start s.pressed :: Editor.frames s.moves) =
          w.editor.pointerDown (.element id) s.start s.pressed := by
      rw [htarget]
      refine Editor.after_frames_of_still _ _ fun move hmove => ?_
      have hnear := hstays move.1 (List.mem_append_left _ (List.mem_map_of_mem hmove))
      exact Editor.pointerMove_of_near hidle hid s.pressed move.2 hnear
    have hrelease := Editor.pointerUp_of_near hidle hid s.pressed s.released
      (hstays s.finish (List.mem_append_right _ (List.mem_singleton_self _)))
    have hreply : (w.editor.pointerDown (.element id) s.start s.pressed).perform
        (.pointerUp s.finish s.released) = { w.editor with
          selection := w.editor.selection.clicked id s.pressed.additive }.keeping .done := by
      rw [Editor.perform, hrelease]
      rfl
    rw [Stroke.ops, ← List.cons_append, performAll_append, performAll_of_not_saves hquiet, hstill]
    refine (perform_of_not_saves (congrArg Reply.saves hreply)).trans ?_
    rw [hreply, ← hidle]
    rfl
  · rw [Selection.clicked, hadditive]
    rfl
  · rw [Selection.clicked, if_pos hadditive]
    exact Selection.contains_toggle ..

/-- A workspace on a session with three boxes, all of them selected. -/
def allSelected : Workspace Rat :=
  let w := ofStore (.memory (some Editor.threeBoxes)) false (.numbered 0)
  { w with editor := w.editor.selectAll }

/-- A shaky click on the first box. -/
def shakyClick (additive : Bool) : Stroke Rat where
  target := .element "a"
  start := ⟨50, 10⟩
  pressed := ⟨additive, false⟩
  moves := [(⟨1001 / 20, 10⟩, ⟨false, false⟩), (⟨50, 103 / 10⟩, ⟨true, true⟩)]
  finish := ⟨499 / 10, 99 / 10⟩
  released := ⟨!additive, false⟩

/-- Of three selected boxes a click leaves the first one, or the other two if it toggles. -/
theorem click_on_first_of_three :
    (∃ selection, allSelected.performAll (shakyClick false).ops =
        { allSelected with editor := { allSelected.editor with selection, gesture := .idle } } ∧
      selection.keys = ["a"]) ∧
    ∃ selection, allSelected.performAll (shakyClick true).ops =
        { allSelected with editor := { allSelected.editor with selection, gesture := .idle } } ∧
      selection.contains "a" = false ∧ selection.contains "b" = true := by
  have hidle : allSelected.editor.gesture = .idle :=
    Gesture.eq_idle_of_isIdle (by decide +kernel)
  have hid : "a" ∈ Sequence.ids allSelected.editor.elements := by decide +kernel
  obtain ⟨alone, hclick, hkeys, -⟩ := click_selects allSelected hidle hid (s := shakyClick false)
    rfl (by decide +kernel)
  obtain ⟨others, htoggle, -, hflip⟩ := click_selects allSelected hidle hid (s := shakyClick true)
    rfl (by decide +kernel)
  refine ⟨⟨alone, hclick, hkeys rfl⟩, others, htoggle, ?_, ?_⟩
  · rw [hflip rfl "a"]
    decide +kernel
  · rw [hflip rfl "b"]
    decide +kernel

end Workspace

end ThermalLabel

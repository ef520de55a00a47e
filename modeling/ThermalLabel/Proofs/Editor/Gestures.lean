import Mathlib.Tactic.SplitIfs
import ThermalLabel.Editor.Pointer

/-! # The course of a gesture

What the pointer does to the elements, the history and the gesture. A drag or a resize keeps the
elements that it began with; the base of an editor is the sequence that is there once the gesture in
progress is given up. No press and no frame changes it. -/

namespace ThermalLabel

variable {α : Type}

namespace Gesture

/-- The elements that a gesture began with, if it changes elements. -/
def origin? : Gesture α → Option (List (Element α))
  | .dragging d => some d.origin
  | .resizing r => some r.origin
  | _ => none

/-- Where the pointer went down to change elements. -/
def anchor? : Gesture α → Option (Point α)
  | .dragging d => some d.start
  | .resizing r => some r.start
  | _ => none

/-- Whether a gesture has got past a click, so that its end makes a snapshot. -/
def hasMoved : Gesture α → Bool
  | .dragging d => d.moved
  | .resizing r => r.moved
  | _ => false

/-- No gesture keeps nothing. -/
theorem forall_origin?_idle {P : List (Element α) → Prop} {g : Gesture α} (h : g = .idle) :
    ∀ els ∈ g.origin?, P els := by
  intro els hels
  rw [h] at hels
  cases hels

theorem eq_idle_of_isIdle {g : Gesture α} (h : g.isIdle = true) : g = .idle := by
  cases g with
  | idle => rfl
  | _ => cases h

end Gesture

namespace Editor

variable {e e' : Editor α}

/-! ### Giving a gesture up -/

/-- The elements that are there once the gesture in progress is given up. -/
def base (e : Editor α) : List (Element α) := e.gesture.origin?.getD e.elements

@[simp]
theorem elements_cancel (e : Editor α) : e.cancel.elements = e.base := by
  obtain ⟨document, settings, selection, history, gesture, measured, zoom, supply⟩ := e
  cases gesture <;> rfl

@[simp]
theorem history_cancel (e : Editor α) : e.cancel.history = e.history := by
  obtain ⟨document, settings, selection, history, gesture, measured, zoom, supply⟩ := e
  cases gesture <;> rfl

/-- Cancelling concerns neither the label nor the settings. -/
theorem surroundings_cancel (e : Editor α) :
    e.cancel.document.labelSize = e.document.labelSize ∧ e.cancel.settings = e.settings := by
  obtain ⟨document, settings, selection, history, gesture, measured, zoom, supply⟩ := e
  cases gesture <;> exact ⟨rfl, rfl⟩

@[simp]
theorem gesture_cancel (e : Editor α) : e.cancel.gesture = .idle := by
  obtain ⟨document, settings, selection, history, gesture, measured, zoom, supply⟩ := e
  cases gesture <;> rfl

theorem cancel_of_idle (h : e.gesture = .idle) : e.cancel = e := by
  simp only [cancel, h]

theorem cancel_cancel (e : Editor α) : e.cancel.cancel = e.cancel :=
  cancel_of_idle (gesture_cancel e)

/-! ### Beginning a gesture -/

/-- An editor after a press: elements and history as before, and a gesture that has not moved and
keeps these elements, if there is one. -/
structure Pressed (e e' : Editor α) : Prop where
  elements : e'.elements = e.elements
  history : e'.history = e.history
  still : e'.gesture.hasMoved = false
  origin : ∀ els ∈ e'.gesture.origin?, els = e.elements

theorem pressed_of_idle (helements : e'.elements = e.elements) (hhistory : e'.history = e.history)
    (hidle : e'.gesture = .idle) : Pressed e e' := by
  exact ⟨helements, hhistory, by rw [hidle]; rfl, Gesture.forall_origin?_idle hidle⟩

theorem pressed_beginDrag (helements : e'.elements = e.elements) (hhistory : e'.history = e.history)
    (id : ElementId) (pos : Point α) (collapseTo : Option ElementId) :
    Pressed e (e'.beginDrag id pos collapseTo) :=
  ⟨helements, hhistory, rfl, fun _ h => (Option.some.inj h).symm.trans helements⟩

theorem pressed_pressElement (hidle : e.gesture = .idle) (id : ElementId) (pos : Point α)
    (modifiers : Modifiers) : Pressed e (e.pressElement id pos modifiers) := by
  unfold pressElement
  dsimp only
  split_ifs
  · exact pressed_of_idle rfl rfl hidle
  · refine pressed_beginDrag ?_ ?_ id pos _ <;> rfl
  · exact pressed_of_idle rfl rfl hidle
  all_goals refine pressed_beginDrag ?_ ?_ id pos _ <;> rfl

theorem pressed_pressHandle (hidle : e.gesture = .idle) (id : ElementId) (handle : Handle)
    (pos : Point α) : Pressed e (e.pressHandle id handle pos) := by
  unfold pressHandle
  split
  · exact pressed_of_idle rfl rfl hidle
  · exact ⟨rfl, rfl, rfl, fun _ h => (Option.some.inj h).symm⟩

theorem pressed_pressCanvas (e : Editor α) (pos : Point α) (modifiers : Modifiers) :
    Pressed e (e.pressCanvas pos modifiers) := ⟨rfl, rfl, rfl, fun _ h => by cases h⟩

theorem pressed_pointerDown (e : Editor α) (target : PointerTarget) (pos : Point α)
    (modifiers : Modifiers) : Pressed e.cancel (e.pointerDown target pos modifiers) := by
  cases target with
  | element id => exact pressed_pressElement (gesture_cancel e) id pos modifiers
  | handle id handle => exact pressed_pressHandle (gesture_cancel e) id handle pos
  | canvas => exact pressed_pressCanvas _ pos modifiers

/-! ### Going on with a gesture -/

/-- An editor after a frame of its gesture. Up to the travel of a click the elements stay. -/
structure Framed (e e' : Editor α) : Prop where
  history : e'.history = e.history
  origin : e'.gesture.origin? = e.gesture.origin?
  idle : e'.gesture.isIdle = e.gesture.isIdle
  elements : e'.gesture.hasMoved = false → e'.elements = e.elements
  still : e'.gesture.hasMoved = false → e.gesture.hasMoved = false

theorem framed_refl (e : Editor α) : Framed e e := ⟨rfl, rfl, rfl, fun _ => rfl, id⟩

theorem framed_of_hasMoved (hhistory : e'.history = e.history)
    (horigin : e'.gesture.origin? = e.gesture.origin?)
    (hidle : e'.gesture.isIdle = e.gesture.isIdle) (hmoved : e'.gesture.hasMoved = true) :
    Framed e e' := by
  refine ⟨hhistory, horigin, hidle, ?_, ?_⟩
  all_goals
    intro hstill
    rw [hmoved] at hstill
    cases hstill

theorem Framed.trans {e'' : Editor α} (h : Framed e e') (h' : Framed e' e'') : Framed e e'' where
  history := h'.history.trans h.history
  origin := h'.origin.trans h.origin
  idle := h'.idle.trans h.idle
  elements hstill := (h'.elements hstill).trans (h.elements (h'.still hstill))
  still hstill := h.still (h'.still hstill)

section
variable [Scalar α]

/-- All that a frame can do. -/
inductive Frame (e : Editor α) (pos : Point α) : Editor α → Prop
  | idle (gesture : e.gesture = .idle) : Frame e pos e
  /-- The pointer has not got past a click yet. -/
  | still {start} (anchor : e.gesture.anchor? = some start) (still : e.gesture.hasMoved = false)
      (click : Gesture.exceedsClick (Gesture.travel start pos e.zoom) = false) : Frame e pos e
  | drag {d} (gesture : e.gesture = .dragging d)
      (past : d.moved = true ∨ Gesture.exceedsClick (Gesture.travel d.start pos e.zoom) = true)
      (elements : List (Element α)) :
      Frame e pos { e.withElements elements with gesture := .dragging { d with moved := true } }
  | resize {r} (gesture : e.gesture = .resizing r)
      (past : r.moved = true ∨ Gesture.exceedsClick (Gesture.travel r.start pos e.zoom) = true)
      (elements : List (Element α)) :
      Frame e pos { e.withElements elements with gesture := .resizing { r with moved := true } }
  | marquee {m} (gesture : e.gesture = .marquee m) (selection : Selection) :
      Frame e pos { e with selection, gesture := .marquee { m with current := pos } }

theorem frame_pointerMove (e : Editor α) (pos : Point α) (modifiers : Modifiers) :
    Frame e pos (e.pointerMove pos modifiers) := by
  unfold pointerMove
  split
  · next h => exact .idle h
  · next d hd =>
    unfold dragTo
    dsimp only
    split_ifs with hclick
    · rw [Bool.and_eq_true, Bool.not_eq_true', Bool.not_eq_true'] at hclick
      exact .still (by rw [hd]; rfl) (by rw [hd]; exact hclick.1) hclick.2
    · refine .drag hd ?_ _
      simpa [Decidable.or_iff_not_imp_left] using hclick
  · next r hr =>
    unfold resizeTo
    dsimp only
    split_ifs with hclick
    · rw [Bool.and_eq_true, Bool.not_eq_true', Bool.not_eq_true'] at hclick
      exact .still (by rw [hr]; rfl) (by rw [hr]; exact hclick.1) hclick.2
    · refine .resize hr ?_ _
      simpa [Decidable.or_iff_not_imp_left] using hclick
  · next m hm => exact .marquee hm _

theorem Frame.framed {pos : Point α} (h : Frame e pos e') : Framed e e' := by
  cases h with
  | idle _ => exact framed_refl e
  | still _ _ _ => exact framed_refl e
  | drag hd _ _ => exact framed_of_hasMoved rfl (by rw [hd]; rfl) (by rw [hd]; rfl) rfl
  | resize hr _ _ => exact framed_of_hasMoved rfl (by rw [hr]; rfl) (by rw [hr]; rfl) rfl
  | marquee hm _ =>
    exact ⟨rfl, by rw [hm]; rfl, by rw [hm]; rfl, fun _ => rfl, fun _ => by rw [hm]; rfl⟩

theorem framed_pointerMove (e : Editor α) (pos : Point α) (modifiers : Modifiers) :
    Framed e (e.pointerMove pos modifiers) := (frame_pointerMove e pos modifiers).framed

end

/-! ### Ending a gesture -/

theorem release_of_hasMoved (h : e.gesture.hasMoved = true) :
    e.release = { e with gesture := .idle }.commit () := by
  obtain ⟨document, settings, selection, history, gesture, measured, zoom, supply⟩ := e
  cases gesture with
  | idle => cases h
  | marquee m => cases h
  | dragging d => exact if_pos h
  | resizing r => exact if_pos h

/-- A gesture that has not moved ends as a click: all that may change is the selection. -/
theorem release_of_still (h : e.gesture.hasMoved = false) :
    ∃ selection, e.release = { e with gesture := .idle, selection }.keeping () := by
  obtain ⟨document, settings, selection, history, gesture, measured, zoom, supply⟩ := e
  cases gesture with
  | idle => exact ⟨selection, rfl⟩
  | marquee m => exact ⟨selection, rfl⟩
  | resizing r => exact ⟨selection, if_neg (Bool.eq_false_iff.mp h)⟩
  | dragging d =>
    obtain ⟨primary, start, origin, moved, collapseTo⟩ := d
    subst h
    cases collapseTo with
    | none => exact ⟨selection, rfl⟩
    | some id => exact ⟨Selection.only id, rfl⟩

end Editor

end ThermalLabel

import ThermalLabel.Proofs.Editor.Runs

/-! # Strokes

A stroke is a gesture from press to release. It makes a snapshot if it moves elements, that is, if
its press begins a drag or a resize and a later position lies further from the press than a click
reaches (`Stroke.Moves`). A stroke that does not move leaves elements and history as they are. -/

namespace ThermalLabel

variable {α : Type}

/-- A press, moves of the pointer and a release, each with the keys held. -/
structure Stroke (α : Type) where
  target : PointerTarget
  start : Point α
  pressed : Modifiers
  moves : List (Point α × Modifiers)
  finish : Point α
  released : Modifiers

namespace Editor

variable {e e' : Editor α}

/-! ### Where a gesture is anchored -/

theorem anchor?_pressElement (hidle : e.gesture = .idle) (id : ElementId) (pos : Point α)
    (modifiers : Modifiers) :
    ∀ start ∈ (e.pressElement id pos modifiers).gesture.anchor?, start = pos := by
  have hnone : ∀ start ∈ e.gesture.anchor?, start = pos := by
    rw [hidle]
    rintro start ⟨⟩
  have hsome : ∀ start ∈ some pos, start = pos := by
    rintro start ⟨⟩
    rfl
  unfold pressElement
  dsimp only
  split_ifs
  · exact hnone
  · exact hsome
  · exact hnone
  all_goals exact hsome

theorem anchor?_pressHandle (hidle : e.gesture = .idle) (id : ElementId) (handle : Handle)
    (pos : Point α) : ∀ start ∈ (e.pressHandle id handle pos).gesture.anchor?, start = pos := by
  unfold pressHandle
  split
  · rw [hidle]
    rintro start ⟨⟩
  · rintro start ⟨⟩
    rfl

/-- A drag or a resize is anchored where the pointer went down. -/
theorem anchor?_pointerDown (e : Editor α) (target : PointerTarget) (pos : Point α)
    (modifiers : Modifiers) :
    ∀ start ∈ (e.pointerDown target pos modifiers).gesture.anchor?, start = pos := by
  cases target with
  | element id => exact anchor?_pressElement (gesture_cancel e) id pos modifiers
  | handle id handle => exact anchor?_pressHandle (gesture_cancel e) id handle pos
  | canvas => rintro start ⟨⟩

theorem zoom_pointerDown (e : Editor α) (target : PointerTarget) (pos : Point α)
    (modifiers : Modifiers) : (e.pointerDown target pos modifiers).zoom = e.zoom := by
  have hcancel : e.cancel.zoom = e.zoom := by
    obtain ⟨document, settings, selection, history, gesture, measured, zoom, supply⟩ := e
    cases gesture <;> rfl
  rw [← hcancel]
  cases target with
  | element id =>
    unfold pointerDown pressElement
    dsimp only
    split_ifs <;> rfl
  | handle id handle =>
    unfold pointerDown pressHandle
    dsimp only
    split <;> rfl
  | canvas => rfl

variable [Scalar α]

/-! ### Rows of frames -/

/-- Whether a position lies further from the anchor of a gesture than a click reaches. -/
def reaches (e : Editor α) (pos : Point α) : Bool :=
  e.gesture.anchor?.any fun start => Gesture.exceedsClick (Gesture.travel start pos e.zoom)

theorem Frame.anchored {pos : Point α} (h : Frame e pos e') :
    e'.gesture.anchor? = e.gesture.anchor? ∧ e'.zoom = e.zoom := by
  cases h with
  | idle _ => exact ⟨rfl, rfl⟩
  | still _ _ _ => exact ⟨rfl, rfl⟩
  | drag hd _ elements => exact ⟨by rw [hd]; rfl, rfl⟩
  | resize hr _ elements => exact ⟨by rw [hr]; rfl, rfl⟩
  | marquee hm selection => exact ⟨by rw [hm]; rfl, rfl⟩

theorem Frame.reaches {pos : Point α} (h : Frame e pos e') : e'.reaches = e.reaches := by
  obtain ⟨hanchor, hzoom⟩ := h.anchored
  funext position
  rw [Editor.reaches, Editor.reaches, hanchor, hzoom]

theorem Frame.hasMoved {pos : Point α} (h : Frame e pos e') :
    e'.gesture.hasMoved = (e.gesture.hasMoved || e.reaches pos) := by
  unfold Editor.reaches
  cases h with
  | idle hidle => rw [hidle]; rfl
  | still hanchor hstill hclick => rw [hstill, hanchor, Option.any_some, hclick]; rfl
  | drag hd past elements =>
    rw [hd]
    rcases past with hmoved | hreaches
    · exact (Bool.or_eq_true_iff.mpr (Or.inl hmoved)).symm
    · exact (Bool.or_eq_true_iff.mpr (Or.inr hreaches)).symm
  | resize hr past elements =>
    rw [hr]
    rcases past with hmoved | hreaches
    · exact (Bool.or_eq_true_iff.mpr (Or.inl hmoved)).symm
    · exact (Bool.or_eq_true_iff.mpr (Or.inr hreaches)).symm
  | marquee hm selection => rw [hm]; rfl

variable [NumberText α]

theorem framed_frames (moves : List (Point α × Modifiers)) : Framed e (e.after (frames moves)) := by
  induction moves generalizing e with
  | nil => exact framed_refl e
  | cons move moves ih => exact (framed_pointerMove e move.1 move.2).trans ih

theorem hasMoved_frames (moves : List (Point α × Modifiers)) :
    (e.after (frames moves)).gesture.hasMoved =
      (e.gesture.hasMoved || moves.any fun move => e.reaches move.1) := by
  induction moves generalizing e with
  | nil => exact (Bool.or_false _).symm
  | cons move moves ih =>
    have hframe := frame_pointerMove e move.1 move.2
    have hrest := ih (e := e.pointerMove move.1 move.2)
    rw [hframe.hasMoved, hframe.reaches, Bool.or_assoc] at hrest
    exact hrest

end Editor

/-! ### Whole gestures -/

namespace Stroke

variable [Scalar α]

/-- The operations of a stroke. -/
def ops (s : Stroke α) : List (Operation α) :=
  .pointerDown s.target s.start s.pressed ::
    (Editor.frames s.moves ++ [.pointerUp s.finish s.released])

/-- The press begins a drag or a resize, and the pointer gets past a click. -/
def Moves (s : Stroke α) (e : Editor α) : Prop :=
  (e.pointerDown s.target s.start s.pressed).gesture.anchor?.isSome = true ∧
    ∃ pos ∈ s.moves.map Prod.fst ++ [s.finish],
      Gesture.exceedsClick (Gesture.travel s.start pos e.zoom) = true

instance (s : Stroke α) (e : Editor α) : Decidable (s.Moves e) :=
  inferInstanceAs (Decidable (_ ∧ _))

variable [NumberText α] {e : Editor α}

theorem after_ops (s : Stroke α) :
    e.after s.ops = ((e.pointerDown s.target s.start s.pressed).after
      (Editor.frames (s.moves ++ [(s.finish, s.released)]))).release.editor := by
  have hframes : (Editor.frames (s.moves ++ [(s.finish, s.released)]) : List (Operation α)) =
      Editor.frames s.moves ++ [.pointerMove s.finish s.released] := by
    simp [Editor.frames]
  rw [ops, Editor.after_cons, Editor.after_concat, hframes, Editor.after_concat]
  rfl

/-- The gesture that is released has moved exactly if the stroke moves. -/
theorem hasMoved_iff (s : Stroke α) :
    ((e.pointerDown s.target s.start s.pressed).after
      (Editor.frames (s.moves ++ [(s.finish, s.released)]))).gesture.hasMoved = true ↔
      s.Moves e := by
  have hstill := (Editor.pressed_pointerDown e s.target s.start s.pressed).still
  have hanchor := Editor.anchor?_pointerDown e s.target s.start s.pressed
  rw [Editor.hasMoved_frames, hstill, Bool.false_or, List.any_eq_true]
  unfold Editor.reaches Moves
  rw [Editor.zoom_pointerDown]
  -- without an anchor, nothing was pressed that could move
  cases hstart : (e.pointerDown s.target s.start s.pressed).gesture.anchor? with
  | none => simp
  | some start =>
    obtain rfl := hanchor start hstart
    simp

/-- **A stroke that moves makes one snapshot, and one that does not move leaves the elements and the
history alone.** -/
theorem after_ops_of_idle (s : Stroke α) (hidle : e.gesture = .idle) :
    (e.after s.ops).gesture = .idle ∧
      (s.Moves e → (e.after s.ops).history = e.history.commit (e.after s.ops).elements) ∧
      (¬ s.Moves e →
        (e.after s.ops).elements = e.elements ∧ (e.after s.ops).history = e.history) := by
  have hpressed := Editor.pressed_pointerDown e s.target s.start s.pressed
  rw [Editor.cancel_of_idle hidle] at hpressed
  have hframed := Editor.framed_frames (e := e.pointerDown s.target s.start s.pressed)
    (s.moves ++ [(s.finish, s.released)])
  have hmoves := s.hasMoved_iff (e := e)
  rw [after_ops]
  -- the release is decided by the last frame alone
  generalize (e.pointerDown s.target s.start s.pressed).after
    (Editor.frames (s.moves ++ [(s.finish, s.released)])) = last at hframed hmoves ⊢
  have hhistory : last.history = e.history := hframed.history.trans hpressed.history
  cases hlast : last.gesture.hasMoved with
  | true =>
    rw [Editor.release_of_hasMoved hlast, ← hhistory]
    exact ⟨rfl, fun _ => rfl, fun hnot => absurd (hmoves.mp hlast) hnot⟩
  | false =>
    have helements : last.elements = e.elements := (hframed.elements hlast).trans hpressed.elements
    obtain ⟨selection, hrelease⟩ := Editor.release_of_still hlast
    rw [hrelease]
    refine ⟨rfl, fun hmoved => ?_, fun _ => ⟨helements, hhistory⟩⟩
    rw [hmoves.mpr hmoved] at hlast
    cases hlast

end Stroke

end ThermalLabel

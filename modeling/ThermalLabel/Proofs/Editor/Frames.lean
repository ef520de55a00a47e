import ThermalLabel.Proofs.Editor.Selected
import ThermalLabel.Proofs.Editor.Strokes

/-! # Frames forget the path

A frame measures from where the pointer went down and from what the gesture kept then, and it writes
over what the frame before has left (`frameAt_frameAt`). So only the last frame counts, wherever the
pointer has been in between, as soon as the gesture has got past a click
(`frames_forget_path`). -/

namespace ThermalLabel

variable {α : Type}

/-! ### Changes that are written over -/

/-- Of two changes of one element the second is left, if it writes over the first. -/
theorem Sequence.modify_modify {f g : Element α → Element α} (hid : ∀ e, (g e).id = e.id)
    (hover : ∀ e, f (g e) = f e) (id : ElementId) (els : List (Element α)) :
    modify f id (modify g id els) = modify f id els := by
  induction els with
  | nil => rfl
  | cons e rest ih =>
    rw [modify, modify]
    split_ifs with h
    · rw [modify, if_pos (by rwa [hid]), hover]
    · rw [modify, if_neg h, ih]

variable [Scalar α]

namespace Element

/-- The element moved to a point, if there is one. -/
def moveTo? (e : Element α) : Option (Point α) → Element α
  | some p => e.moveTo p
  | none => e

@[simp]
theorem id_moveTo? (e : Element α) (p : Option (Point α)) : (e.moveTo? p).id = e.id := by
  cases p <;> rfl

theorem moveTo?_moveTo? (e : Element α) {p q : Option (Point α)} (h : p.isSome = q.isSome) :
    (e.moveTo? p).moveTo? q = e.moveTo? q := by
  cases q with
  | some q => cases p <;> rfl
  | none =>
    cases p with
    | none => rfl
    | some p => cases h

theorem resize_resize (e : Element α) (size size' : Size α) :
    (e.resize size).resize size' = e.resize size' := by
  obtain ⟨id, x, y, body, extra⟩ := e
  cases body <;> rfl

end Element

namespace Drag

/-- Where a frame of a drag puts an element: the primary one at its target, every other one away
from its origin as far as the primary one is. An element that the drag does not know stays. -/
def destination? (d : Drag α) (delta : Point α) (grid : Option α) (id : ElementId) :
    Option (Point α) :=
  (d.origins.get? d.primary).bind fun origin =>
    let target := Gesture.dragPosition origin delta grid
    let applied := target - origin
    if id == d.primary then some target
    else (d.origins.get? id).map fun o => ⟨o.x + applied.x, o.y + applied.y⟩

theorem frame_eq_map (d : Drag α) (selection : Selection) (delta : Point α) (grid : Option α)
    (els : List (Element α)) :
    d.frame selection delta grid els = els.map fun e =>
      if selection.contains e.id then e.moveTo? (d.destination? delta grid e.id) else e := by
  unfold frame destination?
  cases d.origins.get? d.primary with
  | none => simp [Element.moveTo?]
  | some origin =>
    refine List.map_congr_left fun e _ => ?_
    simp only [Option.bind_some, place]
    congr 1
    split_ifs
    · rfl
    · cases d.origins.get? e.id <;> rfl

/-- Whether a drag knows an element does not depend on where the pointer is. -/
theorem isSome_destination? (d : Drag α) (delta delta' : Point α) (grid grid' : Option α)
    (id : ElementId) :
    (d.destination? delta grid id).isSome = (d.destination? delta' grid' id).isSome := by
  unfold destination?
  cases d.origins.get? d.primary with
  | none => rfl
  | some origin =>
    simp only [Option.bind_some]
    split_ifs
    · rfl
    · rw [Option.isSome_map, Option.isSome_map]

theorem frame_frame (d : Drag α) (selection : Selection) (delta delta' : Point α)
    (grid grid' : Option α) (els : List (Element α)) :
    d.frame selection delta' grid' (d.frame selection delta grid els) =
      d.frame selection delta' grid' els := by
  rw [frame_eq_map d selection delta grid, frame_eq_map, frame_eq_map, List.map_map]
  refine List.map_congr_left fun e _ => ?_
  cases h : selection.contains e.id with
  | true =>
    simp only [Function.comp_apply, h, if_true, Element.id_moveTo?]
    exact e.moveTo?_moveTo? (d.isSome_destination? ..)
  | false => simp [h]

end Drag

namespace Selection

theorem contains_addAll (s : Selection) (ids : List ElementId) (id : ElementId) :
    (s.addAll ids).contains id = true ↔ s.contains id = true ∨ id ∈ ids := by
  induction ids generalizing s with
  | nil => simp [addAll]
  | cons first rest ih =>
    rw [addAll, List.foldl_cons, ← addAll, ih, IdSet.contains_add, Bool.or_eq_true, beq_iff_eq,
      List.mem_cons, eq_comm (a := id), or_assoc, or_left_comm]

theorem mem_marqueeHits {els : List (Element α)} {measured : MeasuredSizes α} {marquee : Rect α}
    {zoom : α} {id : ElementId} :
    id ∈ marqueeHits els measured marquee zoom ↔
      ∃ e ∈ els, marquee.intersects ((e.bounds measured).scale zoom) = true ∧ e.id = id := by
  unfold marqueeHits Sequence.ids
  simp only [List.mem_map, List.mem_filter, and_assoc]

end Selection

namespace Editor

/-! ### Frames past a click -/

/-- A frame of the gesture in progress that is past a click. -/
def frameAt (e : Editor α) (pos : Point α) (modifiers : Modifiers) : Editor α :=
  match e.gesture with
  | .idle => e
  | .dragging d =>
    let delta := Gesture.travel d.start pos e.zoom
    { e.withElements (d.frame e.selection delta (e.grid? modifiers) e.elements) with
      gesture := .dragging { d with moved := true } }
  | .resizing r =>
    let size := Gesture.resized r.initial r.handle (Gesture.travel r.start pos e.zoom)
      (e.grid? modifiers)
    { e.withElements (Sequence.modify (fun el => el.resize size) r.id e.elements) with
      gesture := .resizing { r with moved := true } }
  | .marquee m => e.marqueeTo m pos

/-- Whether a frame does more than to wait for the end of a click. -/
def counts (e : Editor α) (pos : Point α) : Bool :=
  e.gesture.anchor?.isNone || (e.gesture.hasMoved || e.reaches pos)

theorem pointerMove_eq (e : Editor α) (pos : Point α) (modifiers : Modifiers) :
    e.pointerMove pos modifiers = if e.counts pos then e.frameAt pos modifiers else e := by
  obtain ⟨document, settings, selection, history, gesture, measured, zoom, supply⟩ := e
  cases gesture with
  | idle => rfl
  | marquee m => rfl
  | dragging d =>
    obtain ⟨primary, start, origin, moved, collapseTo⟩ := d
    simp only [pointerMove, dragTo, frameAt, counts, reaches, Gesture.anchor?, Gesture.hasMoved,
      Option.isNone_some, Option.any_some, Bool.false_or]
    cases moved <;> cases Gesture.exceedsClick (Gesture.travel start pos zoom) <;> rfl
  | resizing r =>
    obtain ⟨id, handle, start, origin, initial, moved⟩ := r
    simp only [pointerMove, resizeTo, frameAt, counts, reaches, Gesture.anchor?, Gesture.hasMoved,
      Option.isNone_some, Option.any_some, Bool.false_or]
    cases moved <;> cases Gesture.exceedsClick (Gesture.travel start pos zoom) <;> rfl

/-- After a frame past a click, every frame counts. -/
theorem counts_frameAt (e : Editor α) (pos pos' : Point α) (modifiers : Modifiers) :
    (e.frameAt pos modifiers).counts pos' = true := by
  obtain ⟨document, settings, selection, history, gesture, measured, zoom, supply⟩ := e
  cases gesture <;> rfl

/-- **The second of two frames is left.** -/
theorem frameAt_frameAt (e : Editor α) (pos pos' : Point α) (modifiers modifiers' : Modifiers) :
    (e.frameAt pos modifiers).frameAt pos' modifiers' = e.frameAt pos' modifiers' := by
  obtain ⟨⟨size, els⟩, settings, selection, history, gesture, measured, zoom, supply⟩ := e
  cases gesture with
  | idle => rfl
  | marquee m => rfl
  | dragging d =>
    have hover (grid grid' : Option α) := d.frame_frame selection
      (Gesture.travel d.start pos zoom) (Gesture.travel d.start pos' zoom) grid grid' els
    exact congrArg (fun els => (⟨⟨size, els⟩, settings, selection, history,
      .dragging { d with moved := true }, measured, zoom, supply⟩ : Editor α)) (hover _ _)
  | resizing r =>
    have hover (size size' : Size α) := Sequence.modify_modify
      (f := fun el => el.resize size') (g := fun el => el.resize size)
      (fun el => el.id_resize size) (fun el => el.resize_resize size size') r.id els
    exact congrArg (fun els => (⟨⟨size, els⟩, settings, selection, history,
      .resizing { r with moved := true }, measured, zoom, supply⟩ : Editor α)) (hover _ _)

/-! ### What the last frame leaves -/

/-- What a gesture in progress makes of an editor when the pointer is at a position. It says nothing
of where the pointer has been: a dragged element lies as far from its origin as the primary one, a
resized one has grown from the size that it had, and a marquee selects what it began with and what
its rectangle hits. -/
structure LeftAt (e : Editor α) (pos : Point α) (modifiers : Modifiers) (e' : Editor α) :
    Prop where
  dragging : ∀ d, e.gesture = .dragging d →
    e'.selection = e.selection ∧
      e'.elements = e.elements.map fun el =>
        if e.selection.contains el.id then
          el.moveTo? (d.destination? (Gesture.travel d.start pos e.zoom) (e.grid? modifiers) el.id)
        else el
  resizing : ∀ r, e.gesture = .resizing r →
    e'.selection = e.selection ∧
      e'.elements = Sequence.modify (fun el => el.resize (Gesture.resized r.initial r.handle
        (Gesture.travel r.start pos e.zoom) (e.grid? modifiers))) r.id e.elements
  marquee : ∀ m, e.gesture = .marquee m →
    e'.elements = e.elements ∧
      ∀ id, e'.selection.contains id = true ↔ m.base.contains id = true ∨
        ∃ el ∈ e.elements, (Rect.ofCorners m.start pos).intersects
          ((el.bounds e.measured).scale e.zoom) = true ∧ el.id = id

theorem leftAt_frameAt (e : Editor α) (pos : Point α) (modifiers : Modifiers) :
    LeftAt e pos modifiers (e.frameAt pos modifiers) := by
  refine ⟨fun d hd => ?_, fun r hr => ?_, fun m hm => ?_⟩
  · rw [← d.frame_eq_map, frameAt, hd]
    exact ⟨rfl, rfl⟩
  · rw [frameAt, hr]
    exact ⟨rfl, rfl⟩
  · rw [frameAt, hm]
    refine ⟨rfl, fun id => ?_⟩
    rw [← Selection.mem_marqueeHits]
    exact Selection.contains_addAll ..

/-! ### Rows of frames -/

variable [NumberText α]

/-- **Of frames in a row the last one is left, once one of them counts.** -/
theorem after_frames (e : Editor α) (moves : List (Point α × Modifiers))
    (last : Point α × Modifiers) (h : ∃ move ∈ moves ++ [last], e.counts move.1 = true) :
    e.after (frames (moves ++ [last])) = e.frameAt last.1 last.2 := by
  induction moves generalizing e with
  | nil =>
    obtain ⟨move, hmem, hcounts⟩ := h
    rw [List.nil_append, List.mem_singleton] at hmem
    subst hmem
    change e.pointerMove move.1 move.2 = _
    rw [pointerMove_eq, if_pos hcounts]
  | cons move rest ih =>
    change (e.pointerMove move.1 move.2).after (frames (rest ++ [last])) = _
    rw [pointerMove_eq]
    split_ifs with hmove
    · -- from here on every frame counts
      rw [ih _ ⟨last, List.mem_append_right rest List.mem_cons_self, counts_frameAt ..⟩,
        frameAt_frameAt]
    · refine ih e ?_
      obtain ⟨other, hmem, hcounts⟩ := h
      rcases List.mem_cons.mp hmem with rfl | hmem
      · exact absurd hcounts hmove
      · exact ⟨other, hmem, hcounts⟩

/-- Frames none of which changes anything leave the editor as it is. -/
theorem after_frames_of_still (e : Editor α) (moves : List (Point α × Modifiers))
    (h : ∀ move ∈ moves, e.pointerMove move.1 move.2 = e) : e.after (frames moves) = e := by
  induction moves with
  | nil => rfl
  | cons move rest ih =>
    rw [List.forall_mem_cons] at h
    change (e.pointerMove move.1 move.2).after (frames rest) = e
    rw [h.1]
    exact ih h.2

/-- A row of frames leaves what its last frame leaves, or nothing has happened. -/
theorem after_frames_cases (e : Editor α) (moves : List (Point α × Modifiers))
    (last : Point α × Modifiers) :
    e.after (frames (moves ++ [last])) = e ∨
      e.after (frames (moves ++ [last])) = e.frameAt last.1 last.2 := by
  by_cases h : ∃ move ∈ moves ++ [last], e.counts move.1 = true
  · exact .inr (after_frames e moves last h)
  · left
    refine after_frames_of_still e _ fun move hmove => ?_
    rw [pointerMove_eq, if_neg fun hcounts => h ⟨move, hmove, hcounts⟩]

/-- If the gesture in progress is a drag or a resize, it has moved already or gets past a click on
the way. -/
def GetsPast (e : Editor α) (moves : List (Point α × Modifiers)) : Prop :=
  ∀ start ∈ e.gesture.anchor?, e.gesture.hasMoved = true ∨
    ∃ move ∈ moves, Gesture.exceedsClick (Gesture.travel start move.1 e.zoom) = true

omit [NumberText α] in
theorem GetsPast.exists_counts {e : Editor α} {moves : List (Point α × Modifiers)}
    (h : e.GetsPast moves) (hmoves : moves ≠ []) : ∃ move ∈ moves, e.counts move.1 = true := by
  unfold counts reaches
  cases hanchor : e.gesture.anchor? with
  | none =>
    obtain ⟨move, hmem⟩ := List.exists_mem_of_ne_nil moves hmoves
    exact ⟨move, hmem, rfl⟩
  | some start =>
    rcases h start hanchor with hmoved | ⟨move, hmem, hexceeds⟩
    · obtain ⟨move, hmem⟩ := List.exists_mem_of_ne_nil moves hmoves
      exact ⟨move, hmem, by simp [hmoved]⟩
    · exact ⟨move, hmem, by simp [hexceeds]⟩

/-- **Frames forget the path.** Two rows of frames that end alike leave the same editor, wherever
the pointer has been in between. -/
theorem frames_forget_path (e : Editor α) (moves others : List (Point α × Modifiers))
    {last : Point α × Modifiers} (hmoves : e.GetsPast (moves ++ [last]))
    (hothers : e.GetsPast (others ++ [last])) :
    e.after (frames (moves ++ [last])) = e.after (frames (others ++ [last])) ∧
      LeftAt e last.1 last.2 (e.after (frames (moves ++ [last]))) := by
  rw [after_frames e moves last (hmoves.exists_counts (List.concat_ne_nil last moves)),
    after_frames e others last (hothers.exists_counts (List.concat_ne_nil last others))]
  exact ⟨rfl, leftAt_frameAt e last.1 last.2⟩

/-- An editor with one box, and the pointer gone down on something. -/
def pressedOn (target : PointerTarget) : Editor Rat :=
  (openStored (.ok (some oneBox)) (.numbered 0)).pointerDown target ⟨0, 0⟩ ⟨false, false⟩

/-- A drag by ten millimetres with a detour leaves what the straight one leaves, and a marquee that
had grown over the box and has shrunk again leaves what it leaves that never grew: nothing. -/
theorem forget_detour_and_growth :
    ((pressedOn (.element "a")).after
        (frames [(⟨7, 90⟩, ⟨false, true⟩), (⟨1, 1⟩, ⟨true, false⟩), (⟨40, 0⟩, ⟨false, false⟩)]) =
      (pressedOn (.element "a")).after (frames [(⟨40, 0⟩, ⟨false, false⟩)]) ∧
      ((pressedOn (.element "a")).after (frames [(⟨40, 0⟩, ⟨false, false⟩)])).elements.map
        Element.x = [20]) ∧
    ((pressedOn .canvas).after (frames [(⟨400, 400⟩, ⟨false, false⟩), (⟨1, 1⟩, ⟨false, false⟩)]) =
      (pressedOn .canvas).after (frames [(⟨1, 1⟩, ⟨false, false⟩)]) ∧
      ((pressedOn .canvas).after (frames [(⟨400, 400⟩, ⟨false, false⟩)])).selection.contains "a" =
        true ∧
      ((pressedOn .canvas).after (frames [(⟨1, 1⟩, ⟨false, false⟩)])).selection.contains "a" =
        false) := by
  have hdetour : (pressedOn (.element "a")).GetsPast
      [(⟨7, 90⟩, ⟨false, true⟩), (⟨1, 1⟩, ⟨true, false⟩), (⟨40, 0⟩, ⟨false, false⟩)] := by
    rintro start ⟨⟩
    exact .inr ⟨_, List.mem_cons_self, by decide +kernel⟩
  have hstraight : (pressedOn (.element "a")).GetsPast [(⟨40, 0⟩, ⟨false, false⟩)] := by
    rintro start ⟨⟩
    exact .inr ⟨_, List.mem_cons_self, by decide +kernel⟩
  -- a marquee has no click to get past
  have hmarquee (moves : List (Point Rat × Modifiers)) : (pressedOn .canvas).GetsPast moves := by
    rintro start ⟨⟩
  refine ⟨⟨(frames_forget_path _ [_, _] [] hdetour hstraight).1, ?_⟩,
    (frames_forget_path _ [_] [] (hmarquee _) (hmarquee _)).1, ?_⟩
  all_goals decide +kernel

end Editor

end ThermalLabel

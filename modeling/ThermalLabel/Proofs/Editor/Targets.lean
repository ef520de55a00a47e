import ThermalLabel.Proofs.Editor.Changes
import ThermalLabel.Proofs.Editor.Frames
import ThermalLabel.Proofs.Editor.Identity
import ThermalLabel.Proofs.Element.Kindred

/-! # Edits touch their targets only

What is selected is moved, copied or taken away, what is named is patched, resized or reordered, and
every other element stays as it is (`targets_only`). No edit and no gesture changes the id, the kind
or the unknown members of an element that is there. -/

namespace ThermalLabel

variable {α : Type} [Scalar α]

open Element (Displaced Resized Kindred CopiedBy)
open Sequence (ChangedWhere InPlace)

/-! ### Who gets a target -/

theorem Align.contains_of_mem_targets {els : List (Element α)} {set : IdSet}
    {measured : MeasuredSizes α} {label : LabelSize α} {alignment : Alignment} {id : ElementId}
    (h : id ∈ (targets (Sequence.selected els set) measured label alignment).map Prod.fst) :
    set.contains id = true := by
  unfold targets at h
  split at h
  · cases h
  · rw [List.map_map] at h
    obtain ⟨e, he, rfl⟩ := List.mem_map.mp h
    exact (List.mem_filter.mp he).2

theorem Distribute.contains_of_mem_targets {els : List (Element α)} {set : IdSet}
    {distribution : Distribution} {id : ElementId}
    (h : id ∈ (targets (Sequence.selected els set) distribution).map Prod.fst) :
    set.contains id = true := by
  unfold targets at h
  dsimp only at h
  split at h
  · split_ifs at h
    · cases h
    · obtain ⟨target, htarget, rfl⟩ := List.mem_map.mp h
      obtain ⟨i, hi, rfl⟩ := List.mem_mapIdx.mp htarget
      have hmem := List.mem_mergeSort.mp (List.getElem_mem hi)
      exact (List.mem_filter.mp hmem).2
  · cases h

namespace Editor

variable {e e' : Editor α}

/-! ### Edits -/

/-- The editor with new elements on top, under ids from the supply. They are new to the elements if
the supply gives new ids. -/
structure Grown (e e' : Editor α) (new : List (Element α)) : Prop where
  elements : e'.elements = e.elements ++ new
  ids : Sequence.ids new = e.supply.taken e'.supply
  fresh : FreshFor (e.supply.taken e'.supply) e.elements → FreshFor (Sequence.ids new) e.elements

omit [Scalar α] in
theorem grown_of_ids {new : List (Element α)} (helements : e'.elements = e.elements ++ new)
    (hids : Sequence.ids new = e.supply.taken e'.supply) : Grown e e' new :=
  ⟨helements, hids, fun h => hids ▸ h⟩

/-- What an operation may do to the elements, if no gesture is in progress. -/
def Confined (e e' : Editor α) : Operation α → Prop
  | .add kind _ => ∃ new : Element α, Grown e e' [new] ∧ new.kind = kind
  | .update id _ => InPlace (fun el => el.id = id) Kindred e.elements e'.elements
  | .delete => e'.elements = e.elements.filter fun el => !e.selection.contains el.id
  | .duplicate => ∃ copies, Grown e e' copies ∧
      List.Forall₂ (CopiedBy (Scalar.ofNat 5) (Scalar.ofNat 5))
        (e.elements.filter fun el => e.selection.contains el.id) copies
  | .reorder _ _ => e'.elements.Perm e.elements
  | .nudge _ | .align _ | .distribute _ =>
    InPlace (fun el => e.selection.contains el.id = true) Displaced e.elements e'.elements
  | _ => e'.elements = e.elements

@[simp]
theorem elements_commitChange {β : Type} (e : Editor α) (value : β) :
    (e.commitChange value).editor.elements = e.elements := by
  unfold commitChange
  split_ifs <;> rfl

@[simp]
theorem supply_commitChange {β : Type} (e : Editor α) (value : β) :
    (e.commitChange value).editor.supply = e.supply := by
  unfold commitChange
  split_ifs <;> rfl

theorem grown_add (e : Editor α) (kind : Kind) (patch : Patch α) :
    ∃ new : Element α, Grown e (e.add kind patch).editor [new] ∧ new.kind = kind := by
  refine ⟨patch.apply ((Element.sample kind).withId e.supply.next), grown_of_ids rfl ?_, ?_⟩
  · have htaken : e.supply.taken (e.add kind patch).editor.supply = [e.supply.next] :=
      e.supply.taken_rest
    rw [htaken, Sequence.ids, List.map_singleton, Patch.id_apply, Element.id_withId]
  · rw [(Element.kindred_apply patch _).kind]
    cases kind <;> rfl

theorem changedWhere_update (e : Editor α) (id : ElementId) (patch : Patch α) :
    ChangedWhere (fun el => el.id = id) Kindred e.elements
      (e.update id patch).editor.elements := by
  unfold update
  split_ifs
  · rw [elements_commitChange]
    exact Sequence.changedWhere_modify Element.kindred_refl (Element.kindred_apply patch) id
      e.elements
  · exact Sequence.changedWhere_refl Element.kindred_refl e.elements

omit [Scalar α] in
theorem not_contains_of_isEmpty {selection : Selection} (hempty : selection.isEmpty = true)
    (id : ElementId) : selection.contains id = false := by
  rw [StringMap.contains, List.isEmpty_iff.mp hempty]
  rfl

theorem elements_delete (e : Editor α) :
    e.delete.editor.elements = e.elements.filter fun el => !e.selection.contains el.id := by
  unfold delete
  split_ifs with hempty
  · simp [not_contains_of_isEmpty hempty, keeping]
  · rw [elements_commitChange]
    rfl

theorem grown_duplicate (e : Editor α) :
    ∃ copies, Grown e e.duplicate.editor copies ∧
      List.Forall₂ (CopiedBy (Scalar.ofNat 5) (Scalar.ofNat 5))
        (e.elements.filter fun el => e.selection.contains el.id) copies := by
  unfold duplicate
  split_ifs with hempty
  · refine ⟨[], grown_of_ids (List.append_nil _).symm (e.supply.taken_self).symm, ?_⟩
    simp [not_contains_of_isEmpty hempty]
  · refine ⟨_, grown_of_ids ?_ ?_, Sequence.copiedBy_copies e.selection _ _ e.elements e.supply⟩
    · rw [elements_commitChange]
      rfl
    · rw [Sequence.ids_copies, supply_commitChange]
      rfl

theorem changedWhere_nudge (e : Editor α) (offset : Point α) :
    ChangedWhere (fun el => e.selection.contains el.id = true) Displaced e.elements
      (e.nudge offset).editor.elements := by
  rw [nudge, elements_commitChange]
  refine Sequence.changedWhere_map (fun el _ => ?_) fun el _ hother => if_neg hother
  split_ifs
  · exact Element.displaced_moveTo el _
  · exact Element.displaced_refl el

theorem changedWhere_moveToTargets (e : Editor α) {targets : List (ElementId × Point α)}
    (htargets : ∀ id ∈ targets.map Prod.fst, e.selection.contains id = true) :
    ChangedWhere (fun el => e.selection.contains el.id = true) Displaced e.elements
      (e.moveToTargets targets).editor.elements := by
  unfold moveToTargets
  split_ifs
  · exact Sequence.changedWhere_refl Element.displaced_refl e.elements
  · rw [elements_commitChange]
    refine (Sequence.changedWhere_moveAll (StringMap.ofList targets) e.elements).mono ?_
    intro el hpoint
    exact htargets el.id ((StringMap.contains_ofList targets el.id).mp hpoint)

/-- What neither edits, nor takes another snapshot or document up, nor ends a gesture. -/
theorem Effect.elements_of_idle {β : Type} {op : Operation α} {r : Reply α β} (h : Effect e op r)
    (hidle : e.gesture = .idle) (hrole : op.role = .setting ∨ op.role = .other ∧ r.saves = false) :
    r.editor.elements = e.elements := by
  cases h with
  | view _ elements | setting _ elements | click _ _ elements => exact elements
  | press _ elements => rw [elements, base, hidle]; rfl
  | frame _ framed =>
    refine framed.elements ?_
    have hstays := framed.idle
    rw [hidle] at hstays
    rw [Gesture.eq_idle_of_isIdle hstays]
    rfl
  | commit role committed =>
    rw [role, committed.saves] at hrole
    simp at hrole
  | edit role | travel role | replace role => simp [role] at hrole

theorem saves_pointerUp_of_idle (hidle : e.gesture = .idle) (pos : Point α)
    (modifiers : Modifiers) : (e.pointerUp pos modifiers).saves = false := by
  have hmove : e.pointerMove pos modifiers = e := by
    unfold pointerMove
    rw [hidle]
  rw [pointerUp, hmove, release, hidle]
  rfl

variable [NumberText α]

theorem confined_perform (hidle : e.gesture = .idle) {op : Operation α}
    (htravel : op.role ≠ .travel) (himport : ∀ text, op ≠ .importTemplate text) :
    Confined e (e.perform op).editor op := by
  cases op with
  | add kind patch => exact grown_add e kind patch
  | update id patch => exact (changedWhere_update e id patch).inPlace fun hel => hel
  | delete => exact elements_delete e
  | duplicate => exact grown_duplicate e
  | reorder id how =>
    show ((e.reorder id how).editor.elements).Perm _
    rw [reorder, elements_commitChange]
    exact Sequence.reorder_perm e.elements id how
  | nudge offset =>
    exact (changedWhere_nudge e offset).inPlace Displaced.kindred
  | align alignment =>
    exact (changedWhere_moveToTargets e fun id hid =>
      Align.contains_of_mem_targets hid).inPlace Displaced.kindred
  | distribute distribution =>
    exact (changedWhere_moveToTargets e fun id hid =>
      Distribute.contains_of_mem_targets hid).inPlace Displaced.kindred
  | importTemplate text => exact absurd rfl (himport text)
  | undo | redo | reset | restore => exact absurd rfl htravel
  | setLabelSize | applyPreset | setVariable | removeVariable | setLanguage | setGrid =>
    exact (perform_effect e _).elements_of_idle hidle (.inl rfl)
  | pointerUp pos modifiers =>
    exact (perform_effect e _).elements_of_idle hidle
      (.inr ⟨rfl, saves_pointerUp_of_idle hidle pos modifiers⟩)
  | pointerDown | pointerMove | cancel | select | selectAll | clearSelection | measure | setZoom =>
    exact (perform_effect e _).elements_of_idle hidle (.inr ⟨rfl, rfl⟩)

/-! ### Gestures -/

omit [NumberText α] [Scalar α] in
theorem gesture_pressElement (hidle : e.gesture = .idle) (id : ElementId) (pos : Point α)
    (modifiers : Modifiers) :
    (e.pressElement id pos modifiers).gesture = .idle ∨
      ∃ d, (e.pressElement id pos modifiers).gesture = .dragging d := by
  unfold pressElement
  dsimp only
  split_ifs
  · exact .inl hidle
  · exact .inr ⟨_, rfl⟩
  · exact .inl hidle
  all_goals exact .inr ⟨_, rfl⟩

omit [NumberText α] [Scalar α] in
theorem gesture_pressHandle (hidle : e.gesture = .idle) (id : ElementId) (handle : Handle)
    (pos : Point α) :
    (e.pressHandle id handle pos).gesture = .idle ∨
      ∃ r, r.id = id ∧ (e.pressHandle id handle pos).gesture = .resizing r := by
  unfold pressHandle
  split
  · exact .inl hidle
  · exact .inr ⟨_, rfl, rfl⟩

omit [NumberText α] [Scalar α] in
theorem elements_release (e : Editor α) : e.release.editor.elements = e.elements := by
  cases hmoved : e.gesture.hasMoved with
  | true => rw [release_of_hasMoved hmoved]; rfl
  | false =>
    obtain ⟨selection, hrelease⟩ := release_of_still hmoved
    rw [hrelease]
    rfl

/-- Frames of a drag move what is selected. -/
theorem changedWhere_drag (hdrag : e.gesture = .idle ∨ ∃ d, e.gesture = .dragging d)
    (moves : List (Point α × Modifiers)) (last : Point α × Modifiers) :
    ChangedWhere (fun el => e.selection.contains el.id = true) Displaced e.elements
      (e.after (frames (moves ++ [last]))).elements := by
  rcases after_frames_cases e moves last with h | h <;> rw [h]
  · exact Sequence.changedWhere_refl Element.displaced_refl e.elements
  rcases hdrag with hidle | ⟨d, hd⟩
  · rw [frameAt, hidle]
    exact Sequence.changedWhere_refl Element.displaced_refl e.elements
  · rw [((leftAt_frameAt e last.1 last.2).dragging d hd).2]
    refine Sequence.changedWhere_map (fun el _ => ?_) fun el _ hother => if_neg hother
    split_ifs
    · unfold Element.moveTo?
      split
      · exact Element.displaced_moveTo el _
      · exact Element.displaced_refl el
    · exact Element.displaced_refl el

/-- Frames of a resize concern one element. -/
theorem changedWhere_resize {id : ElementId}
    (hresize : e.gesture = .idle ∨ ∃ r, r.id = id ∧ e.gesture = .resizing r)
    (moves : List (Point α × Modifiers)) (last : Point α × Modifiers) :
    ChangedWhere (fun el => el.id = id) Resized e.elements
      (e.after (frames (moves ++ [last]))).elements := by
  rcases after_frames_cases e moves last with h | h <;> rw [h]
  · exact Sequence.changedWhere_refl Element.resized_refl e.elements
  rcases hresize with hidle | ⟨r, rfl, hr⟩
  · rw [frameAt, hidle]
    exact Sequence.changedWhere_refl Element.resized_refl e.elements
  · rw [((leftAt_frameAt e last.1 last.2).resizing r hr).2]
    exact Sequence.changedWhere_modify Element.resized_refl
      (fun el => Element.resized_resize el _) r.id e.elements

/-- Frames of a marquee select only. -/
theorem elements_marquee {m : Marquee α} (hm : e.gesture = .marquee m)
    (moves : List (Point α × Modifiers)) (last : Point α × Modifiers) :
    (e.after (frames (moves ++ [last]))).elements = e.elements := by
  rcases after_frames_cases e moves last with h | h <;> rw [h]
  exact ((leftAt_frameAt e last.1 last.2).marquee m hm).1

end Editor

namespace Stroke

variable {e : Editor α}

/-- What a stroke may do to the elements, if no gesture is in progress when it begins: a drag is
about what is selected once the pointer is down. -/
def Confined (s : Stroke α) (e e' : Editor α) : Prop :=
  match s.target with
  | .element _ =>
    InPlace
      (fun el => (e.pointerDown s.target s.start s.pressed).selection.contains el.id = true)
      Displaced e.elements e'.elements
  | .handle id _ => InPlace (fun el => el.id = id) Resized e.elements e'.elements
  | .canvas => e'.elements = e.elements

variable [NumberText α]

theorem confined_after (s : Stroke α) (hidle : e.gesture = .idle) :
    s.Confined e (e.after s.ops) := by
  have hpressed := (Editor.pressed_pointerDown e s.target s.start s.pressed).elements
  rw [Editor.cancel_of_idle hidle] at hpressed
  rw [after_ops]
  obtain ⟨target, start, pressed, moves, finish, released⟩ := s
  cases target with
  | element id =>
    have hdrag := Editor.changedWhere_drag
      (Editor.gesture_pressElement (Editor.gesture_cancel e) id start pressed) moves
      (finish, released)
    show InPlace _ _ e.elements _
    rw [← hpressed, Editor.elements_release]
    exact hdrag.inPlace Displaced.kindred
  | handle id handle =>
    have hresize := Editor.changedWhere_resize
      (Editor.gesture_pressHandle (Editor.gesture_cancel e) id handle start) moves
      (finish, released)
    show InPlace _ _ e.elements _
    rw [← hpressed, Editor.elements_release]
    exact hresize.inPlace Resized.kindred
  | canvas =>
    show (Reply.editor _).elements = e.elements
    rw [← hpressed, Editor.elements_release]
    exact Editor.elements_marquee rfl moves (finish, released)

end Stroke

namespace Editor

variable {e e' : Editor α}

/-! ### Identity lasts -/

/-- Every element has the id, the kind and the unknown members of one from before, or a new id. -/
def KeepsIdentity (e e' : Editor α) : Prop :=
  ∀ el' ∈ e'.elements, (∃ el ∈ e.elements, Kindred el el') ∨ el'.id ∈ e.supply.taken e'.supply

omit [Scalar α] in
theorem keepsIdentity_of_subset (h : e'.elements ⊆ e.elements) : KeepsIdentity e e' :=
  fun el hel => .inl ⟨el, h hel, Element.kindred_refl el⟩

omit [Scalar α] in
theorem keepsIdentity_of_inPlace {target : Element α → Prop} {R : Element α → Element α → Prop}
    (h : InPlace target R e.elements e'.elements) (hR : ∀ {el el'}, R el el' → Kindred el el') :
    KeepsIdentity e e' := fun _ hel' => .inl (h.exists_kindred hR hel')

omit [Scalar α] in
theorem Grown.keepsIdentity {new : List (Element α)} (h : Grown e e' new) :
    KeepsIdentity e e' := by
  intro el hel
  rw [h.elements] at hel
  rcases List.mem_append.mp hel with hold | hnew
  · exact .inl ⟨el, hold, Element.kindred_refl el⟩
  · exact .inr (h.ids ▸ List.mem_map_of_mem hnew)

theorem Confined.keepsIdentity {op : Operation α} (h : Confined e e' op) : KeepsIdentity e e' := by
  cases op with
  | add | duplicate =>
    obtain ⟨_, hgrown, -⟩ := h
    exact hgrown.keepsIdentity
  | update => exact keepsIdentity_of_inPlace h fun hel => hel
  | nudge | align | distribute => exact keepsIdentity_of_inPlace h Displaced.kindred
  | delete =>
    refine keepsIdentity_of_subset fun el hel => ?_
    rw [Confined] at h
    exact List.mem_of_mem_filter (h ▸ hel)
  | reorder => exact keepsIdentity_of_subset (List.Perm.subset h)
  | _ => exact keepsIdentity_of_subset (List.Perm.of_eq h).subset

omit [Scalar α] in
theorem keepsIdentity_of_confined {s : Stroke α} (h : s.Confined e e') : KeepsIdentity e e' := by
  unfold Stroke.Confined at h
  split at h
  · exact keepsIdentity_of_inPlace h Displaced.kindred
  · exact keepsIdentity_of_inPlace h Resized.kindred
  · exact keepsIdentity_of_subset (List.Perm.of_eq h).subset

omit [Scalar α] in
/-- Undo and redo edit no element: what is there afterwards is a snapshot, or what was there. -/
theorem elements_undo_redo (hidle : e.gesture = .idle) :
    (e.undo.editor.elements = e.elements ∨
        e.undo.editor.elements ∈ e.history.snapshots.toList) ∧
      (e.redo.editor.elements = e.elements ∨
        e.redo.editor.elements ∈ e.history.snapshots.toList) := by
  have hsnapshot {history : History (List (Element α))}
      (hsame : history.snapshots = e.history.snapshots) :
      history.current ∈ e.history.snapshots.toList :=
    hsame ▸ List.mem_of_getElem? history.getElem?_cursor
  constructor
  · cases hundo : e.history.undo? with
    | some history =>
      rw [undo_of_some hundo]
      exact .inr (hsnapshot (History.undo?_spec hundo).1)
    | none =>
      rw [undo_of_none hundo, cancel_of_idle hidle]
      exact .inl rfl
  · cases hredo : e.history.redo? with
    | some history =>
      rw [redo_of_some hredo]
      exact .inr (hsnapshot (History.redo?_spec hredo).1)
    | none =>
      rw [redo_of_none hredo, cancel_of_idle hidle]
      exact .inl rfl

variable [NumberText α]

/-- **Edits and gestures touch their targets only**, whatever there is and whatever is selected.
Undo and redo put a snapshot back; a new layout, a session and a template bring other elements. -/
theorem targets_only (hidle : e.gesture = .idle) :
    (∀ op : Operation α, op.role ≠ .travel → (∀ text, op ≠ .importTemplate text) →
      Confined e (e.perform op).editor op ∧ KeepsIdentity e (e.perform op).editor) ∧
    (∀ s : Stroke α, s.Confined e (e.after s.ops) ∧ KeepsIdentity e (e.after s.ops)) ∧
    ∀ op : Operation α, op = .undo ∨ op = .redo →
      (e.perform op).editor.elements = e.elements ∨
        (e.perform op).editor.elements ∈ e.history.snapshots.toList := by
  refine ⟨fun op htravel himport => ?_, fun s => ?_, ?_⟩
  · have hconfined := confined_perform hidle htravel himport
    exact ⟨hconfined, hconfined.keepsIdentity⟩
  · have hconfined := s.confined_after hidle
    exact ⟨hconfined, keepsIdentity_of_confined hconfined⟩
  · rintro op (rfl | rfl)
    · exact (elements_undo_redo hidle).1
    · exact (elements_undo_redo hidle).2

/-- A session with two boxes. -/
def twoBoxes : Session Rat where
  document := ⟨LabelSize.standard,
    [{ Element.default .box with id := "a" }, { Element.default .box with id := "b", x := 30 }]⟩
  settings := Settings.standard

/-- An editor with two boxes, the second one selected. -/
def oneOfTwo : Editor Rat := (openStored (.ok (some twoBoxes)) (.numbered 0)).select "b"

/-- The second box is copied, nudged and dragged, and the first one stays where it is. -/
theorem first_box_stays :
    Confined oneOfTwo (oneOfTwo.perform .duplicate).editor .duplicate ∧
      (oneOfTwo.perform .duplicate).editor.elements.map Element.x = [0, 30, 35] ∧
    Confined oneOfTwo (oneOfTwo.perform (.nudge ⟨-4, 0⟩)).editor (.nudge ⟨-4, 0⟩) ∧
      (oneOfTwo.perform (.nudge ⟨-4, 0⟩)).editor.elements.map Element.x = [0, 26] ∧
    ({ dragAcross with target := .element "b" } : Stroke Rat).Confined oneOfTwo
        (oneOfTwo.after { dragAcross with target := .element "b" }.ops) ∧
      (oneOfTwo.after { dragAcross with target := .element "b" }.ops).elements.map Element.x =
        [0, 40] := by
  obtain ⟨hedits, hstrokes, -⟩ := targets_only (e := oneOfTwo) rfl
  refine ⟨(hedits .duplicate nofun nofun).1, ?_, (hedits (.nudge ⟨-4, 0⟩) nofun nofun).1, ?_,
    (hstrokes _).1, ?_⟩
  all_goals decide +kernel

end Editor

end ThermalLabel

import ThermalLabel.Proofs.Editor.Drift
import ThermalLabel.Proofs.Element.DistinctIds
import ThermalLabel.Proofs.StringMap

/-! # What is selected

The selected ids ought to be ids of elements. They are as long as no edit strands the gesture in
progress. A drag or a resize keeps elements that come back when it is given up, a marquee keeps a
selection, and a press keeps an id to select if it turns out to be a click; an edit meanwhile can
select what the kept elements do not have, or take away what is kept. `never_dangles_iff` says that
nothing else makes a selection dangle, and only adding, deleting and copying can strand a
gesture. -/

namespace ThermalLabel

variable {α : Type}

namespace IdSet

/-- Every id of a set is the id of an element. -/
def Within (s : IdSet) (els : List (Element α)) : Prop :=
  ∀ id, s.contains id = true → id ∈ Sequence.ids els

theorem within_iff_keys {s : IdSet} {els : List (Element α)} :
    s.Within els ↔ ∀ id ∈ s.keys, id ∈ Sequence.ids els :=
  forall_congr' fun id => imp_congr_left (StringMap.contains_iff_mem_keys s id)

instance (s : IdSet) (els : List (Element α)) : Decidable (s.Within els) :=
  decidable_of_iff _ within_iff_keys.symm

theorem within_empty (els : List (Element α)) : Within StringMap.empty els :=
  fun _ h => Bool.noConfusion h

theorem Within.mono {s : IdSet} {els els' : List (Element α)} (h : s.Within els)
    (hids : Sequence.ids els ⊆ Sequence.ids els') : s.Within els' := fun id hid => hids (h id hid)

theorem within_add {s : IdSet} {id : ElementId} {els : List (Element α)} (h : s.Within els)
    (hid : id ∈ Sequence.ids els) : (s.add id).Within els := by
  intro other hother
  rw [add, StringMap.contains_insert, Bool.or_eq_true, beq_iff_eq] at hother
  rcases hother with rfl | hother
  · exact hid
  · exact h other hother

theorem contains_ofIds (ids : List ElementId) (id : ElementId) :
    (ofIds ids).contains id = true ↔ id ∈ ids := by
  rw [ofIds, StringMap.contains_ofList, List.map_map, Function.comp_def, List.map_id']

theorem within_ofIds {ids : List ElementId} {els : List (Element α)}
    (h : ids ⊆ Sequence.ids els) : (ofIds ids).Within els :=
  fun _ hid => h ((contains_ofIds ids _).mp hid)

end IdSet

namespace Selection

open IdSet

theorem within_only {id : ElementId} {els : List (Element α)} (h : id ∈ Sequence.ids els) :
    (only id).Within els := within_add (within_empty els) h

theorem contains_only (id : ElementId) : (only id).contains id = true := by
  rw [only, IdSet.contains_add, beq_self_eq_true, Bool.true_or]

theorem within_toggle {s : Selection} {id : ElementId} {els : List (Element α)} (h : s.Within els)
    (hid : id ∈ Sequence.ids els) : (s.toggle id).Within els := by
  unfold toggle
  split_ifs
  · exact fun other hother => h other ((s.contains_erase id other).mp hother).2
  · exact within_add h hid

theorem within_addAll {s : Selection} {ids : List ElementId} {els : List (Element α)}
    (h : s.Within els) (hids : ids ⊆ Sequence.ids els) : (s.addAll ids).Within els := by
  induction ids generalizing s with
  | nil => exact h
  | cons id rest ih =>
    rw [List.cons_subset] at hids
    exact ih (within_add h hids.1) hids.2

theorem within_retain (s : Selection) (els : List (Element α)) : (s.retain els).Within els := by
  intro id hid
  rw [retain, StringMap.contains_filterKeys, Bool.and_eq_true, List.any_eq_true] at hid
  obtain ⟨⟨e, he, hid⟩, -⟩ := hid
  exact eq_of_beq hid ▸ List.mem_map_of_mem he

variable [Scalar α]

theorem marqueeHits_subset (els : List (Element α)) (measured : MeasuredSizes α)
    (marquee : Rect α) (zoom : α) :
    marqueeHits els measured marquee zoom ⊆ Sequence.ids els :=
  (List.filter_sublist.map Element.id).subset

end Selection

namespace Document

theorem mem_ids_of_find? {d : Document α} {id : ElementId} {el : Element α}
    (h : d.find? id = some el) : id ∈ d.ids := by
  have hid := List.find?_some h
  exact List.mem_map.mpr ⟨el, List.mem_of_find?_eq_some h, eq_of_beq hid⟩

theorem mem_ids_of_contains {d : Document α} {id : ElementId} (h : d.contains id = true) :
    id ∈ d.ids := by
  obtain ⟨el, hel⟩ := Option.isSome_iff_exists.mp h
  exact mem_ids_of_find? hel

end Document

namespace Gesture

/-- The selection that a marquee began with, and comes back to. -/
def selection? : Gesture α → Option Selection
  | .marquee m => some m.base
  | _ => none

/-- The id to select if the gesture ends as a click. -/
def click? : Gesture α → Option ElementId
  | .dragging d => if d.moved then none else d.collapseTo
  | _ => none

end Gesture

/-- Whether an operation is an edit that brings ids in or takes some away. -/
def Operation.changesIds : Operation α → Bool
  | .add _ _ | .delete | .duplicate => true
  | _ => false

theorem Operation.role_of_changesIds {op : Operation α} (h : op.changesIds = true) :
    op.role = .edit := by
  cases op <;> first | rfl | cases h

namespace Editor

open IdSet

variable {e e' : Editor α}

/-- An editor with a selected id that no element has. -/
def Dangles (e : Editor α) : Prop := ¬ e.selection.Within e.elements

instance (e : Editor α) : Decidable (Dangles e) := inferInstanceAs (Decidable (¬ _))

/-- What is selected is there, and so is what the gesture may select when it ends; and what is there
comes back when the gesture is given up. -/
structure Rooted (e : Editor α) : Prop where
  selection : e.selection.Within e.elements
  origin : ∀ els ∈ e.gesture.origin?, Sequence.ids e.elements ⊆ Sequence.ids els
  marquee : ∀ s ∈ e.gesture.selection?, Within s e.elements
  click : ∀ id ∈ e.gesture.click?, id ∈ Sequence.ids e.elements

theorem rooted_of_idle (hidle : e.gesture = .idle) (h : e.selection.Within e.elements) :
    Rooted e := by
  refine ⟨h, ?_, ?_, ?_⟩ <;> rw [hidle] <;> exact nofun

/-- The ids in another order change nothing. -/
theorem Rooted.of_perm (h : Rooted e) (hgesture : e'.gesture = e.gesture)
    (hids : (Sequence.ids e'.elements).Perm (Sequence.ids e.elements))
    (hselection : e'.selection.Within e.elements) : Rooted e' where
  selection := hselection.mono hids.symm.subset
  origin els hels := List.Subset.trans hids.subset (h.origin els (hgesture ▸ hels))
  marquee s hs := (h.marquee s (hgesture ▸ hs)).mono hids.symm.subset
  click id hid := hids.symm.subset (h.click id (hgesture ▸ hid))

/-- What the elements have does not depend on the rest of the document. -/
theorem Rooted.of_elements_eq (h : Rooted e) (hgesture : e'.gesture = e.gesture)
    (helements : e'.elements = e.elements) (hselection : e'.selection.Within e.elements) :
    Rooted e' := h.of_perm hgesture (helements ▸ List.Perm.refl _) hselection

/-! ### The end of a gesture -/

theorem Rooted.cancel (h : Rooted e) : e.cancel.selection.Within e.cancel.elements := by
  obtain ⟨document, settings, selection, history, gesture, measured, zoom, supply⟩ := e
  cases gesture with
  | idle => exact h.selection
  | dragging d => exact h.selection.mono (h.origin d.origin rfl)
  | resizing r => exact h.selection.mono (h.origin r.origin rfl)
  | marquee m => exact h.marquee m.base rfl

theorem Rooted.rooted_cancel (h : Rooted e) : Rooted e.cancel :=
  rooted_of_idle (gesture_cancel e) h.cancel

theorem Rooted.release (h : Rooted e) :
    e.release.editor.selection.Within e.release.editor.elements := by
  obtain ⟨document, settings, selection, history, gesture, measured, zoom, supply⟩ := e
  cases gesture with
  | idle => exact h.selection
  | marquee m => exact h.selection
  | resizing r => unfold Editor.release; dsimp only; split_ifs <;> exact h.selection
  | dragging d =>
    obtain ⟨primary, start, origin, moved, collapseTo⟩ := d
    cases moved with
    | true => exact h.selection
    | false =>
      cases collapseTo with
      | none => exact h.selection
      | some id => exact Selection.within_only (h.click id rfl)

theorem gesture_release (e : Editor α) : e.release.editor.gesture = .idle := by
  cases hmoved : e.gesture.hasMoved with
  | true => rw [release_of_hasMoved hmoved]; rfl
  | false =>
    obtain ⟨selection, hrelease⟩ := release_of_still hmoved
    rw [hrelease]
    rfl

/-! ### Presses and frames -/

/-- A drag of the selection. The id to select at a click is the one that was pressed. -/
theorem rooted_beginDrag {selection : Selection} {id : ElementId} {collapseTo : Option ElementId}
    (h : selection.Within e.elements) (hid : id ∈ Sequence.ids e.elements)
    (hcollapse : collapseTo = none ∨ collapseTo = some id) (pos : Point α) :
    Rooted ({ e with selection }.beginDrag id pos collapseTo) where
  selection := h
  origin els hels := by
    obtain rfl : e.elements = els := Option.some.inj hels
    exact List.Subset.refl _
  marquee := nofun
  click other hother := by
    rcases hcollapse with rfl | rfl
    · cases hother
    · exact Option.some.inj hother ▸ hid

theorem rooted_pressElement (hidle : e.gesture = .idle) (h : e.selection.Within e.elements)
    (id : ElementId) (pos : Point α) (modifiers : Modifiers) :
    Rooted (e.pressElement id pos modifiers) := by
  unfold pressElement
  cases hcontains : e.document.contains id with
  | false => exact rooted_of_idle hidle h
  | true =>
    have hid : id ∈ Sequence.ids e.elements := Document.mem_ids_of_contains hcontains
    rw [if_neg (by decide)]
    dsimp only
    have htoggle := Selection.within_toggle h hid
    have honly := Selection.within_only hid
    split_ifs
    · exact rooted_beginDrag htoggle hid (Or.inl rfl) pos
    · exact rooted_of_idle hidle htoggle
    · exact rooted_beginDrag h hid (Or.inr rfl) pos
    · exact rooted_beginDrag h hid (Or.inl rfl) pos
    · exact rooted_beginDrag honly hid (Or.inl rfl) pos

theorem rooted_pressHandle (hidle : e.gesture = .idle) (h : e.selection.Within e.elements)
    (id : ElementId) (handle : Handle) (pos : Point α) :
    Rooted (e.pressHandle id handle pos) := by
  unfold pressHandle
  split
  · exact rooted_of_idle hidle h
  · next initial hinitial =>
    obtain ⟨el, hel, -⟩ := Option.bind_eq_some_iff.mp hinitial
    refine ⟨Selection.within_only (Document.mem_ids_of_find? hel), fun els hels => ?_, nofun, nofun⟩
    obtain rfl : e.elements = els := Option.some.inj hels
    exact List.Subset.refl _

theorem rooted_pressCanvas (h : e.selection.Within e.elements) (pos : Point α)
    (modifiers : Modifiers) : Rooted (e.pressCanvas pos modifiers) := by
  have hbase : Within (if modifiers.additive then e.selection else StringMap.empty) e.elements := by
    split_ifs
    · exact h
    · exact within_empty _
  refine ⟨hbase, nofun, fun s hs => ?_, nofun⟩
  obtain rfl := Option.some.inj hs
  exact hbase

theorem Rooted.pointerDown (h : Rooted e) (target : PointerTarget) (pos : Point α)
    (modifiers : Modifiers) : Rooted (e.pointerDown target pos modifiers) := by
  cases target with
  | element id => exact rooted_pressElement (gesture_cancel e) h.cancel id pos modifiers
  | handle id handle => exact rooted_pressHandle (gesture_cancel e) h.cancel id handle pos
  | canvas => exact rooted_pressCanvas h.cancel pos modifiers

/-! ### Operations

Undo and redo give the gesture up and select no more than there is. Adding, deleting and copying go
on with the gesture, but select among the elements that they leave. -/

theorem Rooted.undo (h : Rooted e) : Rooted e.undo.editor := by
  cases hundo : e.history.undo? with
  | some history =>
    rw [undo_of_some hundo]
    exact rooted_of_idle (gesture_cancel e) (Selection.within_retain _ _)
  | none =>
    rw [undo_of_none hundo]
    exact h.rooted_cancel

theorem Rooted.redo (h : Rooted e) : Rooted e.redo.editor := by
  cases hredo : e.history.redo? with
  | some history =>
    rw [redo_of_some hredo]
    exact rooted_of_idle (gesture_cancel e) (Selection.within_retain _ _)
  | none =>
    rw [redo_of_none hredo]
    exact h.rooted_cancel

theorem Rooted.select (h : Rooted e) (id : ElementId) : Rooted (e.select id) := by
  refine h.of_elements_eq rfl rfl ?_
  unfold Editor.select
  dsimp only
  split_ifs with hcontains
  · exact Selection.within_only (Document.mem_ids_of_contains hcontains)
  · exact within_empty _

theorem Rooted.removeVariable (h : Rooted e) (key : String) :
    Rooted (e.removeVariable key).editor := by
  unfold Editor.removeVariable
  split_ifs <;> exact h.of_elements_eq rfl rfl h.selection

/-- An editor that selects among its elements, and has selected every id that is new. -/
def Chooses (e e' : Editor α) : Prop :=
  e'.selection.Within e'.elements ∧
    ∀ id ∈ Sequence.ids e'.elements,
      id ∈ Sequence.ids e.elements ∨ e'.selection.contains id = true

theorem Rooted.chooses (h : Rooted e) : Chooses e e := ⟨h.selection, fun _ => Or.inl⟩

variable [Scalar α]

/-- A frame keeps the ids, and a marquee hits elements. -/
theorem Rooted.pointerMove (h : Rooted e) (pos : Point α) (modifiers : Modifiers) :
    Rooted (e.pointerMove pos modifiers) := by
  unfold Editor.pointerMove
  split
  · exact h
  · next d hd =>
    unfold dragTo
    dsimp only
    split_ifs
    · exact h
    · have hids := List.Perm.of_eq (d.ids_frame e.selection
        (Gesture.travel d.start pos e.zoom) (e.grid? modifiers) e.elements)
      refine ⟨h.selection.mono hids.symm.subset, fun els hels => ?_, nofun, nofun⟩
      exact List.Subset.trans hids.subset (h.origin els (hd ▸ hels))
  · next r hr =>
    unfold resizeTo
    dsimp only
    split_ifs
    · exact h
    · have hids := fun size => List.Perm.of_eq (Sequence.ids_modify
        (f := fun el => el.resize size) (Element.id_resize · size) r.id e.elements)
      refine ⟨h.selection.mono (hids _).symm.subset, fun els hels => ?_, nofun, nofun⟩
      exact List.Subset.trans (hids _).subset (h.origin els (hr ▸ hels))
  · next m hm =>
    have hbase : m.base.Within e.elements := h.marquee m.base (hm ▸ rfl)
    refine ⟨Selection.within_addAll hbase (Selection.marqueeHits_subset ..), nofun, ?_, nofun⟩
    intro s hs
    obtain rfl := Option.some.inj hs
    exact hbase

theorem Rooted.pointerUp (h : Rooted e) (pos : Point α) (modifiers : Modifiers) :
    Rooted (e.pointerUp pos modifiers).editor :=
  rooted_of_idle (gesture_release _) (h.pointerMove pos modifiers).release

theorem Rooted.commitChange {β : Type} (h : Rooted e) (value : β) :
    Rooted (e.commitChange value).editor := by
  unfold Editor.commitChange
  split_ifs <;> exact ⟨h.selection, h.origin, h.marquee, h.click⟩

theorem Rooted.update (h : Rooted e) (id : ElementId) (patch : Patch α) :
    Rooted (e.update id patch).editor := by
  unfold Editor.update
  split_ifs
  · refine Rooted.commitChange ?_ true
    refine h.of_perm rfl ?_ h.selection
    exact List.Perm.of_eq (Sequence.ids_modify patch.id_apply id e.elements)
  · exact h

theorem Rooted.reorder (h : Rooted e) (id : ElementId) (how : Reorder) :
    Rooted (e.reorder id how).editor := by
  refine Rooted.commitChange ?_ ()
  refine h.of_perm rfl ?_ h.selection
  exact Sequence.ids_reorder_perm e.elements id how

theorem Rooted.nudge (h : Rooted e) (offset : Point α) : Rooted (e.nudge offset).editor := by
  refine Rooted.commitChange ?_ ()
  refine h.of_perm rfl ?_ h.selection
  refine List.Perm.of_eq (Sequence.ids_map (fun el => ?_) e.elements)
  split_ifs
  · exact el.id_moveBy _ _
  · rfl

theorem Rooted.moveToTargets (h : Rooted e) (targets : List (ElementId × Point α)) :
    Rooted (e.moveToTargets targets).editor := by
  unfold Editor.moveToTargets
  split_ifs
  · exact h
  · refine Rooted.commitChange ?_ ()
    refine h.of_perm rfl ?_ h.selection
    exact List.Perm.of_eq (Sequence.ids_moveAll _ e.elements)

theorem Chooses.commitChange {β : Type} (h : Chooses e e') (value : β) :
    Chooses e (e'.commitChange value).editor := by
  unfold Editor.commitChange
  split_ifs <;> exact h

theorem chooses_add (e : Editor α) (kind : Kind) (patch : Patch α) :
    Chooses e (e.add kind patch).editor := by
  have hids : Sequence.ids (e.add kind patch).editor.elements =
      Sequence.ids e.elements ++ [e.supply.next] :=
    Document.ids_add e.document e.supply.next kind patch
  refine ⟨Selection.within_only ?_, fun id hid => ?_⟩
  · rw [hids]
    exact List.mem_append_right _ List.mem_cons_self
  · rw [hids, List.mem_append, List.mem_singleton] at hid
    rcases hid with hid | rfl
    · exact Or.inl hid
    · exact Or.inr (Selection.contains_only _)

theorem Rooted.chooses_delete (h : Rooted e) : Chooses e e.delete.editor := by
  unfold delete
  split_ifs
  · exact h.chooses
  · refine Chooses.commitChange ⟨within_empty _, fun id hid => Or.inl ?_⟩ ()
    exact (Sequence.ids_without_sublist e.elements e.selection).subset hid

theorem Rooted.chooses_duplicate (h : Rooted e) : Chooses e e.duplicate.editor := by
  unfold duplicate
  split_ifs
  · exact h.chooses
  · refine Chooses.commitChange ⟨within_ofIds ?_, fun id hid => ?_⟩ _
    · show _ ⊆ Sequence.ids (e.elements ++ _)
      rw [Sequence.ids_append]
      exact List.subset_append_right _ _
    · have hmem : id ∈ Sequence.ids (e.elements ++ _) := hid
      rw [Sequence.ids_append, List.mem_append] at hmem
      exact hmem.imp_right (contains_ofIds _ id).mpr

theorem Rooted.setLabelSize (h : Rooted e) (size : LabelSize α) :
    Rooted (e.setLabelSize size).editor := by
  unfold Editor.setLabelSize Document.setLabelSize?
  split_ifs <;> exact h.of_elements_eq rfl rfl h.selection

theorem Rooted.applyPreset (h : Rooted e) (name : String) :
    Rooted (e.applyPreset name).editor := by
  unfold Editor.applyPreset
  split
  · exact h.setLabelSize _
  · exact h

theorem Rooted.setZoom (h : Rooted e) (zoom : α) : Rooted (e.setZoom zoom) := by
  unfold Editor.setZoom
  split_ifs <;> exact h.of_elements_eq rfl rfl h.selection

theorem rooted_load (e : Editor α) (s : Session α) : Rooted (e.load s) :=
  rooted_of_idle rfl (within_empty _)

theorem rooted_openStored (stored : Except Error (Option (Session α))) (supply : IdSupply) :
    Rooted (openStored stored supply) := by
  unfold openStored
  split <;> exact rooted_load _ _

variable [NumberText α]

theorem Rooted.importTemplate (h : Rooted e) (text : String) :
    Rooted (e.importTemplate text).editor := by
  unfold Editor.importTemplate
  split
  · exact h
  · exact rooted_of_idle rfl (within_empty _)

/-- What does not change the ids cannot make a selection dangle, whatever it does to the gesture. -/
theorem Rooted.perform_of_keeps {op : Operation α} (h : Rooted e) (hop : op.changesIds = false) :
    Rooted (e.perform op).editor := by
  cases op with
  | pointerDown target pos modifiers => exact h.pointerDown target pos modifiers
  | pointerMove pos modifiers => exact h.pointerMove pos modifiers
  | pointerUp pos modifiers => exact h.pointerUp pos modifiers
  | cancel => exact h.rooted_cancel
  | select id => exact h.select id
  | selectAll => exact h.of_elements_eq rfl rfl (within_ofIds (List.Subset.refl _))
  | clearSelection => exact h.of_elements_eq rfl rfl (within_empty _)
  | add | delete | duplicate => cases hop
  | update id patch => exact h.update id patch
  | reorder id how => exact h.reorder id how
  | nudge offset => exact h.nudge offset
  | align alignment => exact h.moveToTargets _
  | distribute distribution => exact h.moveToTargets _
  | undo => exact h.undo
  | redo => exact h.redo
  | setLabelSize size => exact h.setLabelSize size
  | applyPreset name => exact h.applyPreset name
  | reset => exact rooted_of_idle rfl (within_empty _)
  | restore session => exact rooted_load e session
  | importTemplate text => exact h.importTemplate text
  | removeVariable key => exact h.removeVariable key
  | setZoom zoom => exact h.setZoom zoom
  | setVariable | setLanguage | setGrid | measure => exact h.of_elements_eq rfl rfl h.selection

theorem Rooted.chooses_perform {op : Operation α} (h : Rooted e) (hop : op.changesIds = true) :
    Chooses e (e.perform op).editor := by
  cases op with
  | add kind patch => exact chooses_add e kind patch
  | delete => exact h.chooses_delete
  | duplicate => exact h.chooses_duplicate
  | _ => cases hop

/-- An edit during a gesture after which the elements that the gesture keeps do not have what is
selected, or what it may select when it ends is not there any more. -/
def Strands (e : Editor α) (op : Operation α) : Prop :=
  op.changesIds = true ∧
    ((∃ els ∈ e.gesture.origin?, ¬ (e.perform op).editor.selection.Within els) ∨
      (∃ s ∈ e.gesture.selection?, ¬ Within s (e.perform op).editor.elements) ∨
      ∃ id ∈ e.gesture.click?, id ∉ Sequence.ids (e.perform op).editor.elements)

instance (e : Editor α) (op : Operation α) : Decidable (Strands e op) :=
  inferInstanceAs (Decidable (_ ∧ _))

theorem gesture_of_changesIds {op : Operation α} (hop : op.changesIds = true) :
    (e.perform op).editor.gesture = e.gesture :=
  ((perform_effect e op).edited (Operation.role_of_changesIds hop)).gesture

theorem Rooted.perform {op : Operation α} (h : Rooted e) (hop : ¬ Strands e op) :
    Rooted (e.perform op).editor := by
  cases hchanges : op.changesIds with
  | false => exact h.perform_of_keeps hchanges
  | true =>
    have hgesture : (e.perform op).editor.gesture = e.gesture := gesture_of_changesIds hchanges
    obtain ⟨hwithin, hnew⟩ := h.chooses_perform hchanges
    unfold Strands at hop
    push Not at hop
    obtain ⟨horigin, hmarquee, hclick⟩ := hop hchanges
    refine ⟨hwithin, fun els hels id hid => ?_, ?_, ?_⟩
    · -- an id is from before, or it is new and selected
      rw [hgesture] at hels
      rcases hnew id hid with hold | hselected
      · exact h.origin els hels hold
      · exact horigin els hels id hselected
    · rw [hgesture]
      exact hmarquee
    · rw [hgesture]
      exact hclick

/-- After an edit has stranded the gesture, giving it up or ending it makes the selection dangle. -/
theorem Strands.dangles {op : Operation α} (h : Strands e op) :
    Dangles (e.perform op).editor.cancel ∨ Dangles (e.perform op).editor.release.editor := by
  obtain ⟨hchanges, h⟩ := h
  have hgesture : (e.perform op).editor.gesture = e.gesture := gesture_of_changesIds hchanges
  rw [← hgesture] at h
  revert h
  generalize (e.perform op).editor = after
  obtain ⟨document, settings, selection, history, gesture, measured, zoom, supply⟩ := after
  rintro (⟨els, hels, h⟩ | ⟨s, hs, h⟩ | ⟨id, hid, h⟩)
  · refine Or.inl ?_
    cases gesture with
    | idle | marquee => cases hels
    | dragging d => cases hels; exact h
    | resizing r => cases hels; exact h
  · refine Or.inl ?_
    cases gesture with
    | idle | dragging | resizing => cases hs
    | marquee m => cases hs; exact h
  · refine Or.inr fun hwithin => h ?_
    cases gesture with
    | idle | marquee | resizing => cases hid
    | dragging d =>
      obtain ⟨primary, start, origin, moved, collapseTo⟩ := d
      cases moved with
      | true => cases hid
      | false =>
        obtain rfl : collapseTo = some id := hid
        exact hwithin id (Selection.contains_only id)

/-- **No selection of a run dangles, and none does once its gesture is given up or ended, if and
only if no edit of the run strands a gesture.** -/
theorem never_dangles_iff (stored : Except Error (Option (Session α))) (supply : IdSupply)
    (ops : List (Operation α)) :
    (∀ run, run <+: ops → ¬ Dangles ((openStored stored supply).after run) ∧
        ¬ Dangles ((openStored stored supply).after run).cancel ∧
        ¬ Dangles ((openStored stored supply).after run).release.editor) ↔
      Throughout (fun e op => ¬ Strands e op) (openStored stored supply) ops := by
  constructor
  · intro h
    refine throughout_iff_prefix.mpr fun run op hrun hstrands => ?_
    obtain ⟨-, hcancel, hrelease⟩ := h _ hrun
    rw [after_concat] at hcancel hrelease
    exact hstrands.dangles.elim hcancel hrelease
  · rintro h run ⟨more, rfl⟩
    have hrooted := invariant_after Rooted.perform (rooted_openStored stored supply)
      (throughout_append.mp h).1
    exact ⟨not_not_intro hrooted.selection, not_not_intro hrooted.cancel,
      not_not_intro hrooted.release⟩

/-- A selected box deleted while a marquee is drawn that adds to the selection: once the marquee is
given up, its id is selected again. -/
theorem dangles_of_delete_during_marquee :
    Dangles ((openStored (.ok (some oneBox)) (.numbered 0)).after
      [.select "a", .pointerDown .canvas ⟨0, 0⟩ ⟨true, false⟩, .delete, .cancel]) := by
  decide +kernel

end Editor

end ThermalLabel

import ThermalLabel.Proofs.Editor.Identity
import ThermalLabel.Proofs.Element.Lasting

/-! # Lasting properties along a run

What samples have and no change of an element takes away, no run of an editor takes away. An
operation gives a lasting property to the elements if what it brings from outside has it
(`Lasting.all_perform`), and then all that the editor holds has it: the elements, the snapshots of
the history and the origin of a gesture (`Lasting.everywhere_after`). -/

namespace ThermalLabel

open Sequence (All)

/-- The elements that an operation brings from outside. -/
def Operation.brought {α : Type} [Scalar α] [NumberText α] : Operation α → List (Element α)
  | .restore session => session.document.elements
  | .importTemplate text =>
    match Template.parse text with
    | .ok template => template.elements
    | .error _ => []
  | _ => []

namespace Editor

variable {α β : Type} [Scalar α] {P : Element α → Prop} {e : Editor α}

theorem all_commitChange (h : All P e.elements) (value : β) :
    All P (e.commitChange value).editor.elements := by
  unfold commitChange
  split_ifs <;> exact h

end Editor

namespace Lasting

open Editor

variable {α : Type} [Scalar α] {P : Element α → Prop} {e : Editor α}

theorem all_update (hP : Lasting P) (h : All P e.elements) (id : ElementId) (patch : Patch α) :
    All P (e.update id patch).editor.elements := by
  unfold update
  split_ifs
  · refine all_commitChange ?_ true
    exact Sequence.all_modify (fun el => hP.apply el patch) id h
  · exact h

theorem all_duplicate (hP : Lasting P) (h : All P e.elements) :
    All P e.duplicate.editor.elements := by
  unfold duplicate
  split_ifs
  · exact h
  · refine all_commitChange ?_ _
    exact Sequence.all_append h (hP.all_copies _ _ _ h _)

theorem all_nudge (hP : Lasting P) (h : All P e.elements) (offset : Point α) :
    All P (e.nudge offset).editor.elements := by
  refine all_commitChange (Sequence.all_map (fun el hel => ?_) h) ()
  split_ifs
  · exact hP.moveBy el _ _ hel
  · exact hel

theorem all_moveToTargets (hP : Lasting P) (h : All P e.elements)
    (targets : List (ElementId × Point α)) :
    All P (e.moveToTargets targets).editor.elements := by
  unfold moveToTargets
  split_ifs
  · exact h
  · exact all_commitChange (hP.all_moveAll _ h) ()

theorem all_delete (h : All P e.elements) : All P e.delete.editor.elements := by
  unfold delete
  split_ifs
  · exact h
  · exact all_commitChange (Sequence.all_without e.selection h) ()

theorem all_pointerMove (hP : Lasting P) (h : All P e.elements) (pos : Point α)
    (modifiers : Modifiers) : All P (e.pointerMove pos modifiers).elements := by
  unfold pointerMove
  split
  · exact h
  · next d hd =>
    unfold dragTo
    dsimp only
    split_ifs
    · exact h
    · exact hP.all_frame d _ _ _ h
  · next r hr =>
    unfold resizeTo
    dsimp only
    split_ifs
    · exact h
    · exact Sequence.all_modify (fun el => hP.resize el _) r.id h
  · exact h

theorem all_pointerUp (hP : Lasting P) (h : All P e.elements) (pos : Point α)
    (modifiers : Modifiers) : All P (e.pointerUp pos modifiers).editor.elements := by
  have hmove := hP.all_pointerMove h pos modifiers
  unfold pointerUp
  cases hmoved : (e.pointerMove pos modifiers).gesture.hasMoved with
  | true =>
    rw [release_of_hasMoved hmoved]
    exact hmove
  | false =>
    obtain ⟨selection, hrelease⟩ := release_of_still hmoved
    rw [hrelease]
    exact hmove

variable [NumberText α]

theorem all_importTemplate (hP : Lasting P) (h : All P e.elements) {text : String}
    (hop : All P (Operation.importTemplate text : Operation α).brought) :
    All P (e.importTemplate text).editor.elements := by
  unfold importTemplate
  cases hparse : (Template.parse text : Except Error (Template α)) with
  | error error => exact h
  | ok template =>
    refine hP.all_normalize (d := ⟨template.labelSize, template.elements⟩) ?_ e.supply
    simpa only [Operation.brought, hparse] using hop

/-- **An operation gives every lasting property to the elements**, if what it brings from outside
has it. -/
theorem all_perform (hP : Lasting P) (h : Everywhere (All P) e) {op : Operation α}
    (hop : All P op.brought) : All P (e.perform op).editor.elements := by
  cases op with
  | pointerDown target pos modifiers =>
    have helements := (pressed_pointerDown e target pos modifiers).elements
    exact (helements.trans (elements_cancel e)).symm ▸ h.base
  | pointerMove pos modifiers => exact hP.all_pointerMove h.elements pos modifiers
  | pointerUp pos modifiers => exact hP.all_pointerUp h.elements pos modifiers
  | cancel => exact (elements_cancel e).symm ▸ h.base
  | add kind patch => exact hP.all_add h.elements e.supply.next kind patch
  | update id patch => exact hP.all_update h.elements id patch
  | delete => exact all_delete h.elements
  | duplicate => exact hP.all_duplicate h.elements
  | reorder id how => exact all_commitChange (Sequence.all_reorder id how h.elements) ()
  | nudge offset => exact hP.all_nudge h.elements offset
  | align alignment => exact hP.all_moveToTargets h.elements _
  | distribute distribution => exact hP.all_moveToTargets h.elements _
  | undo => exact h.undo
  | redo => exact h.redo
  | reset => exact hP.all_starter e.supply
  | restore session => exact hP.all_normalize hop e.supply
  | importTemplate text => exact hP.all_importTemplate h.elements hop
  | setLabelSize | applyPreset | setVariable | removeVariable | setLanguage | setGrid =>
    exact h.setting rfl
  | setZoom zoom =>
    show All P (e.setZoom zoom).elements
    unfold setZoom
    split_ifs <;> exact h.elements
  | select | selectAll | clearSelection | measure => exact h.elements

theorem everywhere_perform (hP : Lasting P) (h : Everywhere (All P) e) {op : Operation α}
    (hop : All P op.brought) : Everywhere (All P) (e.perform op).editor :=
  h.perform (hP.all_perform h hop)

omit [NumberText α] in
theorem everywhere_ofSession (hP : Lasting P) {s : Session α} (h : All P s.document.elements)
    (supply : IdSupply) : Everywhere (All P) (ofSession s supply) :=
  everywhere_of_reset (hP.all_normalize h supply) rfl rfl

omit [NumberText α] in
theorem everywhere_openStored (hP : Lasting P) {stored : Except Error (Option (Session α))}
    (h : All P (storedElements stored)) (supply : IdSupply) :
    Everywhere (All P) (openStored stored supply) := by
  have hstarter : Everywhere (All P)
      (ofSession (Session.starter (α := α) supply).1 (Session.starter (α := α) supply).2) :=
    hP.everywhere_ofSession (hP.all_starter supply) _
  rcases stored with error | (_ | session)
  · exact hstarter
  · exact hstarter
  · exact hP.everywhere_ofSession h supply

/-- A lasting property holds everywhere along a run, if all documents from outside have it. -/
theorem everywhere_after (hP : Lasting P) {stored : Except Error (Option (Session α))}
    (hopen : All P (storedElements stored)) {ops : List (Operation α)}
    (hops : ∀ op ∈ ops, All P op.brought) (supply : IdSupply) :
    Everywhere (All P) ((openStored stored supply).after ops) := by
  have hrun : Throughout (fun _ op => All P op.brought) (openStored stored supply) ops :=
    throughout_of_forall hops
  exact invariant_after (I := Everywhere (All P)) (fun h hop => hP.everywhere_perform h hop)
    (hP.everywhere_openStored hopen supply) hrun

end Lasting

end ThermalLabel

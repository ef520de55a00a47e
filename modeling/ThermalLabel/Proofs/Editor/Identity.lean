import ThermalLabel.Decimal.Exact
import ThermalLabel.Proofs.Editor.Everywhere
import ThermalLabel.Proofs.Element.DistinctIds

/-! # Identity of elements

Elements are told apart by their ids. Five ways lead new elements into an editor (adding, copying, a
template, a session restored or opened) and three lead old ones back (undo, redo, cancel): along all
of them the ids stay distinct, in the document, in every snapshot and in what a gesture keeps, as
long as the supply gives new ids. -/

namespace ThermalLabel.Editor

variable {α β : Type} {e e' e'' : Editor α}

/-! ### Ids drawn from the supply -/

/-- An editor whose elements have ids from before and ids that were taken since. -/
def Draws (e e' : Editor α) : Prop :=
  (Sequence.ids e'.elements).Subperm (Sequence.ids e.elements ++ e.supply.taken e'.supply)

/-- No id is needed where elements only change, move or go. -/
theorem draws_of_subperm (hsupply : e'.supply = e.supply)
    (hids : (Sequence.ids e'.elements).Subperm (Sequence.ids e.elements)) : Draws e e' := by
  rw [Draws, hsupply, IdSupply.taken_self, List.append_nil]
  exact hids

theorem draws_of_ids_eq (hsupply : e'.supply = e.supply)
    (hids : Sequence.ids e'.elements = Sequence.ids e.elements) : Draws e e' :=
  draws_of_subperm hsupply (List.Perm.of_eq hids).subperm

theorem draws_of_elements_eq (hsupply : e'.supply = e.supply)
    (helements : e'.elements = e.elements) : Draws e e' :=
  draws_of_ids_eq hsupply (congrArg Sequence.ids helements)

theorem draws_refl (e : Editor α) : Draws e e := draws_of_elements_eq rfl rfl

variable [Scalar α]

theorem Draws.commitChange (h : Draws e e') (value : β) :
    Draws e (e'.commitChange value).editor := by
  unfold Editor.commitChange
  split_ifs <;> exact h

theorem draws_add (e : Editor α) (kind : Kind) (patch : Patch α) :
    Draws e (e.add kind patch).editor := by
  have hids : Sequence.ids (e.add kind patch).editor.elements =
      Sequence.ids e.elements ++ [e.supply.next] :=
    Document.ids_add e.document e.supply.next kind patch
  have htaken : e.supply.taken (e.add kind patch).editor.supply = [e.supply.next] :=
    e.supply.taken_rest
  rw [Draws, hids, htaken]

theorem draws_update (e : Editor α) (id : ElementId) (patch : Patch α) :
    Draws e (e.update id patch).editor := by
  unfold update
  split_ifs
  · refine Draws.commitChange ?_ true
    exact draws_of_ids_eq rfl (Sequence.ids_modify patch.id_apply id e.elements)
  · exact draws_refl e

theorem draws_delete (e : Editor α) : Draws e e.delete.editor := by
  unfold delete
  split_ifs
  · exact draws_refl e
  · refine Draws.commitChange ?_ ()
    exact draws_of_subperm rfl (Sequence.ids_without_sublist e.elements e.selection).subperm

theorem draws_duplicate (e : Editor α) : Draws e e.duplicate.editor := by
  unfold duplicate
  split_ifs
  · exact draws_refl e
  · refine Draws.commitChange ?_ _
    show (Sequence.ids (e.elements ++ _)).Subperm _
    rw [Sequence.ids_append, Sequence.ids_copies]

theorem draws_reorder (e : Editor α) (id : ElementId) (how : Reorder) :
    Draws e (e.reorder id how).editor := by
  refine Draws.commitChange ?_ ()
  exact draws_of_subperm rfl (Sequence.ids_reorder_perm e.elements id how).subperm

theorem draws_nudge (e : Editor α) (offset : Point α) : Draws e (e.nudge offset).editor := by
  refine Draws.commitChange ?_ ()
  refine draws_of_ids_eq rfl (Sequence.ids_map (fun el => ?_) e.elements)
  split_ifs
  · exact el.id_moveBy _ _
  · rfl

theorem draws_moveToTargets (e : Editor α) (targets : List (ElementId × Point α)) :
    Draws e (e.moveToTargets targets).editor := by
  unfold moveToTargets
  split_ifs
  · exact draws_refl e
  · refine Draws.commitChange ?_ ()
    exact draws_of_ids_eq rfl (Sequence.ids_moveAll _ e.elements)

theorem draws_pointerMove (e : Editor α) (pos : Point α) (modifiers : Modifiers) :
    Draws e (e.pointerMove pos modifiers) := by
  unfold pointerMove
  split
  · exact draws_refl e
  · next d hd =>
    unfold dragTo
    dsimp only
    split_ifs
    · exact draws_refl e
    · exact draws_of_ids_eq rfl (d.ids_frame _ _ _ e.elements)
  · next r hr =>
    unfold resizeTo
    dsimp only
    split_ifs
    · exact draws_refl e
    · exact draws_of_ids_eq rfl (Sequence.ids_modify (Element.id_resize · _) r.id e.elements)
  · exact draws_refl e

theorem draws_pointerUp (e : Editor α) (pos : Point α) (modifiers : Modifiers) :
    Draws e (e.pointerUp pos modifiers).editor := by
  have hmove := draws_pointerMove e pos modifiers
  unfold pointerUp
  cases hmoved : (e.pointerMove pos modifiers).gesture.hasMoved with
  | true =>
    rw [release_of_hasMoved hmoved]
    exact hmove
  | false =>
    obtain ⟨selection, hrelease⟩ := release_of_still hmoved
    rw [hrelease]
    exact hmove

/-! ### Opening -/

/-- Elements that their ids tell apart. -/
def Distinct (els : List (Element α)) : Prop := DistinctIds (Sequence.ids els)

theorem everywhere_distinct_ofSession {s : Session α} {supply : IdSupply}
    (h : FreshFor (supply.taken (ofSession s supply).supply) s.document.elements) :
    Everywhere Distinct (ofSession s supply) :=
  everywhere_of_reset (Document.distinctIds_normalize h) rfl rfl

theorem everywhere_distinct_starter {supply : IdSupply}
    (h : DistinctIds (supply.taken
      (ofSession (Session.starter (α := α) supply).1 (Session.starter (α := α) supply).2).supply)) :
    Everywhere Distinct
      (ofSession (Session.starter (α := α) supply).1 (Session.starter (α := α) supply).2) := by
  have hstarter := Document.advanced_starter (α := α) supply
  have hnormal := Document.advanced_normalize (Document.starter (α := α) supply).1
    (Document.starter (α := α) supply).2
  -- the layout takes its ids from the supply, and putting it in order takes the next ones
  have htaken := hstarter.taken_append hnormal
  rw [← Document.ids_starter] at htaken
  refine everywhere_distinct_ofSession (freshFor_of_append ?_)
  exact htaken.symm ▸ h

/-- The elements that a store holds. -/
def storedElements : Except Error (Option (Session α)) → List (Element α)
  | .ok (some session) => session.document.elements
  | _ => []

/-- The ids that an editor takes from the supply on opening are new to what the store holds. -/
def OpensFresh (stored : Except Error (Option (Session α))) (supply : IdSupply) : Prop :=
  FreshFor (supply.taken (openStored stored supply).supply) (storedElements stored)

instance (stored : Except Error (Option (Session α))) (supply : IdSupply) :
    Decidable (OpensFresh stored supply) :=
  inferInstanceAs (Decidable (FreshFor _ _))

theorem everywhere_distinct_openStored {stored : Except Error (Option (Session α))}
    {supply : IdSupply} (h : OpensFresh stored supply) :
    Everywhere Distinct (openStored stored supply) := by
  rcases stored with error | (_ | session)
  · exact everywhere_distinct_starter h.distinct
  · exact everywhere_distinct_starter h.distinct
  · exact everywhere_distinct_ofSession h

/-! ### Where elements come from -/

variable [NumberText α]

/-- The sequence that an operation puts new ids into: the one of the document, or the one that takes
its place. -/
def host (e : Editor α) : Operation α → List (Element α)
  | .reset => []
  | .restore session => session.document.elements
  | .importTemplate text =>
    match Template.parse text with
    | .ok template => template.elements
    | .error _ => e.elements
  | _ => e.elements

/-- The ways that lead to the elements after an operation. -/
inductive Source (e : Editor α) (op : Operation α) (e' : Editor α) : Prop
  /-- Elements from before, as they were or changed, and new ones. -/
  | drawn (host : e.host op = e.elements) (draws : Draws e e')
  /-- What was there before the gesture. -/
  | base (elements : e'.elements = e.base)
  /-- A snapshot. -/
  | snapshot (elements : e'.elements ∈ e.history.snapshots.toList)
  /-- A document put in order. -/
  | normal (d : Document α) (host : e.host op = d.elements)
      (document : e'.document = (d.normalize e.supply).1)
      (supply : e'.supply = (d.normalize e.supply).2)
  /-- The starter layout. -/
  | starter (document : e'.document = (Document.starter e.supply).1)
      (supply : e'.supply = (Document.starter (α := α) e.supply).2)

theorem source_refl {op : Operation α} (hhost : e.host op = e.elements) : Source e op e :=
  .drawn hhost (draws_refl e)

theorem source_undo (e : Editor α) : Source e .undo e.undo.editor := by
  cases hundo : e.history.undo? with
  | some history =>
    rw [undo_of_some hundo]
    refine .snapshot ?_
    rw [← (History.undo?_spec hundo).1]
    exact List.mem_of_getElem? history.getElem?_cursor
  | none =>
    rw [undo_of_none hundo]
    exact .base (elements_cancel e)

theorem source_redo (e : Editor α) : Source e .redo e.redo.editor := by
  cases hredo : e.history.redo? with
  | some history =>
    rw [redo_of_some hredo]
    refine .snapshot ?_
    rw [← (History.redo?_spec hredo).1]
    exact List.mem_of_getElem? history.getElem?_cursor
  | none =>
    rw [redo_of_none hredo]
    exact .base (elements_cancel e)

theorem source_setLabelSize (e : Editor α) (op : Operation α) (hhost : e.host op = e.elements)
    (size : LabelSize α) : Source e op (e.setLabelSize size).editor := by
  refine .drawn hhost ?_
  unfold setLabelSize Document.setLabelSize?
  split_ifs <;> exact draws_of_elements_eq rfl rfl

theorem source_importTemplate (e : Editor α) (text : String) :
    Source e (.importTemplate text) (e.importTemplate text).editor := by
  unfold importTemplate
  split
  · next error herror =>
    exact source_refl (by simp only [host, herror])
  · next template htemplate =>
    exact .normal ⟨template.labelSize, template.elements⟩ (by simp only [host, htemplate]) rfl rfl

theorem perform_source (e : Editor α) (op : Operation α) : Source e op (e.perform op).editor := by
  cases op with
  | pointerDown target pos modifiers =>
    have h := pressed_pointerDown e target pos modifiers
    exact .base (h.elements.trans (elements_cancel e))
  | pointerMove pos modifiers => exact .drawn rfl (draws_pointerMove e pos modifiers)
  | pointerUp pos modifiers => exact .drawn rfl (draws_pointerUp e pos modifiers)
  | cancel => exact .base (elements_cancel e)
  | add kind patch => exact .drawn rfl (draws_add e kind patch)
  | update id patch => exact .drawn rfl (draws_update e id patch)
  | delete => exact .drawn rfl (draws_delete e)
  | duplicate => exact .drawn rfl (draws_duplicate e)
  | reorder id how => exact .drawn rfl (draws_reorder e id how)
  | nudge offset => exact .drawn rfl (draws_nudge e offset)
  | align alignment => exact .drawn rfl (draws_moveToTargets e _)
  | distribute distribution => exact .drawn rfl (draws_moveToTargets e _)
  | undo => exact source_undo e
  | redo => exact source_redo e
  | setLabelSize size => exact source_setLabelSize e _ rfl size
  | applyPreset name =>
    show Source e _ (e.applyPreset name).editor
    unfold applyPreset
    split
    · exact source_setLabelSize e _ rfl _
    · exact source_refl rfl
  | reset => exact .starter rfl rfl
  | restore session => exact .normal session.document rfl rfl rfl
  | importTemplate text => exact source_importTemplate e text
  | removeVariable key =>
    show Source e _ (e.removeVariable key).editor
    unfold removeVariable
    split_ifs <;> exact .drawn rfl (draws_of_elements_eq rfl rfl)
  | setZoom zoom =>
    show Source e _ (e.setZoom zoom)
    unfold setZoom
    split_ifs <;> exact .drawn rfl (draws_of_elements_eq rfl rfl)
  | select | selectAll | clearSelection | setVariable | setLanguage | setGrid | measure =>
    exact .drawn rfl (draws_of_elements_eq rfl rfl)

/-! ### Distinct ids everywhere -/

/-- The ids that an operation takes from the supply are new to the sequence that they are put
into. -/
def TakesFresh (e : Editor α) (op : Operation α) : Prop :=
  FreshFor (e.supply.taken (e.perform op).editor.supply) (e.host op)

instance (e : Editor α) (op : Operation α) : Decidable (TakesFresh e op) :=
  inferInstanceAs (Decidable (FreshFor _ _))

theorem distinct_perform {op : Operation α} (h : Everywhere Distinct e) (hop : TakesFresh e op) :
    Distinct (e.perform op).editor.elements := by
  unfold TakesFresh at hop
  cases perform_source e op with
  | drawn hhost draws =>
    rw [hhost] at hop
    exact (hop.append h.elements).subperm draws
  | base elements =>
    rw [elements]
    exact h.base
  | snapshot elements => exact h.snapshots _ elements
  | normal d hhost document supply =>
    rw [hhost, supply] at hop
    show DistinctIds (e.perform op).editor.document.ids
    rw [document]
    exact Document.distinctIds_normalize hop
  | starter document supply =>
    rw [supply, ← Document.ids_starter] at hop
    show DistinctIds (e.perform op).editor.document.ids
    rw [document]
    exact hop.distinct

theorem everywhere_distinct_perform {op : Operation α} (h : Everywhere Distinct e)
    (hop : TakesFresh e op) : Everywhere Distinct (e.perform op).editor :=
  h.perform (distinct_perform h hop)

/-- **The ids stay non-empty and distinct everywhere along a run**, whatever ids come from the
store, from sessions restored and from templates, if the ids from the supply are new to the
sequences that they are put into. Whether they are new to the history or the gesture does not
matter. -/
theorem ids_distinct_after {stored : Except Error (Option (Session α))} {supply : IdSupply}
    {ops : List (Operation α)} (hopen : OpensFresh stored supply)
    (hops : Throughout TakesFresh (openStored stored supply) ops) :
    Everywhere Distinct ((openStored stored supply).after ops) :=
  invariant_after everywhere_distinct_perform (everywhere_distinct_openStored hopen) hops

/-- A session with a box without an id and two boxes of one id. -/
def twins : Session Rat where
  document := ⟨LabelSize.standard,
    [Element.default .box, { Element.default .box with id := "a" },
      { Element.default .box with id := "a", x := 10 }]⟩
  settings := Settings.standard

/-- A template of two boxes without ids. -/
def namelessBoxes : String :=
  "\x7b\"labelSize\":\x7b\"width\":40,\"height\":30\x7d,\"elements\":[\x7b\"id\":\"\"," ++
    "\"type\":\"box\"\x7d,\x7b\"id\":\"\",\"type\":\"box\"\x7d]\x7d"

/-- Ids repaired on opening, in a session and in a template, copies, and an undo during a drag. -/
theorem ids_distinct_after_repairs :
    Everywhere Distinct ((openStored (.ok (some twins)) (.numbered 0)).after
      [.select "a", .duplicate, .selectAll, .pointerDown (.element "a") ⟨0, 0⟩ ⟨false, false⟩,
        .pointerMove ⟨40, 0⟩ ⟨false, false⟩, .duplicate, .undo, .restore twins, .add .text .empty,
        .importTemplate namelessBoxes]) :=
  ids_distinct_after (by decide +kernel) (by decide +kernel)

end ThermalLabel.Editor

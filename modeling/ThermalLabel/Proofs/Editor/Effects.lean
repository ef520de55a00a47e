import ThermalLabel.Editor.Operation
import ThermalLabel.Proofs.Editor.Gestures

/-! # Effects of operations

What an operation does to the elements, the history, the gesture and the store, whatever it does to
the rest. `perform_effect` lists all that can happen; what holds along every run of an editor is
proved from this list. -/

namespace ThermalLabel

variable {α : Type}

namespace Operation

/-- The part that an operation takes: it edits elements, it changes what surrounds them, it leaves
the snapshot that the editor is at for another one or for another history, or it does none of this.
-/
inductive Role where
  | edit
  | setting
  | travel
  | other
deriving DecidableEq

/-- The part of each operation. -/
def role : Operation α → Role
  | .add _ _ | .update _ _ | .delete | .duplicate | .reorder _ _ | .nudge _ | .align _
  | .distribute _ => .edit
  | .setLabelSize _ | .applyPreset _ | .setVariable _ _ | .removeVariable _ | .setLanguage _
  | .setGrid _ => .setting
  | .undo | .redo | .reset | .restore _ => .travel
  | _ => .other

end Operation

namespace Editor

variable {β γ : Type} {e e' : Editor α}

/-! ### Undo and redo -/

theorem undo_of_some {history : History (List (Element α))} (h : e.history.undo? = some history) :
    e.undo = (e.cancel.travelTo history).saving true := by
  simp only [undo, history_cancel, h]

theorem undo_of_none (h : e.history.undo? = none) : e.undo = e.cancel.keeping false := by
  simp only [undo, history_cancel, h]

theorem redo_of_some {history : History (List (Element α))} (h : e.history.redo? = some history) :
    e.redo = (e.cancel.travelTo history).saving true := by
  simp only [redo, history_cancel, h]

theorem redo_of_none (h : e.history.redo? = none) : e.redo = e.cancel.keeping false := by
  simp only [redo, history_cancel, h]

/-! ### Snapshots -/

/-- A reply that made a snapshot of the elements that it leaves. -/
structure Committed (e : Editor α) (r : Reply α β) : Prop where
  history : r.editor.history = e.history.commit r.editor.elements
  saves : r.saves = true

theorem Committed.current {r : Reply α β} (h : Committed e r) :
    r.editor.history.current = r.editor.elements := by
  rw [h.history, History.current_commit]

theorem committed_commit (hhistory : e'.history = e.history) (value : β) :
    Committed e (e'.commit value) := ⟨by rw [← hhistory]; rfl, rfl⟩

theorem Committed.map {r : Reply α β} (h : Committed e r) (f : β → γ) : Committed e (r.map f) :=
  ⟨h.history, h.saves⟩

variable [Scalar α]

/-- Two sequences that count as equal: identical ones, and ones that the test of the program takes
for equal. A number that is not ordered fails the test even against itself. -/
def Same (els els' : List (Element α)) : Prop := els = els' ∨ (els == els') = true

theorem same_refl (els : List (Element α)) : Same els els := Or.inl rfl

theorem Same.ids_eq {els els' : List (Element α)} (h : Same els els') :
    Sequence.ids els = Sequence.ids els' := by
  rcases h with rfl | htest
  · rfl
  · induction els generalizing els' with
    | nil => cases els' with
      | nil => rfl
      | cons e' rest' => cases htest
    | cons e rest ih => cases els' with
      | nil => cases htest
      | cons e' rest' =>
        rw [List.cons_beq_cons, Bool.and_eq_true] at htest
        have hid : e.id = e'.id := eq_of_beq (Bool.and_eq_true_iff.mp htest.1).1
        have hids : Sequence.ids rest = Sequence.ids rest' := ih htest.2
        rw [Sequence.ids, List.map_cons, hid, Sequence.ids, List.map_cons]
        exact congrArg _ hids

theorem Same.length_eq {els els' : List (Element α)} (h : Same els els') :
    els.length = els'.length := by
  have hlength := congrArg List.length h.ids_eq
  rwa [Sequence.ids, List.length_map, Sequence.ids, List.length_map] at hlength

/-- A reply that made no snapshot: the elements are as they were, or they are the current snapshot
by the test of the program. -/
structure Kept (e : Editor α) (r : Reply α β) : Prop where
  history : r.editor.history = e.history
  saves : r.saves = false
  elements : r.editor.elements = e.elements ∨ (r.editor.elements == e.history.current) = true

theorem Kept.map {r : Reply α β} (h : Kept e r) (f : β → γ) : Kept e (r.map f) :=
  ⟨h.history, h.saves, h.elements⟩

/-- A reply to an edit. The gesture goes on as if nothing had happened. -/
structure Edited (e : Editor α) (r : Reply α β) : Prop where
  gesture : r.editor.gesture = e.gesture
  outcome : Kept e r ∨ Committed e r

theorem Edited.map {r : Reply α β} (h : Edited e r) (f : β → γ) : Edited e (r.map f) :=
  ⟨h.gesture, h.outcome.imp (fun h => h.map f) fun h => h.map f⟩

theorem edited_commit (hhistory : e'.history = e.history) (hgesture : e'.gesture = e.gesture)
    (value : β) : Edited e (e'.commit value) :=
  ⟨hgesture, Or.inr (committed_commit hhistory value)⟩

/-- A reply to an edit that makes no snapshot of what is the current one already. -/
structure Sparing (e : Editor α) (r : Reply α β) : Prop extends Edited e r where
  changed : r.saves = true → (r.editor.elements == e.history.current) = false

theorem Sparing.map {r : Reply α β} (h : Sparing e r) (f : β → γ) : Sparing e (r.map f) :=
  ⟨h.toEdited.map f, h.changed⟩

theorem sparing_keeping (e : Editor α) (value : β) : Sparing e (e.keeping value) :=
  ⟨⟨rfl, Or.inl ⟨rfl, rfl, Or.inl rfl⟩⟩, nofun⟩

theorem sparing_commitChange (hhistory : e'.history = e.history)
    (hgesture : e'.gesture = e.gesture) (value : β) : Sparing e (e'.commitChange value) := by
  unfold commitChange
  split_ifs with h
  · exact ⟨⟨hgesture, Or.inl ⟨hhistory, rfl, Or.inr (hhistory ▸ h)⟩⟩, nofun⟩
  · refine ⟨edited_commit hhistory hgesture value, fun _ => ?_⟩
    rw [← hhistory]
    exact Bool.eq_false_iff.mpr h

/-! ### Edits -/

theorem edited_add (e : Editor α) (kind : Kind) (patch : Patch α) :
    Edited e (e.add kind patch) := by
  apply edited_commit <;> rfl

theorem sparing_update (e : Editor α) (id : ElementId) (patch : Patch α) :
    Sparing e (e.update id patch) := by
  unfold update
  split_ifs
  · apply sparing_commitChange <;> rfl
  · exact sparing_keeping e _

theorem sparing_delete (e : Editor α) : Sparing e e.delete := by
  unfold delete
  split_ifs
  · exact sparing_keeping e _
  · apply sparing_commitChange <;> rfl

theorem sparing_duplicate (e : Editor α) : Sparing e e.duplicate := by
  unfold duplicate
  split_ifs
  · exact sparing_keeping e _
  · apply sparing_commitChange <;> rfl

theorem sparing_reorder (e : Editor α) (id : ElementId) (how : Reorder) :
    Sparing e (e.reorder id how) := by
  apply sparing_commitChange <;> rfl

theorem sparing_nudge (e : Editor α) (offset : Point α) : Sparing e (e.nudge offset) := by
  apply sparing_commitChange <;> rfl

theorem sparing_moveToTargets (e : Editor α) (targets : List (ElementId × Point α)) :
    Sparing e (e.moveToTargets targets) := by
  unfold moveToTargets
  split_ifs
  · exact sparing_keeping e _
  · apply sparing_commitChange <;> rfl

/-! ### The list of effects -/

/-- What an operation may do to the elements, the history, the gesture and the store. -/
inductive Effect (e : Editor α) : Operation α → Reply α β → Prop
  /-- Nothing that concerns them. -/
  | view {op r} (role : op.role = .other) (elements : r.editor.elements = e.elements)
      (history : r.editor.history = e.history) (gesture : r.editor.gesture = e.gesture)
      (saves : r.saves = false) : Effect e op r
  /-- Nothing but that the session may be saved. -/
  | setting {op r} (role : op.role = .setting) (elements : r.editor.elements = e.elements)
      (history : r.editor.history = e.history) (gesture : r.editor.gesture = e.gesture) :
      Effect e op r
  /-- Other elements, with a snapshot if they are not the current one. -/
  | edit {op r} (role : op.role = .edit) (edited : Edited e r) : Effect e op r
  /-- The gesture given up, and perhaps a new one begun. -/
  | press {op r} (role : op.role ≠ .edit) (elements : r.editor.elements = e.base)
      (history : r.editor.history = e.history) (still : r.editor.gesture.hasMoved = false)
      (origin : ∀ els ∈ r.editor.gesture.origin?, els = e.base) (saves : r.saves = false) :
      Effect e op r
  /-- A frame of the gesture. -/
  | frame {op r} (role : op.role = .other) (framed : Framed e r.editor) (saves : r.saves = false) :
      Effect e op r
  /-- A gesture that has not moved ended. -/
  | click {op r} (role : op.role = .other) (still : e.gesture.hasMoved = false)
      (elements : r.editor.elements = e.elements) (history : r.editor.history = e.history)
      (idle : r.editor.gesture = .idle) (saves : r.saves = false) : Effect e op r
  /-- A snapshot made, and no gesture left: the end of a gesture that has moved, or a template. -/
  | commit {op r} (role : op.role = .other) (committed : Committed e r)
      (idle : r.editor.gesture = .idle) : Effect e op r
  /-- Another snapshot of the history taken up. -/
  | travel {op r} (role : op.role = .travel)
      (elements : r.editor.elements = r.editor.history.current)
      (history : e.history.undo? = some r.editor.history ∨ e.history.redo? = some r.editor.history)
      (idle : r.editor.gesture = .idle) (saves : r.saves = true) : Effect e op r
  /-- Another document with a history of its own. -/
  | replace {op r} (role : op.role = .travel)
      (history : r.editor.history = e.history.reset r.editor.elements)
      (idle : r.editor.gesture = .idle) (saves : r.saves = true) : Effect e op r

theorem Effect.map {op : Operation α} {r : Reply α β} (h : Effect e op r) (f : β → γ) :
    Effect e op (r.map f) := by
  cases h with
  | view role elements history gesture saves => exact .view role elements history gesture saves
  | setting role elements history gesture => exact .setting role elements history gesture
  | edit role edited => exact .edit role (edited.map f)
  | press role elements history still origin saves =>
    exact .press role elements history still origin saves
  | frame role framed saves => exact .frame role framed saves
  | click role still elements history idle saves =>
    exact .click role still elements history idle saves
  | commit role committed idle => exact .commit role (committed.map f) idle
  | travel role elements history idle saves => exact .travel role elements history idle saves
  | replace role history idle saves => exact .replace role history idle saves

/-- All that an edit can do. -/
theorem Effect.edited {op : Operation α} {r : Reply α β} (h : Effect e op r)
    (role : op.role = .edit) : Edited e r := by
  cases h
  case edit edited => exact edited
  all_goals simp_all

theorem Effect.cancelled {op : Operation α} {r : Reply α β} (role : op.role ≠ .edit)
    (heditor : r.editor = e.cancel) (hsaves : r.saves = false) : Effect e op r := by
  refine .press role ?_ ?_ ?_ ?_ hsaves
  · rw [heditor, elements_cancel]
  · rw [heditor, history_cancel]
  · rw [heditor, gesture_cancel]; rfl
  · exact Gesture.forall_origin?_idle (heditor ▸ gesture_cancel e)

/-- An operation that stays on its way through the history adds one snapshot, the elements that it
leaves, or none. -/
theorem Effect.history {op : Operation α} {r : Reply α β} (h : Effect e op r)
    (role : op.role ≠ .travel) :
    r.editor.history = e.history ∨ r.editor.history = e.history.commit r.editor.elements := by
  cases h with
  | edit _ edited => exact edited.outcome.imp Kept.history Committed.history
  | commit _ committed => exact Or.inr committed.history
  | travel htravel => exact absurd htravel role
  | replace htravel => exact absurd htravel role
  | frame _ framed => exact Or.inl framed.history
  | view _ _ history | setting _ _ history | press _ _ history | click _ _ _ history =>
    exact Or.inl history

/-- What is saved by such an operation, if it is no setting, is a snapshot that it has added. -/
theorem Effect.history_of_saves {op : Operation α} {r : Reply α β} (h : Effect e op r)
    (role : op.role = .edit ∨ op.role = .other) (hsaves : r.saves = true) :
    r.editor.history = e.history.commit r.editor.elements := by
  cases h with
  | edit _ edited =>
    rcases edited.outcome with kept | committed
    · rw [kept.saves] at hsaves
      cases hsaves
    · exact committed.history
  | commit _ committed => exact committed.history
  | setting hrole | travel hrole | replace hrole => simp [hrole] at role
  | view _ _ _ _ saves | press _ _ _ _ _ saves | frame _ _ saves | click _ _ _ _ _ saves =>
    rw [saves] at hsaves
    cases hsaves

theorem effect_pointerDown (e : Editor α) (target : PointerTarget) (pos : Point α)
    (modifiers : Modifiers) (value : β) :
    Effect e (.pointerDown target pos modifiers)
      ((e.pointerDown target pos modifiers).keeping value) := by
  have h := pressed_pointerDown e target pos modifiers
  exact .press nofun (h.elements.trans (elements_cancel e)) (h.history.trans (history_cancel e))
    h.still (fun els hels => (h.origin els hels).trans (elements_cancel e)) rfl

/-- The last frame decides whether the gesture was a click. -/
theorem effect_pointerUp (e : Editor α) (pos : Point α) (modifiers : Modifiers) :
    Effect e (.pointerUp pos modifiers) (e.pointerUp pos modifiers) := by
  have h := framed_pointerMove e pos modifiers
  unfold pointerUp
  cases hmoved : (e.pointerMove pos modifiers).gesture.hasMoved with
  | true =>
    rw [release_of_hasMoved hmoved]
    refine .commit rfl ?_ rfl
    apply committed_commit
    exact h.history
  | false =>
    obtain ⟨selection, hrelease⟩ := release_of_still hmoved
    rw [hrelease]
    exact .click rfl (h.still hmoved) (h.elements hmoved) h.history rfl rfl

theorem effect_undo (e : Editor α) : Effect e .undo e.undo := by
  cases hundo : e.history.undo? with
  | some history =>
    rw [undo_of_some hundo]
    exact .travel rfl rfl (Or.inl hundo) (gesture_cancel e) rfl
  | none =>
    rw [undo_of_none hundo]
    exact .cancelled nofun rfl rfl

theorem effect_redo (e : Editor α) : Effect e .redo e.redo := by
  cases hredo : e.history.redo? with
  | some history =>
    rw [redo_of_some hredo]
    exact .travel rfl rfl (Or.inr hredo) (gesture_cancel e) rfl
  | none =>
    rw [redo_of_none hredo]
    exact .cancelled nofun rfl rfl

theorem effect_setLabelSize (e : Editor α) (op : Operation α) (role : op.role = .setting)
    (size : LabelSize α) : Effect e op (e.setLabelSize size) := by
  unfold setLabelSize Document.setLabelSize?
  split_ifs <;> exact .setting role rfl rfl rfl

theorem effect_applyPreset (e : Editor α) (name : String) :
    Effect e (.applyPreset name) (e.applyPreset name) := by
  unfold applyPreset
  split
  · exact (effect_setLabelSize e _ rfl _).map _
  · exact .setting rfl rfl rfl rfl

theorem effect_removeVariable (e : Editor α) (key : String) :
    Effect e (.removeVariable key) (e.removeVariable key) := by
  unfold removeVariable
  split_ifs <;> exact .setting rfl rfl rfl rfl

theorem effect_setZoom (e : Editor α) (zoom : α) (value : β) :
    Effect e (.setZoom zoom) ((e.setZoom zoom).keeping value) := by
  unfold setZoom
  split_ifs <;> exact .view rfl rfl rfl rfl rfl

variable [NumberText α]

theorem effect_importTemplate (e : Editor α) (text : String) :
    Effect e (.importTemplate text) (e.importTemplate text) := by
  unfold importTemplate
  split
  · exact .view rfl rfl rfl rfl rfl
  · refine .commit rfl ?_ rfl
    apply committed_commit
    rfl

/-- Every edit but adding spares the history a snapshot of what is current. -/
theorem sparing_perform (e : Editor α) (op : Operation α) (role : op.role = .edit)
    (hadd : ∀ kind patch, op ≠ .add kind patch) : Sparing e (e.perform op) := by
  cases op with
  | add kind patch => exact absurd rfl (hadd kind patch)
  | update id patch => exact (sparing_update e id patch).map _
  | delete => exact (sparing_delete e).map fun _ => Outcome.done
  | duplicate => exact (sparing_duplicate e).map _
  | reorder id how => exact (sparing_reorder e id how).map fun _ => Outcome.done
  | nudge offset => exact (sparing_nudge e offset).map fun _ => Outcome.done
  | align alignment => exact (sparing_moveToTargets e _).map fun _ => Outcome.done
  | distribute distribution => exact (sparing_moveToTargets e _).map fun _ => Outcome.done
  | _ => cases role

theorem effect_edit (e : Editor α) {op : Operation α} (role : op.role = .edit) :
    Effect e op (e.perform op) := by
  refine .edit role ?_
  by_cases hadd : ∃ kind patch, op = .add kind patch
  · obtain ⟨kind, patch, rfl⟩ := hadd
    exact (edited_add e kind patch).map _
  · refine (sparing_perform e op role ?_).toEdited
    rintro kind patch rfl
    exact hadd ⟨kind, patch, rfl⟩

/-- **Every operation has one of the effects.** -/
theorem perform_effect (e : Editor α) (op : Operation α) : Effect e op (e.perform op) := by
  cases op with
  | pointerDown target pos modifiers => exact effect_pointerDown e target pos modifiers _
  | pointerMove pos modifiers => exact .frame rfl (framed_pointerMove e pos modifiers) rfl
  | pointerUp pos modifiers => exact (effect_pointerUp e pos modifiers).map fun _ => Outcome.done
  | cancel => exact .cancelled nofun rfl rfl
  | select id => exact .view rfl rfl rfl rfl rfl
  | selectAll => exact .view rfl rfl rfl rfl rfl
  | clearSelection => exact .view rfl rfl rfl rfl rfl
  | add | update | delete | duplicate | reorder | nudge | align | distribute =>
    exact effect_edit e rfl
  | undo => exact (effect_undo e).map Outcome.flag
  | redo => exact (effect_redo e).map Outcome.flag
  | setLabelSize size => exact (effect_setLabelSize e _ rfl size).map Outcome.flag
  | applyPreset name => exact (effect_applyPreset e name).map Outcome.ofExcept
  | reset => exact .replace rfl rfl rfl rfl
  | restore session => exact .replace rfl rfl rfl rfl
  | importTemplate text => exact (effect_importTemplate e text).map Outcome.ofExcept
  | setVariable key value => exact .setting rfl rfl rfl rfl
  | removeVariable key => exact (effect_removeVariable e key).map Outcome.flag
  | setLanguage language => exact .setting rfl rfl rfl rfl
  | setGrid size => exact .setting rfl rfl rfl rfl
  | measure id size => exact .view rfl rfl rfl rfl rfl
  | setZoom zoom => exact effect_setZoom e zoom _

end Editor

end ThermalLabel

import ThermalLabel.Proofs.Editor.Runs
import ThermalLabel.Proofs.History.Stacks

/-! # Sequences that an editor holds

An editor holds its elements three times over: in the document, in the snapshots of the history, and
in what a drag or a resize keeps. Whatever sequence an operation leaves in the history or in the
gesture was there before, or it is the one that the operation leaves in the document. So a property
of sequences that every operation gives to the document holds everywhere along a run. -/

namespace ThermalLabel.Editor

variable {α : Type} {P : List (Element α) → Prop} {e : Editor α}

/-- A property of the elements, of every snapshot, and of what the gesture keeps. -/
structure Everywhere (P : List (Element α) → Prop) (e : Editor α) : Prop where
  elements : P e.elements
  snapshots : ∀ els ∈ e.history.snapshots.toList, P els
  origin : ∀ els ∈ e.gesture.origin?, P els

theorem Everywhere.current (h : Everywhere P e) : P e.history.current :=
  h.snapshots _ (List.mem_of_getElem? e.history.getElem?_cursor)

theorem Everywhere.base (h : Everywhere P e) : P e.base := by
  unfold Editor.base
  cases horigin : e.gesture.origin? with
  | none => exact h.elements
  | some els => exact h.origin els horigin

/-- At rest with a new history, there is one sequence only. -/
theorem everywhere_of_reset {e' : Editor α} (helements : P e'.elements)
    (hhistory : e'.history = e.history.reset e'.elements) (hidle : e'.gesture = .idle) :
    Everywhere P e' := by
  refine ⟨helements, fun els hels => ?_, Gesture.forall_origin?_idle hidle⟩
  rw [hhistory] at hels
  exact List.mem_singleton.mp hels ▸ helements

/-- A snapshot of the elements brings no other sequence into the history. -/
theorem Everywhere.of_committed {β : Type} {r : Reply α β} (h : Everywhere P e)
    (hr : Committed e r) (helements : P r.editor.elements) :
    ∀ els ∈ r.editor.history.snapshots.toList, P els := by
  intro els hels
  rw [hr.history] at hels
  rcases History.mem_commit hels with hels | rfl
  · exact h.snapshots els hels
  · exact helements

/-- Any snapshot that undo or redo leads to has the property. -/
theorem Everywhere.current_of_snapshots (h : Everywhere P e) {history : History (List (Element α))}
    (hsnapshots : history.snapshots = e.history.snapshots) : P history.current :=
  h.snapshots _ (hsnapshots ▸ List.mem_of_getElem? history.getElem?_cursor)

theorem Everywhere.undo (h : Everywhere P e) : P e.undo.editor.elements := by
  cases hundo : e.history.undo? with
  | some history =>
    rw [undo_of_some hundo]
    exact h.current_of_snapshots (History.undo?_spec hundo).1
  | none =>
    rw [undo_of_none hundo]
    exact (elements_cancel e).symm ▸ h.base

theorem Everywhere.redo (h : Everywhere P e) : P e.redo.editor.elements := by
  cases hredo : e.history.redo? with
  | some history =>
    rw [redo_of_some hredo]
    exact h.current_of_snapshots (History.redo?_spec hredo).1
  | none =>
    rw [redo_of_none hredo]
    exact (elements_cancel e).symm ▸ h.base

variable [Scalar α] [NumberText α]

/-- A setting leaves a sequence that was there before. -/
theorem Everywhere.setting (h : Everywhere P e) {op : Operation α} (role : op.role = .setting) :
    P (e.perform op).editor.elements := by
  cases perform_effect e op with
  | setting _ elements => exact elements.symm ▸ h.elements
  | press _ elements => exact elements.symm ▸ h.base
  | view hrole | edit hrole | frame hrole | click hrole | commit hrole | travel hrole
  | replace hrole =>
    rw [role] at hrole
    cases hrole

/-- **What an operation gives to the elements, it gives to all that the editor holds.** -/
theorem Everywhere.perform {op : Operation α} (h : Everywhere P e)
    (helements : P (e.perform op).editor.elements) : Everywhere P (e.perform op).editor := by
  cases perform_effect e op with
  | view role elements history gesture saves =>
    exact ⟨helements, by rw [history]; exact h.snapshots, by rw [gesture]; exact h.origin⟩
  | setting role elements history gesture =>
    exact ⟨helements, by rw [history]; exact h.snapshots, by rw [gesture]; exact h.origin⟩
  | edit role edited =>
    refine ⟨helements, ?_, by rw [edited.gesture]; exact h.origin⟩
    rcases edited.outcome with kept | committed
    · rw [kept.history]
      exact h.snapshots
    · exact h.of_committed committed helements
  | press role elements history still origin saves =>
    refine ⟨helements, by rw [history]; exact h.snapshots, fun els hels => ?_⟩
    rw [origin els hels]
    exact h.base
  | frame role framed saves =>
    refine ⟨helements, ?_, ?_⟩
    · rw [framed.history]
      exact h.snapshots
    · rw [framed.origin]
      exact h.origin
  | click role still elements history idle saves =>
    exact ⟨helements, by rw [history]; exact h.snapshots, Gesture.forall_origin?_idle idle⟩
  | commit role committed idle =>
    exact ⟨helements, h.of_committed committed helements, Gesture.forall_origin?_idle idle⟩
  | travel role elements history idle saves =>
    have hsnapshots : (e.perform op).editor.history.snapshots = e.history.snapshots := by
      rcases history with hundo | hredo
      · exact (History.undo?_spec hundo).1
      · exact (History.redo?_spec hredo).1
    exact ⟨helements, by rw [hsnapshots]; exact h.snapshots, Gesture.forall_origin?_idle idle⟩
  | replace role history idle saves => exact everywhere_of_reset helements history idle

end ThermalLabel.Editor

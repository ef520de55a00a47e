import ThermalLabel.Proofs.Editor.Abandoned
import ThermalLabel.Proofs.Editor.Selected
import ThermalLabel.Proofs.History.Stacks

/-! # Refused operations

An operation fails when what it needs is not there: an element, a snapshot to go to, a label with an
area, a stock size, a template, a variable. `Refusal` lists these cases with what the operator is
told, and it lists all of them.

What fails leaves no trace, in the workspace or in its store. Undo and redo give the gesture in
progress up before they look for a snapshot, so they leave what cancelling it leaves
(`refused_without_trace`).

What holds of one operation holds of a row of them, which is a result of its own: an operator who
knew beforehand what fails could have left it out. The row without its failures (`taken`) leads to
the same workspace (`performAll_taken`). -/

namespace ThermalLabel

variable {α : Type}

/-- Whether an outcome tells of a failure. -/
def Outcome.isFailure : Outcome → Bool
  | .flag holds => !holds
  | .failed _ => true
  | _ => false

/-- Whether an operation goes to another snapshot of the history. -/
def Operation.travels : Operation α → Bool
  | .undo | .redo => true
  | _ => false

theorem Document.contains_iff_mem_ids (d : Document α) (id : ElementId) :
    d.contains id = true ↔ id ∈ d.ids := by
  refine ⟨mem_ids_of_contains, fun hid => ?_⟩
  obtain ⟨el, hel, rfl⟩ := List.mem_map.mp hid
  exact List.find?_isSome.mpr ⟨el, hel, beq_self_eq_true el.id⟩

namespace Editor

variable {β : Type} [Scalar α] {e : Editor α}

@[simp]
theorem value_commitChange (e : Editor α) (value : β) : (e.commitChange value).value = value := by
  unfold commitChange
  split_ifs <;> rfl

/-- The editor that an operation leaves if it fails. -/
def leftBy (e : Editor α) (op : Operation α) : Editor α := if op.travels then e.cancel else e

variable [NumberText α]

/-- What an operation needs is not there, and what the operator is told. -/
inductive Refusal (e : Editor α) : Operation α → Outcome → Prop
  | unknownElement {id patch} (h : id ∉ e.document.ids) : Refusal e (.update id patch) (.flag false)
  | nothingToUndo (h : e.history.past = []) : Refusal e .undo (.flag false)
  | nothingToRedo (h : e.history.future = []) : Refusal e .redo (.flag false)
  | emptyLabel {size} (h : size.isValid = false) : Refusal e (.setLabelSize size) (.flag false)
  | unknownStock {name} (h : (LabelSize.preset? name : Option (LabelSize α)) = none) :
      Refusal e (.applyPreset name) (.failed (.invalidArgument (.unknownPreset name)))
  | noTemplate {text error} (h : (Template.parse text : Except Error (Template α)) = .error error) :
      Refusal e (.importTemplate text) (.failed error)
  | unknownVariable {key} (h : key ∉ e.settings.custom.keys) :
      Refusal e (.removeVariable key) (.flag false)

/-! ### Nothing is left behind -/

theorem Refusal.perform_eq {op : Operation α} {outcome : Outcome} (h : Refusal e op outcome) :
    e.perform op = (e.leftBy op).keeping outcome := by
  cases h with
  | @unknownElement id patch hid =>
    have hmissing : ¬ e.document.contains id = true := by
      rwa [Document.contains_iff_mem_ids]
    simp only [perform, update, if_neg hmissing]
    rfl
  | nothingToUndo hpast =>
    rw [perform, undo_of_none (History.undo?_eq_none_iff.mpr hpast)]
    rfl
  | nothingToRedo hfuture =>
    rw [perform, redo_of_none (History.redo?_eq_none_iff.mpr hfuture)]
    rfl
  | @emptyLabel size hsize =>
    simp only [perform, setLabelSize, Document.setLabelSize?, hsize]
    rfl
  | unknownStock hname =>
    simp only [perform, applyPreset, hname]
    rfl
  | noTemplate hparse =>
    simp only [perform, importTemplate, hparse]
    rfl
  | @unknownVariable key hkey =>
    have hunset : ¬ e.settings.custom.contains key = true := by
      rwa [StringMap.contains_iff_mem_keys]
    simp only [perform, removeVariable, if_neg hunset]
    rfl

omit [NumberText α] in
theorem not_mem_ids_of_update_fails {id : ElementId} {patch : Patch α}
    (h : (e.update id patch).value = false) : id ∉ e.document.ids := by
  intro hid
  rw [update, if_pos ((e.document.contains_iff_mem_ids id).mpr hid), value_commitChange] at h
  cases h

/-- **Nothing else fails.** -/
theorem refusal_of_isFailure {op : Operation α} (h : (e.perform op).value.isFailure = true) :
    Refusal e op (e.perform op).value := by
  cases op with
  | update id patch =>
    have hvalue : (e.update id patch).value = false := by
      simpa [perform, Reply.map, Outcome.isFailure] using h
    simp only [perform, Reply.map, hvalue]
    exact .unknownElement (not_mem_ids_of_update_fails hvalue)
  | undo =>
    cases hundo : e.history.undo? with
    | none =>
      simp only [perform, undo_of_none hundo]
      exact .nothingToUndo (History.undo?_eq_none_iff.mp hundo)
    | some history =>
      simp only [perform, undo_of_some hundo] at h
      cases h
  | redo =>
    cases hredo : e.history.redo? with
    | none =>
      simp only [perform, redo_of_none hredo]
      exact .nothingToRedo (History.redo?_eq_none_iff.mp hredo)
    | some history =>
      simp only [perform, redo_of_some hredo] at h
      cases h
  | setLabelSize size =>
    cases hsize : size.isValid with
    | false =>
      simp only [perform, setLabelSize, Document.setLabelSize?, hsize]
      exact .emptyLabel hsize
    | true =>
      simp only [perform, setLabelSize, Document.setLabelSize?, hsize] at h
      cases h
  | applyPreset name =>
    cases hname : (LabelSize.preset? name : Option (LabelSize α)) with
    | none =>
      simp only [perform, applyPreset, hname]
      exact .unknownStock hname
    | some size =>
      simp only [perform, applyPreset, hname] at h
      cases h
  | importTemplate text =>
    cases hparse : (Template.parse text : Except Error (Template α)) with
    | error error =>
      simp only [perform, importTemplate, hparse]
      exact .noTemplate hparse
    | ok template =>
      simp only [perform, importTemplate, hparse] at h
      cases h
  | removeVariable key =>
    cases hkey : e.settings.custom.contains key with
    | false =>
      simp only [perform, removeVariable, hkey]
      refine .unknownVariable fun hmem => ?_
      rw [← StringMap.contains_iff_mem_keys, hkey] at hmem
      cases hmem
    | true =>
      simp only [perform, removeVariable, hkey] at h
      cases h
  | _ => cases h

theorem Refusal.isFailure {op : Operation α} {outcome : Outcome} (h : Refusal e op outcome) :
    outcome.isFailure = true := by
  cases h <;> rfl

theorem isFailure_iff_refusal {op : Operation α} {outcome : Outcome} :
    (e.perform op).value = outcome ∧ outcome.isFailure = true ↔ Refusal e op outcome := by
  constructor
  · rintro ⟨rfl, hfails⟩
    exact refusal_of_isFailure hfails
  · intro h
    refine ⟨?_, h.isFailure⟩
    rw [h.perform_eq]
    rfl

end Editor

namespace Workspace

open Editor

variable [Scalar α] [NumberText α] {w : Workspace α} {op : Operation α}

theorem perform_of_isFailure (h : (w.perform op).2.isFailure = true) :
    (w.perform op).1 = { w with editor := w.editor.leftBy op } := by
  have hperform := (refusal_of_isFailure h).perform_eq
  have hsaves : (w.editor.perform op).saves = false := by rw [hperform]; rfl
  rw [perform_of_not_saves hsaves, hperform]
  rfl

/-- **What fails leaves no trace.** An operation fails exactly when what it needs is not there, and
it tells the operator so. Then the workspace is what it was, with every part of its editor, its
store and what the writer is to write; after an undo or a redo it is what it is when only the
gesture is cancelled, and that leaves store and writer alone. -/
theorem refused_without_trace (w : Workspace α) (op : Operation α) :
    (∀ outcome, (w.perform op).2 = outcome ∧ outcome.isFailure = true ↔
      w.editor.Refusal op outcome) ∧
    ((w.perform op).2.isFailure = true → op.travels = false → (w.perform op).1 = w) ∧
    ((w.perform op).2.isFailure = true → op.travels = true →
      (w.perform op).1 = (w.perform .cancel).1 ∧
      (w.perform .cancel).1 = { w with editor := w.editor.cancel }) := by
  have hcancel : (w.perform .cancel).1 = { w with editor := w.editor.cancel } :=
    perform_of_not_saves rfl
  refine ⟨fun outcome => isFailure_iff_refusal, fun hfails htravels => ?_,
    fun hfails htravels => ⟨?_, hcancel⟩⟩
  · rw [perform_of_isFailure hfails, leftBy, htravels]
    rfl
  · rw [perform_of_isFailure hfails, hcancel, leftBy, htravels]
    rfl

/-- A box under the pointer, and nothing to undo. -/
def dragged : Workspace Rat :=
  oneBox.performAll [.pointerDown (.element "a") ⟨0, 0⟩ ⟨false, false⟩,
    .pointerMove ⟨40, 0⟩ ⟨false, false⟩]

/-- In the middle of a drag a text that is no template is refused, and so is an undo, which gives
the drag up. -/
theorem refused_while_dragging :
    (dragged.perform (.importTemplate "[]")).1 = dragged ∧
    (dragged.perform .undo).1 = { dragged with editor := dragged.editor.cancel } ∧
    dragged.editor.gesture.hasMoved = true := by
  obtain ⟨-, htemplate, -⟩ := refused_without_trace dragged (.importTemplate "[]")
  obtain ⟨-, -, hundo⟩ := refused_without_trace dragged .undo
  obtain ⟨hsame, hcancel⟩ := hundo (by decide +kernel) rfl
  exact ⟨htemplate (by decide +kernel) rfl, hsame.trans hcancel, by decide +kernel⟩

/-! ### Runs without their failures -/

/-- A row of operations without those that fail. In place of an undo or a redo that fails the
gesture is cancelled. -/
def taken : Workspace α → List (Operation α) → List (Operation α)
  | _, [] => []
  | w, op :: ops =>
    if (w.perform op).2.isFailure then
      if op.travels then .cancel :: (w.perform .cancel).1.taken ops else w.taken ops
    else op :: (w.perform op).1.taken ops

/-- A run leads where it leads without its failures. -/
theorem performAll_taken (w : Workspace α) (ops : List (Operation α)) :
    w.performAll (w.taken ops) = w.performAll ops := by
  induction ops generalizing w with
  | nil => rfl
  | cons op ops ih =>
    have hrun : w.performAll (op :: ops) = (w.perform op).1.performAll ops := rfl
    rw [hrun, taken]
    split_ifs with hfails htravels
    · have hcancel : (w.perform .cancel).1 = (w.perform op).1 := by
        rw [perform_of_isFailure hfails, leftBy, if_pos htravels]
        exact perform_of_not_saves rfl
      rw [← hcancel]
      exact ih _
    · have hstay : (w.perform op).1 = w := by
        rw [perform_of_isFailure hfails, leftBy, if_neg htravels]
      rw [hstay]
      exact ih w
    · exact ih _

end Workspace

end ThermalLabel

import Mathlib.Data.List.Induction
import ThermalLabel.Proofs.Editor.Effects
import ThermalLabel.Proofs.History.Timeline

/-! # Runs of an editor

A run is a row of operations, performed one after another. What every operation keeps under a
condition is kept by every run that meets the condition throughout. -/

namespace ThermalLabel.Editor

variable {α : Type} [Scalar α] [NumberText α]

/-- The editor after a row of operations. -/
def after (e : Editor α) (ops : List (Operation α)) : Editor α :=
  ops.foldl (fun e op => (e.perform op).editor) e

@[simp]
theorem after_nil (e : Editor α) : e.after [] = e := rfl

@[simp]
theorem after_cons (e : Editor α) (op : Operation α) (ops : List (Operation α)) :
    e.after (op :: ops) = (e.perform op).editor.after ops := rfl

theorem after_append (e : Editor α) (ops more : List (Operation α)) :
    e.after (ops ++ more) = (e.after ops).after more := List.foldl_append

theorem after_concat (e : Editor α) (ops : List (Operation α)) (op : Operation α) :
    e.after (ops ++ [op]) = ((e.after ops).perform op).editor := after_append e ops [op]

/-- Moves of the pointer, each with the keys held. -/
def frames (moves : List (Point α × Modifiers)) : List (Operation α) :=
  moves.map fun (pos, modifiers) => .pointerMove pos modifiers

/-- The replies to a row of operations. -/
def replies : Editor α → List (Operation α) → List (Reply α Outcome)
  | _, [] => []
  | e, op :: ops => e.perform op :: (e.perform op).editor.replies ops

theorem replies_append (e : Editor α) (ops more : List (Operation α)) :
    e.replies (ops ++ more) = e.replies ops ++ (e.after ops).replies more := by
  induction ops generalizing e with
  | nil => rfl
  | cons op ops ih =>
    rw [List.cons_append, replies, ih, replies, after_cons, List.cons_append]

/-- Every operation of a row meets a condition on itself and the editor that it is performed on. -/
def Throughout (p : Editor α → Operation α → Prop) : Editor α → List (Operation α) → Prop
  | _, [] => True
  | e, op :: ops => p e op ∧ Throughout p (e.perform op).editor ops

variable {p q : Editor α → Operation α → Prop}

instance decidableThroughout [∀ e op, Decidable (p e op)] (e : Editor α) :
    (ops : List (Operation α)) → Decidable (Throughout p e ops)
  | [] => .isTrue trivial
  | op :: ops =>
    have := decidableThroughout (e.perform op).editor ops
    inferInstanceAs (Decidable (p e op ∧ Throughout p (e.perform op).editor ops))

theorem throughout_congr (h : ∀ e op, p e op ↔ q e op) {e : Editor α}
    {ops : List (Operation α)} : Throughout p e ops ↔ Throughout q e ops := by
  induction ops generalizing e with
  | nil => exact Iff.rfl
  | cons op ops ih => exact and_congr (h e op) ih

theorem throughout_append {e : Editor α} {ops more : List (Operation α)} :
    Throughout p e (ops ++ more) ↔ Throughout p e ops ∧ Throughout p (e.after ops) more := by
  induction ops generalizing e with
  | nil => simp [Throughout]
  | cons op ops ih => simp only [List.cons_append, Throughout, after_cons, ih, and_assoc]

/-- The condition is met at the end of every row that is a beginning of the row. -/
theorem throughout_iff_prefix {e : Editor α} {ops : List (Operation α)} :
    Throughout p e ops ↔ ∀ run op, run ++ [op] <+: ops → p (e.after run) op := by
  constructor
  · rintro h run op ⟨more, rfl⟩
    rw [List.append_assoc, throughout_append] at h
    exact h.2.1
  · intro h
    induction ops generalizing e with
    | nil => trivial
    | cons op ops ih =>
      refine ⟨h [] op ⟨ops, rfl⟩, ih fun run op' hrun => ?_⟩
      exact h (op :: run) op' (List.cons_prefix_cons.mpr ⟨rfl, hrun⟩)

/-- A condition on the operations alone. -/
theorem throughout_of_forall {c : Operation α → Prop} {e : Editor α} {ops : List (Operation α)}
    (h : ∀ op ∈ ops, c op) : Throughout (fun _ op => c op) e ops :=
  throughout_iff_prefix.mpr fun run op hrun =>
    h op (hrun.subset (List.mem_append_right run List.mem_cons_self))

/-- **What every operation keeps, a run keeps.** -/
theorem invariant_after {I : Editor α → Prop}
    (hstep : ∀ {e op}, I e → p e op → I (e.perform op).editor) {e : Editor α}
    {ops : List (Operation α)} (he : I e) (hops : Throughout p e ops) : I (e.after ops) := by
  induction ops generalizing e with
  | nil => exact he
  | cons op ops ih => exact ih (hstep he hops.1) hops.2

/-- What every operation keeps may be used all along a run. -/
theorem throughout_of_invariant {I : Editor α → Prop}
    (hstep : ∀ {e op}, I e → p e op → I (e.perform op).editor)
    (hpq : ∀ {e op}, I e → p e op → q e op) {e : Editor α} {ops : List (Operation α)} (he : I e)
    (hops : Throughout p e ops) : Throughout q e ops := by
  induction ops generalizing e with
  | nil => trivial
  | cons op ops ih => exact ⟨hpq he hops.1, ih (hstep he hops.1) hops.2⟩

/-- An editor that has been opened and used. -/
def Reachable (e : Editor α) : Prop := ∃ stored supply ops, e = (openStored stored supply).after ops

/-- To the history an operation is one request, or none. -/
theorem history_perform (e : Editor α) (op : Operation α) :
    (e.perform op).editor.history = e.history ∨
      ∃ request, (e.perform op).editor.history = (e.history.serve request).1 := by
  cases perform_effect e op with
  | edit role edited =>
    rcases edited.outcome with kept | committed
    · exact Or.inl kept.history
    · exact Or.inr ⟨.commit _, committed.history⟩
  | commit role committed idle => exact Or.inr ⟨.commit _, committed.history⟩
  | travel role elements history idle saves =>
    rcases history with hundo | hredo
    · exact Or.inr ⟨.undo, by rw [History.serve_undo hundo]⟩
    · exact Or.inr ⟨.redo, by rw [History.serve_redo hredo]⟩
  | replace role history idle saves => exact Or.inr ⟨.reset _, history⟩
  | frame role framed saves => exact Or.inl framed.history
  | view _ _ history | setting _ _ history | press _ _ history | click _ _ _ history =>
    exact Or.inl history

/-- What a new history has, and no request takes away, the history of every editor has. -/
theorem Reachable.history {I : History (List (Element α)) → Prop} {e : Editor α} (h : Reachable e)
    (hnew : ∀ els, I (History.of els))
    (hserve : ∀ (history : History (List (Element α))) request,
      I history → I (history.serve request).1) : I e.history := by
  obtain ⟨stored, supply, ops, rfl⟩ := h
  induction ops using List.reverseRecOn with
  | nil => rcases stored with error | (_ | session) <;> exact hserve _ (.reset _) (hnew [])
  | append_singleton ops op ih =>
    rw [after_concat]
    rcases history_perform ((openStored stored supply).after ops) op with hsame | ⟨request, hone⟩
    · rwa [hsame]
    · rw [hone]
      exact hserve _ request ih

/-- Every editor keeps the same number of snapshots. -/
theorem Reachable.capacity {e : Editor α} (h : Reachable e) :
    e.history.capacity = History.standardCapacity :=
  h.history (I := fun history => history.capacity = History.standardCapacity) (fun _ => rfl)
    fun history request hI => (history.capacity_serve request).trans hI

theorem Reachable.fits {e : Editor α} (h : Reachable e) : e.history.Fits :=
  h.history (fun _ => History.fits_withCapacity _ _)
    fun _ request hI => History.fits_serve hI request

end ThermalLabel.Editor

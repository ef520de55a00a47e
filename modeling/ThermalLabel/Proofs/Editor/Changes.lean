import ThermalLabel.Proofs.Editor.Drift
import ThermalLabel.Proofs.Editor.Strokes
import ThermalLabel.Proofs.Element.Equality

/-! # One snapshot for each change

At rest, whatever is done to the elements in one go adds at most one snapshot to the history, and
just one if it changes them (`one_snapshot_per_change`). What leaves the elements as they were adds
none, so that there is still something to redo: this holds of every edit, and of a stroke that does
not move. A stroke that moves makes its snapshot also when it leads back to where it began
(`history_of_no_op`).

The test on numbers is assumed to be symmetric and transitive. It need not be reflexive. -/

namespace ThermalLabel

/-- A history with one more snapshot, which is current. There is nothing to redo. Of the snapshots
up to the one that was current all are kept, but for the oldest one if there are too many. -/
structure History.Adds {β : Type} (h : History β) (snapshot : β) (h' : History β) : Prop where
  current : h'.current = snapshot
  future : h'.future = []
  past : ∃ lost, h.current :: h.past = h'.past ++ lost ∧
    lost.length = if h.past.length + 2 ≤ standardCapacity then 0 else 1

theorem History.adds_commit {β : Type} {h : History β} (hfits : h.Fits)
    (hcapacity : h.capacity = standardCapacity) (snapshot : β) :
    h.Adds snapshot (h.commit snapshot) := by
  have hpast := past_commit_of_fits hfits snapshot
  have hlt := hfits.cursor_lt
  rw [← h.length_past, hcapacity] at hlt
  rw [hcapacity] at hpast
  refine ⟨current_commit h snapshot, future_commit h snapshot,
    (h.current :: h.past).drop (standardCapacity - 1), ?_, ?_⟩
  · rw [hpast, List.take_append_drop]
  · rw [List.length_drop, List.length_cons]
    split_ifs <;> omega

namespace Editor

variable {α : Type} [Scalar α]

section
variable [PartialEquivBEq α] {els els' els'' : List (Element α)}

theorem Same.beq_of_beq (h : Same els els') (h' : (els' == els'') = true) :
    (els == els'') = true := by
  rcases h with rfl | htest
  · exact h'
  · exact PartialEquivBEq.trans htest h'

theorem Same.of_beq (h : Same els els') (h' : (els'' == els') = true) : Same els'' els := by
  rcases h with rfl | htest
  · exact Or.inr h'
  · exact Or.inr (PartialEquivBEq.trans h' (PartialEquivBEq.symm htest))

end

variable [NumberText α] {e : Editor α}

/-- What is done to the elements in one go: an edit, a template, or a gesture from press to release.
-/
inductive Change : List (Operation α) → Prop
  | edit {op} (role : op.role = .edit) : Change [op]
  | template (text : String) : Change [.importTemplate text]
  | stroke (s : Stroke α) : Change s.ops

/-- A change makes no snapshot only if the elements are as they were, or the current snapshot. -/
theorem Change.outcome {ops : List (Operation α)} (h : Change ops) (hidle : e.gesture = .idle) :
    ((e.after ops).history = e.history ∧
        ((e.after ops).elements = e.elements ∨
          ((e.after ops).elements == e.history.current) = true)) ∨
      (e.after ops).history = e.history.commit (e.after ops).elements := by
  cases h with
  | edit role =>
    rcases ((perform_effect e _).edited role).outcome with kept | committed
    · exact Or.inl ⟨kept.history, kept.elements⟩
    · exact Or.inr committed.history
  | template text =>
    have himport : e.after [.importTemplate text] = (e.importTemplate text).editor := rfl
    rw [himport]
    unfold importTemplate
    split
    · exact Or.inl ⟨rfl, Or.inl rfl⟩
    · exact Or.inr rfl
  | stroke s =>
    obtain ⟨-, hmoved, hstill⟩ := s.after_ops_of_idle hidle
    by_cases hmoves : s.Moves e
    · exact Or.inr (hmoved hmoves)
    · obtain ⟨helements, hhistory⟩ := hstill hmoves
      exact Or.inl ⟨hhistory, Or.inl helements⟩

variable [PartialEquivBEq α]

/-- **A change adds one snapshot at most, and just one if it makes the elements others.** -/
theorem one_snapshot_per_change {ops : List (Operation α)} (hreach : Reachable e)
    (hidle : e.gesture.isIdle = true) (hsame : Same e.elements e.history.current)
    (hops : Change ops) :
    ((e.after ops).history = e.history ∨
        e.history.Adds (e.after ops).elements (e.after ops).history) ∧
      (¬ Same (e.after ops).elements e.elements →
        e.history.Adds (e.after ops).elements (e.after ops).history) := by
  have hadds := History.adds_commit hreach.fits hreach.capacity (e.after ops).elements
  rcases hops.outcome (Gesture.eq_idle_of_isIdle hidle) with ⟨hhistory, hkept⟩ | hcommit
  · refine ⟨Or.inl hhistory, fun hdiff => absurd ?_ hdiff⟩
    rcases hkept with helements | htest
    · exact Or.inl helements
    · exact hsame.of_beq htest
  · rw [← hcommit] at hadds
    exact ⟨Or.inr hadds, fun _ => hadds⟩

/-- An editor with one box, and another one to be had again by redo. -/
def undone : Editor Rat := (openStored (.ok (some oneBox)) (.numbered 0)).after [
  .add .box .empty, .undo]

/-- A drag of the box by ten millimetres. -/
def dragAcross : Stroke Rat where
  target := .element "a"
  start := ⟨0, 0⟩
  pressed := ⟨false, false⟩
  moves := []
  finish := ⟨40, 0⟩
  released := ⟨false, false⟩

/-- The drag is the only thing to undo, and the box from before is gone for redo. -/
theorem one_snapshot_of_drag :
    undone.history.canRedo = true ∧
      undone.history.Adds (undone.after dragAcross.ops).elements
        (undone.after dragAcross.ops).history := by
  have hcurrent : Same undone.elements undone.history.current := Or.inr (by decide +kernel)
  have hdiff : ¬ Same (undone.after dragAcross.ops).elements undone.elements := by
    rintro (heq | htest)
    · have hplace := congrArg (List.map Element.x) heq
      revert hplace
      decide +kernel
    · revert htest
      decide +kernel
  exact ⟨by decide +kernel, (one_snapshot_per_change ⟨_, _, _, rfl⟩ (by decide +kernel) hcurrent
    (.stroke dragAcross)).2 hdiff⟩

theorem history_of_edit {op : Operation α} (role : op.role = .edit)
    (hcurrent : (e.elements == e.history.current) = true)
    (hback : Same (e.perform op).editor.elements e.elements) :
    (e.perform op).editor.history = e.history := by
  by_cases hadd : ∃ kind patch, op = .add kind patch
  · -- there is one element more than before
    obtain ⟨kind, patch, rfl⟩ := hadd
    have hlength := hback.length_eq
    have hmore : (e.perform (.add kind patch)).editor.elements.length = e.elements.length + 1 :=
      List.length_append
    omega
  · have hspares := sparing_perform e op role fun kind patch h => hadd ⟨kind, patch, h⟩
    rcases hspares.outcome with kept | committed
    · exact kept.history
    · -- an edit that saves has found other elements than the current ones
      have htest := hback.beq_of_beq hcurrent
      rw [hspares.changed committed.saves] at htest
      cases htest

/-- **What changes nothing leaves the history alone**, be it an edit after which the elements are as
before, or a stroke that does not move. A stroke that moves always makes a snapshot. -/
theorem history_of_no_op (hidle : e.gesture.isIdle = true)
    (hcurrent : (e.elements == e.history.current) = true) :
    (∀ op : Operation α, op.role = .edit → Same (e.perform op).editor.elements e.elements →
      (e.perform op).editor.history = e.history) ∧
    ∀ s : Stroke α,
      (¬ s.Moves e → (e.after s.ops).elements = e.elements ∧ (e.after s.ops).history = e.history) ∧
      (s.Moves e → (e.after s.ops).history = e.history.commit (e.after s.ops).elements) := by
  refine ⟨fun op role hback => history_of_edit role hcurrent hback, fun s => ?_⟩
  obtain ⟨-, hmoved, hstill⟩ := s.after_ops_of_idle (Gesture.eq_idle_of_isIdle hidle)
  exact ⟨hstill, hmoved⟩

/-- The drag led back to where it began before the box is released. -/
def dragBack : Stroke Rat :=
  { dragAcross with moves := [(⟨40, 0⟩, ⟨false, false⟩)], finish := ⟨0, 0⟩ }

/-- Bringing the only box to the front and clicking on it leave the redo branch, and dragging it to
and fro does not. -/
theorem history_of_front_click_drag :
    (undone.perform (.reorder "a" .front)).editor.history = undone.history ∧
      (undone.after { dragAcross with finish := ⟨0, 0⟩ }.ops).history = undone.history ∧
      (undone.after dragBack.ops).history =
        undone.history.commit (undone.after dragBack.ops).elements := by
  obtain ⟨hedits, hstrokes⟩ :=
    history_of_no_op (e := undone) (by decide +kernel) (by decide +kernel)
  refine ⟨hedits _ rfl (Or.inr (by decide +kernel)), ?_, (hstrokes dragBack).2 (by decide +kernel)⟩
  exact ((hstrokes _).1 (by decide +kernel)).2

/-- A drag to and fro leaves the elements as they were, and takes away what could be redone. -/
theorem redo_lost_of_drag_back :
    Reachable undone ∧ undone.gesture.isIdle = true ∧
      (undone.elements == undone.history.current) = true ∧
      ((undone.after dragBack.ops).elements == undone.elements) = true ∧
      undone.history.canRedo = true ∧ (undone.after dragBack.ops).history.canRedo = false := by
  refine ⟨⟨_, _, _, rfl⟩, ?_⟩
  decide +kernel

end Editor

end ThermalLabel

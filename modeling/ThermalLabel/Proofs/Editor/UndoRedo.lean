import ThermalLabel.Proofs.Editor.Drift

/-! # Undo and redo over whole runs

A run that goes on through the history adds the elements to it now and then: these sequences are its
trail. As long as the history has room for all of them, as many undos lead back along the trail to
where the run began, and as many redos lead on to its end.

The row of the first snapshot and the trail, read backwards, begins the past of the history
(`reverse_prefix_foldl_commit`). Undo walks along the past, and what it passes becomes the future,
which redo walks along. -/

namespace ThermalLabel.Editor

variable {α : Type} [Scalar α] [NumberText α] {e : Editor α}

/-! ### Trails -/

/-- The sequences that a run adds to the history, in order. -/
inductive Trail : Editor α → List (Operation α) → List (List (Element α)) → Prop
  | nil (e : Editor α) : Trail e [] []
  /-- An operation that adds none. -/
  | keeps {e op ops trail} (history : (e.perform op).editor.history = e.history)
      (rest : Trail (e.perform op).editor ops trail) : Trail e (op :: ops) trail
  /-- An operation that adds the elements that it leaves. -/
  | adds {e op ops trail}
      (history : (e.perform op).editor.history = e.history.commit (e.perform op).editor.elements)
      (rest : Trail (e.perform op).editor ops trail) :
      Trail e (op :: ops) ((e.perform op).editor.elements :: trail)

/-- The history after a run holds its trail. -/
theorem Trail.history_after {ops : List (Operation α)} {trail : List (List (Element α))}
    (h : Trail e ops trail) : (e.after ops).history = trail.foldl History.commit e.history := by
  induction h with
  | nil e => rfl
  | keeps history rest ih => rw [after_cons, ih, history]
  | adds history rest ih => rw [after_cons, ih, history, List.foldl_cons]

theorem exists_trail {ops : List (Operation α)} (hops : ∀ op ∈ ops, op.role ≠ .travel) :
    ∃ trail, Trail e ops trail := by
  induction ops generalizing e with
  | nil => exact ⟨[], .nil e⟩
  | cons op ops ih =>
    rw [List.forall_mem_cons] at hops
    obtain ⟨trail, htrail⟩ := ih (e := (e.perform op).editor) hops.2
    rcases (perform_effect e op).history hops.1 with hkeeps | hadds
    · exact ⟨trail, .keeps hkeeps htrail⟩
    · exact ⟨_ :: trail, .adds hadds htrail⟩

/-! ### Undo and redo one after another -/

/-- What a reply says of undo and redo: whether there was a snapshot, and the elements. -/
def outcome (r : Reply α Outcome) : Outcome × List (Element α) := (r.value, r.editor.elements)

theorem perform_undo {history : History (List (Element α))} (h : e.history.undo? = some history) :
    outcome (e.perform .undo) = (.flag true, history.current) ∧
      (e.perform .undo).editor.history = history := by
  show outcome (e.undo.map _) = _ ∧ e.undo.editor.history = _
  rw [undo_of_some h]
  exact ⟨rfl, rfl⟩

theorem perform_redo {history : History (List (Element α))} (h : e.history.redo? = some history) :
    outcome (e.perform .redo) = (.flag true, history.current) ∧
      (e.perform .redo).editor.history = history := by
  show outcome (e.redo.map _) = _ ∧ e.redo.editor.history = _
  rw [redo_of_some h]
  exact ⟨rfl, rfl⟩

/-- Undo and redo change neither the label size nor the settings. -/
theorem surroundings_perform {op : Operation α} (hop : op = .undo ∨ op = .redo) (e : Editor α) :
    (e.perform op).editor.document.labelSize = e.document.labelSize ∧
      (e.perform op).editor.settings = e.settings := by
  rcases hop with rfl | rfl
  · show e.undo.editor.document.labelSize = _ ∧ e.undo.editor.settings = _
    cases hundo : e.history.undo? with
    | some history => rw [undo_of_some hundo]; exact surroundings_cancel e
    | none => rw [undo_of_none hundo]; exact surroundings_cancel e
  · show e.redo.editor.document.labelSize = _ ∧ e.redo.editor.settings = _
    cases hredo : e.history.redo? with
    | some history => rw [redo_of_some hredo]; exact surroundings_cancel e
    | none => rw [redo_of_none hredo]; exact surroundings_cancel e

/-- Undo walks along the past, and leaves what it passes to redo. -/
theorem replies_undo {row : List (List (Element α))} (hrow : row <+: e.history.past) :
    (e.replies (List.replicate row.length .undo)).map outcome =
        row.map (fun els => (Outcome.flag true, els)) ∧
      (e.after (List.replicate row.length .undo)).history.current ::
          (e.after (List.replicate row.length .undo)).history.future =
        row.reverse ++ e.history.current :: e.history.future := by
  induction row generalizing e with
  | nil => exact ⟨rfl, rfl⟩
  | cons els row ih =>
    cases hundo : e.history.undo? with
    | none =>
      rw [History.undo?_eq_none_iff.mp hundo] at hrow
      cases List.prefix_nil.mp hrow
    | some history =>
      rw [History.past_of_undo? hundo, List.cons_prefix_cons] at hrow
      obtain ⟨rfl, hrow⟩ := hrow
      obtain ⟨houtcome, hhistory⟩ := perform_undo hundo
      have hrest := ih (hhistory.symm ▸ hrow)
      rw [hhistory, History.future_of_undo? hundo] at hrest
      rw [List.length_cons, List.replicate_succ, replies, List.map_cons, houtcome, hrest.1,
        after_cons, hrest.2, List.reverse_cons, List.append_assoc]
      exact ⟨rfl, rfl⟩

/-- Redo walks along the future. -/
theorem replies_redo {row : List (List (Element α))} (hrow : row <+: e.history.future) :
    (e.replies (List.replicate row.length .redo)).map outcome =
      row.map (fun els => (Outcome.flag true, els)) := by
  induction row generalizing e with
  | nil => rfl
  | cons els row ih =>
    cases hredo : e.history.redo? with
    | none =>
      rw [History.redo?_eq_none_iff.mp hredo] at hrow
      cases List.prefix_nil.mp hrow
    | some history =>
      rw [History.future_of_redo? hredo, List.cons_prefix_cons] at hrow
      obtain ⟨rfl, hrow⟩ := hrow
      obtain ⟨houtcome, hhistory⟩ := perform_redo hredo
      have hrest := ih (hhistory.symm ▸ hrow)
      rw [List.length_cons, List.replicate_succ, replies, List.map_cons, houtcome, hrest]
      rfl

theorem replies_undo_redo {first : List (Element α)} {trail : List (List (Element α))}
    (hrow : (first :: trail).reverse <+: e.history.current :: e.history.past) :
    (e.replies (List.replicate trail.length .undo ++ List.replicate trail.length .redo)).map
        outcome =
      ((first :: trail).dropLast.reverse ++ trail).map fun els => (Outcome.flag true, els) := by
  have hsplit := List.dropLast_append_getLast (List.cons_ne_nil first trail)
  have hlength : (first :: trail).dropLast.reverse.length = trail.length := by simp
  rw [← hsplit, List.reverse_concat, List.cons_prefix_cons] at hrow
  obtain ⟨hlast, hback⟩ := hrow
  obtain ⟨hundo, hfuture⟩ := replies_undo hback
  rw [hlength] at hundo hfuture
  -- what undo has passed, with the row that it has come to, is the row again
  rw [List.reverse_reverse, ← hlast, List.append_cons, hsplit, List.cons_append,
    List.cons.injEq] at hfuture
  have hahead : trail <+: (e.after (List.replicate trail.length .undo)).history.future :=
    ⟨e.history.future, hfuture.2.symm⟩
  rw [replies_append, List.map_append, List.map_append, hundo, replies_redo hahead]

/-! ### Whole runs -/

theorem Trail.reverse_prefix {ops : List (Operation α)} {trail : List (List (Element α))}
    (h : Trail e ops trail) (hroom : trail.length < e.history.capacity) :
    (e.history.current :: trail).reverse <+:
      (e.after ops).history.current :: (e.after ops).history.past := by
  have hfirst : [e.history.current].reverse <+: e.history.current :: e.history.past := ⟨_, rfl⟩
  rw [h.history_after]
  refine History.reverse_prefix_foldl_commit hfirst ?_
  rw [List.length_singleton]
  omega

theorem Trail.current_after {ops : List (Operation α)} {trail : List (List (Element α))}
    (h : Trail e ops trail) (hroom : trail.length < e.history.capacity) :
    (e.after ops).history.current =
      (e.history.current :: trail).getLast (List.cons_ne_nil _ _) := by
  have hrow := h.reverse_prefix hroom
  have hsplit := List.dropLast_append_getLast (List.cons_ne_nil e.history.current trail)
  rw [← hsplit, List.reverse_concat, List.cons_prefix_cons] at hrow
  exact hrow.1.symm

/-- An operation that edits no elements during a gesture. -/
def Orderly (e : Editor α) (op : Operation α) : Prop := op.role = .edit → e.gesture.isIdle = true

instance (e : Editor α) (op : Operation α) : Decidable (Orderly e op) :=
  inferInstanceAs (Decidable (_ → _))

theorem Orderly.not_strays {op : Operation α} (h : Orderly e op) : ¬ Strays e op := by
  rintro ⟨role, els, hels, -⟩
  rw [Gesture.eq_idle_of_isIdle (h role)] at hels
  cases hels

/-- What begins at rest with the current snapshot and comes to rest ends with it. -/
theorem same_after_of_orderly {ops : List (Operation α)} (hidle : e.gesture.isIdle = true)
    (hsame : Same e.elements e.history.current) (hops : Throughout Orderly e ops)
    (hend : (e.after ops).gesture.isIdle = true) :
    Same (e.after ops).elements (e.after ops).history.current := by
  have hsettled : Settled (e.after ops) :=
    invariant_after (fun h hop => settled_perform h hop.not_strays)
      (settled_of_idle (Gesture.eq_idle_of_isIdle hidle) hsame) hops
  refine hsettled.elements ?_
  rw [Gesture.eq_idle_of_isIdle hend]
  rfl

/-- **A run that goes on through the history is undone snapshot by snapshot, and done again.**
It leaves a trail. If the history has room for it, as many undos as the trail is long succeed and
lead back along it to the snapshot from before the run, which the elements were at rest, and as many
redos lead on along it to its end, which the elements are at rest if no edit came during a gesture.
No undo and no redo changes the label size or the settings. -/
theorem undo_redo_run {ops : List (Operation α)} (hreach : Reachable e)
    (hidle : e.gesture.isIdle = true) (hsame : Same e.elements e.history.current)
    (hops : ∀ op ∈ ops, op.role ≠ .travel) :
    (∃ trail, Trail e ops trail) ∧
      (∀ trail, Trail e ops trail → trail.length < History.standardCapacity →
        ((e.after ops).replies
            (List.replicate trail.length .undo ++ List.replicate trail.length .redo)).map outcome =
          ((e.history.current :: trail).dropLast.reverse ++ trail).map
            (fun els => (Outcome.flag true, els)) ∧
        (Throughout Orderly e ops → (e.after ops).gesture.isIdle = true →
          Same (e.after ops).elements
            ((e.history.current :: trail).getLast (List.cons_ne_nil _ _)))) ∧
      ∀ (e' : Editor α) (op : Operation α), op = .undo ∨ op = .redo →
        (e'.perform op).editor.document.labelSize = e'.document.labelSize ∧
          (e'.perform op).editor.settings = e'.settings := by
  refine ⟨exists_trail hops, fun trail htrail hroom => ?_,
    fun e' op hop => surroundings_perform hop e'⟩
  rw [← hreach.capacity] at hroom
  refine ⟨replies_undo_redo (htrail.reverse_prefix hroom), fun horderly hend => ?_⟩
  rw [← htrail.current_after hroom]
  exact same_after_of_orderly hidle hsame horderly hend

/-- An editor on a session with one box. -/
def opened : Editor Rat := openStored (.ok (some oneBox)) (.numbered 0)

/-- A box added, the language chosen, and both boxes dragged. -/
def addAndDrag : List (Operation Rat) := [
  .add .box .empty, .setLanguage .zpl, .selectAll,
  .pointerDown (.element "a") ⟨0, 0⟩ ⟨false, false⟩, .pointerUp ⟨40, 0⟩ ⟨false, false⟩]

/-- Two snapshots are undone and done again. -/
theorem undo_redo_add_drag :
    ∃ added dragged, Trail opened addAndDrag [added, dragged] ∧
      ((opened.after addAndDrag).replies [.undo, .undo, .redo, .redo]).map outcome =
        [added, opened.history.current, added, dragged].map (fun els => (Outcome.flag true, els)) ∧
      Same (opened.after addAndDrag).elements dragged := by
  have hdrag := (perform_effect (opened.after (addAndDrag.take 4))
    (.pointerUp ⟨40, 0⟩ ⟨false, false⟩)).history_of_saves (Or.inr rfl) (by decide +kernel)
  have htrail : Trail opened addAndDrag _ :=
    .adds rfl (.keeps rfl (.keeps rfl (.keeps rfl (.adds hdrag (.nil _)))))
  have hops : ∀ op ∈ addAndDrag, op.role ≠ .travel := by decide
  have hrun := undo_redo_run (e := opened) ⟨_, _, [], rfl⟩ rfl (same_refl _) hops
  obtain ⟨hrow, hlast⟩ := hrun.2.1 _ htrail (by decide)
  exact ⟨_, _, htrail, hrow, hlast (by decide +kernel) (by decide +kernel)⟩

end ThermalLabel.Editor

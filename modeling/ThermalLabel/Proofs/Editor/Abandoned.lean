import ThermalLabel.Editor.Workspace
import ThermalLabel.Proofs.Editor.Drift

/-! # Gestures given up

A gesture that is given up leaves no trace but in the selection. However many presses and frames
came before, cancelling leads back to the workspace that they began on, and an operation that
interrupts a gesture does what it does once the gesture is cancelled (`gestures_leave_no_trace`).

Cancelling takes back a frame, and a press but for the selection (`Frame.cancel`,
`cancel_pointerDown`); so what it leads to stays the same along a row of them. -/

namespace ThermalLabel

variable {α : Type}

/-- Whether a gesture adds to the selection that it began with. -/
def Gesture.isAdditive : Gesture α → Bool
  | .marquee m => m.additive
  | _ => false

/-- Whether an operation begins a gesture or goes on with one. -/
def Operation.gestures : Operation α → Bool
  | .pointerDown _ _ _ | .pointerMove _ _ => true
  | _ => false

namespace Editor

variable {e : Editor α}

/-! ### What cancelling takes back -/

theorem cancel_beginDrag (hidle : e.gesture = .idle) (selection : Selection) (id : ElementId)
    (pos : Point α) (collapseTo : Option ElementId) :
    ({ e with selection }.beginDrag id pos collapseTo).cancel = { e with selection } := by
  obtain ⟨document, settings, _, history, gesture, measured, zoom, supply⟩ := e
  cases hidle
  rfl

theorem cancel_pressElement (hidle : e.gesture = .idle) (id : ElementId) (pos : Point α)
    (modifiers : Modifiers) :
    ∃ selection, (e.pressElement id pos modifiers).cancel = { e with selection } := by
  have hselect : ∀ selection, { e with selection }.cancel = { e with selection } :=
    fun _ => cancel_of_idle hidle
  unfold pressElement
  dsimp only
  split_ifs
  · exact ⟨_, hselect e.selection⟩
  · exact ⟨_, cancel_beginDrag hidle _ id pos _⟩
  · exact ⟨_, hselect _⟩
  · exact ⟨_, cancel_beginDrag hidle e.selection id pos _⟩
  · exact ⟨_, cancel_beginDrag hidle e.selection id pos _⟩
  · exact ⟨_, cancel_beginDrag hidle _ id pos _⟩

theorem cancel_pressHandle (hidle : e.gesture = .idle) (id : ElementId) (handle : Handle)
    (pos : Point α) : ∃ selection, (e.pressHandle id handle pos).cancel = { e with selection } := by
  obtain ⟨document, settings, selection, history, gesture, measured, zoom, supply⟩ := e
  cases hidle
  unfold pressHandle
  split
  · exact ⟨selection, rfl⟩
  · exact ⟨Selection.only id, rfl⟩

theorem cancel_pressCanvas (hidle : e.gesture = .idle) (pos : Point α) (modifiers : Modifiers) :
    (e.pressCanvas pos modifiers).cancel =
      { e with selection := if modifiers.additive then e.selection else StringMap.empty } := by
  obtain ⟨document, settings, selection, history, gesture, measured, zoom, supply⟩ := e
  cases hidle
  rfl

theorem cancel_pointerDown (e : Editor α) (target : PointerTarget) (pos : Point α)
    (modifiers : Modifiers) :
    ∃ selection, (e.pointerDown target pos modifiers).cancel = { e.cancel with selection } := by
  cases target with
  | element id => exact cancel_pressElement (gesture_cancel e) id pos modifiers
  | handle id handle => exact cancel_pressHandle (gesture_cancel e) id handle pos
  | canvas => exact ⟨_, cancel_pressCanvas (gesture_cancel e) pos modifiers⟩

theorem isAdditive_pressElement (hidle : e.gesture = .idle) (id : ElementId) (pos : Point α)
    (modifiers : Modifiers) : (e.pressElement id pos modifiers).gesture.isAdditive = false := by
  unfold pressElement
  dsimp only
  split_ifs
  · rw [hidle]; rfl
  · rfl
  · rw [hidle]; rfl
  all_goals rfl

theorem isAdditive_pressHandle (hidle : e.gesture = .idle) (id : ElementId) (handle : Handle)
    (pos : Point α) : (e.pressHandle id handle pos).gesture.isAdditive = false := by
  unfold pressHandle
  split
  · rw [hidle]; rfl
  · rfl

/-- Only a press on the canvas begins an additive marquee. It leaves the selection as it finds it,
and giving the marquee up puts the selection back. -/
theorem additive_pointerDown {target : PointerTarget} {pos : Point α} {modifiers : Modifiers}
    (h : (e.pointerDown target pos modifiers).gesture.isAdditive = true) :
    (target = .canvas ∧ modifiers.additive = true) ∧
      (e.pointerDown target pos modifiers).selection = e.cancel.selection ∧
      (e.pointerDown target pos modifiers).cancel = e.cancel := by
  cases target with
  | element id =>
    have hnone := isAdditive_pressElement (gesture_cancel e) id pos modifiers
    exact absurd h (Bool.eq_false_iff.mp hnone)
  | handle id handle =>
    have hnone := isAdditive_pressHandle (gesture_cancel e) id handle pos
    exact absurd h (Bool.eq_false_iff.mp hnone)
  | canvas =>
    have hadditive : modifiers.additive = true := h
    have hcancel := cancel_pressCanvas (gesture_cancel e) pos modifiers
    rw [if_pos hadditive] at hcancel
    exact ⟨⟨rfl, hadditive⟩, if_pos hadditive, hcancel⟩

variable [Scalar α]

theorem Frame.cancel {e' : Editor α} {pos : Point α} (h : Frame e pos e') :
    e'.cancel = e.cancel := by
  cases h with
  | idle _ => rfl
  | still _ _ _ => rfl
  | drag hd _ elements =>
    simp only [Editor.cancel, hd]
    rfl
  | resize hr _ elements =>
    simp only [Editor.cancel, hr]
    rfl
  | marquee hm selection => simp only [Editor.cancel, hm]

theorem Frame.isAdditive {e' : Editor α} {pos : Point α} (h : Frame e pos e') :
    e'.gesture.isAdditive = e.gesture.isAdditive := by
  cases h with
  | idle _ => rfl
  | still _ _ _ => rfl
  | drag hd _ elements => rw [hd]; rfl
  | resize hr _ elements => rw [hr]; rfl
  | marquee hm selection => rw [hm]; rfl

/-! ### Rows of presses and frames -/

variable [NumberText α]

theorem cancel_after {ops : List (Operation α)} (hops : ∀ op ∈ ops, op.gestures = true) :
    ∃ selection, (e.after ops).cancel = { e.cancel with selection } := by
  -- the editor that the rest begins on is another one, but cancelling it leads to the same
  induction ops generalizing e with
  | nil => exact ⟨e.cancel.selection, rfl⟩
  | cons op ops ih =>
    rw [List.forall_mem_cons] at hops
    obtain ⟨selection, hrest⟩ := ih (e := (e.perform op).editor) hops.2
    cases op with
    | pointerDown target pos modifiers =>
      obtain ⟨_, hdown⟩ := cancel_pointerDown e target pos modifiers
      have hstep : (e.perform (.pointerDown target pos modifiers)).editor.cancel = _ := hdown
      rw [hstep] at hrest
      exact ⟨selection, hrest⟩
    | pointerMove pos modifiers =>
      have hstep : (e.perform (.pointerMove pos modifiers)).editor.cancel = e.cancel :=
        (frame_pointerMove e pos modifiers).cancel
      rw [hstep] at hrest
      exact ⟨selection, hrest⟩
    | _ => cases hops.1

/-- An additive marquee was begun by the last press of the row. -/
theorem exists_press_of_isAdditive {ops : List (Operation α)} (hidle : e.gesture = .idle)
    (hops : ∀ op ∈ ops, op.gestures = true) (h : (e.after ops).gesture.isAdditive = true) :
    ∃ before pos modifiers moves,
      ops = before ++ .pointerDown .canvas pos modifiers :: frames moves ∧
      modifiers.additive = true ∧
      (e.after (before ++ [.pointerDown .canvas pos modifiers])).selection =
        (e.after before).cancel.selection ∧
      (e.after ops).cancel = (e.after before).cancel := by
  -- from the end: going back over frames, the marquee is the same up to the press that began it
  induction ops using List.reverseRecOn with
  | nil =>
    rw [after_nil, hidle] at h
    cases h
  | append_singleton ops op ih =>
    have hop := hops op (List.mem_append_right _ (List.mem_singleton_self op))
    have hrow : ∀ op ∈ ops, op.gestures = true := fun op h => hops op (List.mem_append_left _ h)
    rw [after_concat] at h ⊢
    cases op with
    | pointerDown target pos modifiers =>
      obtain ⟨⟨rfl, hadditive⟩, hselection, hcancel⟩ := additive_pointerDown h
      refine ⟨ops, pos, modifiers, [], rfl, hadditive, ?_, hcancel⟩
      rw [after_concat]
      exact hselection
    | pointerMove pos modifiers =>
      have hframe := frame_pointerMove (e.after ops) pos modifiers
      obtain ⟨before, start, held, moves, rfl, hadditive, hselection, hcancel⟩ :=
        ih hrow (hframe.isAdditive.symm.trans h)
      refine ⟨before, start, held, moves ++ [(pos, modifiers)], ?_, hadditive, hselection,
        hframe.cancel.trans hcancel⟩
      simp [frames]
    | _ => cases hop

/-! ### Interruptions -/

/-- An operation that gives the gesture in progress up before it does anything else. A template does
so if it can be read. -/
def Interrupts (e : Editor α) : Operation α → Prop
  | .pointerDown _ _ _ | .undo | .redo | .reset | .restore _ => True
  | .importTemplate text => (e.perform (.importTemplate text)).value = .done
  | _ => False

theorem perform_cancel {op : Operation α} (h : Interrupts e op) :
    e.cancel.perform op = e.perform op := by
  cases op with
  | pointerDown target pos modifiers => simp only [perform, pointerDown, cancel_cancel]
  | undo => simp only [perform, undo, cancel_cancel]
  | redo => simp only [perform, redo, cancel_cancel]
  | reset =>
    obtain ⟨document, settings, selection, history, gesture, measured, zoom, supply⟩ := e
    cases gesture <;> rfl
  | restore session =>
    obtain ⟨document, settings, selection, history, gesture, measured, zoom, supply⟩ := e
    cases gesture <;> rfl
  | importTemplate text =>
    obtain ⟨document, settings, selection, history, gesture, measured, zoom, supply⟩ := e
    unfold Interrupts at h
    simp only [perform, importTemplate] at h ⊢
    cases hparse : Template.parse (α := α) text with
    | error error =>
      rw [hparse] at h
      cases h
    | ok template => cases gesture <;> rfl
  | _ => cases h

end Editor

/-! ### Workspaces -/

namespace Workspace

variable [Scalar α] [NumberText α]

/-- The workspace after a row of operations. -/
def performAll (w : Workspace α) (ops : List (Operation α)) : Workspace α :=
  ops.foldl (fun w op => (w.perform op).1) w

theorem perform_of_not_saves {w : Workspace α} {op : Operation α}
    (h : (w.editor.perform op).saves = false) :
    (w.perform op).1 = { w with editor := (w.editor.perform op).editor } := by
  simp only [perform, after, Reply.saved?, h]
  rfl

theorem performAll_of_not_saves {w : Workspace α} {ops : List (Operation α)}
    (hops : ∀ op ∈ ops, ∀ e : Editor α, (e.perform op).saves = false) :
    w.performAll ops = { w with editor := w.editor.after ops } := by
  induction ops generalizing w with
  | nil => rfl
  | cons op ops ih =>
    rw [List.forall_mem_cons] at hops
    have hstep := perform_of_not_saves (hops.1 w.editor)
    have hrest := ih (w := (w.perform op).1) hops.2
    rw [hstep] at hrest
    show (w.perform op).1.performAll ops = _
    rw [hstep]
    exact hrest

theorem editor_performAll (w : Workspace α) (ops : List (Operation α)) :
    (w.performAll ops).editor = w.editor.after ops := by
  induction ops generalizing w with
  | nil => rfl
  | cons op ops ih =>
    have hstep : (w.perform op).1.editor = (w.editor.perform op).editor := by
      unfold perform after
      dsimp only
      split
      · unfold save
        split <;> rfl
      · rfl
    rw [Editor.after_cons, ← hstep]
    exact ih _

theorem not_saves_of_gestures {op : Operation α} (h : op.gestures = true) (e : Editor α) :
    (e.perform op).saves = false := by
  cases op with
  | pointerDown target pos modifiers => rfl
  | pointerMove pos modifiers => rfl
  | _ => cases h

/-- **A gesture that is given up leaves no trace.** Whatever presses and frames come after an editor
was at rest, cancelling leads back to the workspace as it was, its store and its writer included,
but for the selection; if what is cancelled is an additive marquee, the selection is again what it
was when the pointer went down for it, before and after the press. And whatever interrupts a gesture
does the same once the gesture is cancelled. -/
theorem gestures_leave_no_trace (w : Workspace α) :
    (w.editor.gesture.isIdle = true → ∀ ops : List (Operation α), (∀ op ∈ ops, op.gestures = true) →
      (∃ selection, w.performAll (ops ++ [.cancel]) =
        { w with editor := { w.editor with selection } }) ∧
      ((w.performAll ops).editor.gesture.isAdditive = true →
        ∃ before pos modifiers moves,
          ops = before ++ .pointerDown .canvas pos modifiers :: Editor.frames moves ∧
          modifiers.additive = true ∧
          (w.performAll (ops ++ [.cancel])).editor.selection =
            (w.performAll (before ++ [.cancel])).editor.selection ∧
          (w.performAll (ops ++ [.cancel])).editor.selection =
            (w.performAll (before ++ [.pointerDown .canvas pos modifiers])).editor.selection)) ∧
    ∀ op, w.editor.Interrupts op → w.perform op = (w.perform .cancel).1.perform op := by
  refine ⟨fun hidle ops hops => ⟨?_, fun hadditive => ?_⟩, fun op hop => ?_⟩
  · have hquiet : ∀ op ∈ ops ++ [.cancel], ∀ e : Editor α, (e.perform op).saves = false := by
      intro op hop
      rcases List.mem_append.mp hop with hop | hop
      · exact not_saves_of_gestures (hops op hop)
      · rw [List.mem_singleton.mp hop]
        exact fun _ => rfl
    -- at rest there was nothing to give up, so what cancelling leads back to is `w` itself
    have hrest : w.editor.cancel = w.editor :=
      Editor.cancel_of_idle (Gesture.eq_idle_of_isIdle hidle)
    obtain ⟨selection, hcancel⟩ := Editor.cancel_after (e := w.editor) hops
    refine ⟨selection, ?_⟩
    rw [performAll_of_not_saves hquiet, ← hrest, ← hcancel, hrest, Editor.after_concat]
    rfl
  · rw [editor_performAll] at hadditive
    obtain ⟨before, pos, modifiers, moves, hsplit, hheld, hselection, hcancel⟩ :=
      Editor.exists_press_of_isAdditive (Gesture.eq_idle_of_isIdle hidle) hops hadditive
    have hback : (w.performAll (ops ++ [.cancel])).editor.selection =
        (w.editor.after before).cancel.selection := by
      rw [editor_performAll, Editor.after_concat]
      exact congrArg Editor.selection hcancel
    refine ⟨before, pos, modifiers, moves, hsplit, hheld, ?_, ?_⟩
    · rw [hback, editor_performAll, Editor.after_concat]
      rfl
    · rw [hback, editor_performAll, hselection]
  · have hcancel : (w.perform .cancel).1 = { w with editor := w.editor.cancel } :=
      perform_of_not_saves rfl
    rw [hcancel]
    simp only [perform, Editor.perform_cancel hop]
    rfl

/-- A workspace on a session with one box. -/
def oneBox : Workspace Rat := ofStore (.memory (some Editor.oneBox)) false (.numbered 0)

/-- A box dragged, and a marquee drawn around it that interrupts the drag. -/
def dragAndMarquee : List (Operation Rat) := [
  .pointerDown (.element "a") ⟨0, 0⟩ ⟨false, false⟩, .pointerMove ⟨40, 0⟩ ⟨false, false⟩,
  .pointerDown .canvas ⟨0, 0⟩ ⟨true, false⟩, .pointerMove ⟨400, 400⟩ ⟨false, false⟩]

/-- Drag and marquee are given up, and undo interrupts the marquee. -/
theorem no_trace_of_drag_and_marquee :
    (∃ selection, oneBox.performAll (dragAndMarquee ++ [.cancel]) =
      { oneBox with editor := { oneBox.editor with selection } }) ∧
    (∃ before pos modifiers moves,
      dragAndMarquee = before ++ .pointerDown .canvas pos modifiers :: Editor.frames moves ∧
      (oneBox.performAll (dragAndMarquee ++ [.cancel])).editor.selection =
        (oneBox.performAll (before ++ [.cancel])).editor.selection) ∧
    (oneBox.performAll dragAndMarquee).perform .undo =
      ((oneBox.performAll dragAndMarquee).perform .cancel).1.perform .undo := by
  obtain ⟨htrace, -⟩ := gestures_leave_no_trace oneBox
  obtain ⟨hback, hmarquee⟩ := htrace (by decide +kernel) dragAndMarquee (by decide)
  obtain ⟨before, pos, modifiers, moves, hsplit, -, hselection, -⟩ := hmarquee (by decide +kernel)
  obtain ⟨-, hinterrupts⟩ := gestures_leave_no_trace (oneBox.performAll dragAndMarquee)
  exact ⟨hback, ⟨before, pos, modifiers, moves, hsplit, hselection⟩, hinterrupts .undo trivial⟩

end Workspace

end ThermalLabel

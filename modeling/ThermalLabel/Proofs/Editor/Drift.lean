import Mathlib.Data.List.Infix
import ThermalLabel.Decimal.Exact
import ThermalLabel.Proofs.Editor.Runs

/-! # Elements and history

At rest, the elements of an editor ought to be the current snapshot of its history. They are as long
as no edit strays: an edit during a drag or a resize makes a snapshot while the gesture still keeps
the sequence from before, and giving the gesture up then puts back what the history no longer
holds. `never_drifts_iff` says that nothing else makes an editor drift.

The invariant has two halves. What a gesture keeps is the current snapshot, and so are the elements
until the gesture has moved. -/

namespace ThermalLabel.Editor

variable {α : Type} [Scalar α]

/-- An editor at rest whose elements are not the current snapshot. -/
def Drifted (e : Editor α) : Prop := e.gesture.isIdle = true ∧ ¬ Same e.elements e.history.current

/-- What the gesture keeps is the current snapshot, and so are the elements until it has moved. -/
structure Settled (e : Editor α) : Prop where
  origin : ∀ els ∈ e.gesture.origin?, Same els e.history.current
  elements : e.gesture.hasMoved = false → Same e.elements e.history.current

theorem settled_of_idle {e : Editor α} (hidle : e.gesture = .idle)
    (hsame : Same e.elements e.history.current) : Settled e :=
  ⟨Gesture.forall_origin?_idle hidle, fun _ => hsame⟩

theorem Settled.not_drifted {e : Editor α} (h : Settled e) : ¬ Drifted e := by
  rintro ⟨hidle, hdiff⟩
  refine hdiff (h.elements ?_)
  rw [Gesture.eq_idle_of_isIdle hidle]
  rfl

theorem Settled.base {e : Editor α} (h : Settled e) : Same e.base e.history.current := by
  unfold Editor.base
  cases horigin : e.gesture.origin? with
  | some els => exact h.origin els horigin
  | none =>
    refine h.elements ?_
    cases hg : e.gesture with
    | idle => rfl
    | marquee m => rfl
    | dragging d => rw [hg] at horigin; cases horigin
    | resizing r => rw [hg] at horigin; cases horigin

theorem settled_load (e : Editor α) (s : Session α) : Settled (e.load s) :=
  settled_of_idle rfl (same_refl _)

theorem settled_openStored (stored : Except Error (Option (Session α))) (supply : IdSupply) :
    Settled (openStored stored supply) := by
  unfold openStored
  split <;> exact settled_load _ _

variable [NumberText α]

/-- An edit during a drag or a resize after which the current snapshot is not the sequence that the
gesture keeps. -/
def Strays (e : Editor α) (op : Operation α) : Prop :=
  op.role = .edit ∧ ∃ els ∈ e.gesture.origin?, ¬ Same els (e.perform op).editor.history.current

theorem settled_perform {e : Editor α} {op : Operation α} (h : Settled e) (hop : ¬ Strays e op) :
    Settled (e.perform op).editor := by
  cases perform_effect e op with
  | view role elements history gesture saves =>
    exact ⟨by rw [gesture, history]; exact h.origin,
      by rw [gesture, history, elements]; exact h.elements⟩
  | setting role elements history gesture =>
    exact ⟨by rw [gesture, history]; exact h.origin,
      by rw [gesture, history, elements]; exact h.elements⟩
  | edit role edited =>
    -- the gesture keeps what it kept, so an edit must not leave that behind
    refine ⟨fun els hels => ?_, fun hstill => ?_⟩
    · rw [edited.gesture] at hels
      by_contra hdiff
      exact hop ⟨role, els, hels, hdiff⟩
    · rcases edited.outcome with kept | committed
      · rw [kept.history]
        rcases kept.elements with heq | htest
        · rw [heq]
          exact h.elements (edited.gesture ▸ hstill)
        · exact Or.inr htest
      · rw [committed.current]
        exact same_refl _
  | press role elements history still origin saves =>
    refine ⟨fun els hels => ?_, fun _ => ?_⟩
    · rw [history, origin els hels]
      exact h.base
    · rw [history, elements]
      exact h.base
  | frame role framed saves =>
    refine ⟨?_, fun hstill => ?_⟩
    · rw [framed.origin, framed.history]
      exact h.origin
    · rw [framed.elements hstill, framed.history]
      exact h.elements (framed.still hstill)
  | click role still elements history idle saves =>
    refine settled_of_idle idle ?_
    rw [elements, history]
    exact h.elements still
  | commit role committed idle =>
    refine settled_of_idle idle ?_
    rw [committed.current]
    exact same_refl _
  | travel role elements history idle saves => exact settled_of_idle idle (Or.inl elements)
  | replace role history idle saves =>
    refine settled_of_idle idle ?_
    rw [history, History.current_reset]
    exact same_refl _

/-- Giving the gesture up after an edit has strayed makes the editor drift. -/
theorem Strays.drifted_cancel {e : Editor α} {op : Operation α} (h : Strays e op) :
    Drifted ((e.perform op).editor.perform .cancel).editor := by
  obtain ⟨role, els, hels, hdiff⟩ := h
  have hgesture := ((perform_effect e op).edited role).gesture
  have hbase : (e.perform op).editor.base = els := by
    rw [Editor.base, hgesture, Option.mem_def.mp hels]
    rfl
  show Drifted (e.perform op).editor.cancel
  refine ⟨by rw [gesture_cancel]; rfl, ?_⟩
  rwa [elements_cancel, history_cancel, hbase]

/-- **No state of a run drifts, and none does once its gesture is given up, if and only if no edit
of the run strays.** -/
theorem never_drifts_iff (stored : Except Error (Option (Session α))) (supply : IdSupply)
    (ops : List (Operation α)) :
    (∀ run, run <+: ops → ¬ Drifted ((openStored stored supply).after run) ∧
        ¬ Drifted ((openStored stored supply).after (run ++ [.cancel]))) ↔
      Throughout (fun e op => ¬ Strays e op) (openStored stored supply) ops := by
  constructor
  · intro h
    refine throughout_iff_prefix.mpr fun run op hrun hstrays => ?_
    refine (h _ hrun).2 ?_
    rw [after_concat, after_concat]
    exact hstrays.drifted_cancel
  · rintro h run ⟨more, rfl⟩
    have hsettled := invariant_after settled_perform (settled_openStored stored supply)
      (throughout_append.mp h).1
    refine ⟨hsettled.not_drifted, ?_⟩
    rw [after_concat]
    exact (settled_perform hsettled fun hstrays => by cases hstrays.1).not_drifted

/-- A session with one box. -/
def oneBox : Session Rat where
  document := ⟨LabelSize.standard, [{ Element.default .box with id := "a", x := 10 }]⟩
  settings := Settings.standard

/-- A session with three boxes, on a grid of five millimetres. -/
def threeBoxes : Session Rat where
  document := ⟨LabelSize.standard,
    [{ Element.default .box with id := "a", x := 10 },
      { Element.default .box with id := "b", x := 2, y := 5 },
      { Element.default .box with id := "c", x := 30 }]⟩
  settings := ⟨StringMap.empty, .tspl, 5⟩

/-- An element added while a box is pressed: cancelling the press takes it away from the elements,
but not from the history. -/
theorem drifted_of_add_while_pressed :
    Drifted ((openStored (.ok (some oneBox)) (.numbered 0)).after
      [.pointerDown (.element "a") ⟨0, 0⟩ ⟨false, false⟩, .add .box .empty, .cancel]) := by
  refine ⟨by decide +kernel, fun hsame => ?_⟩
  have hlength := hsame.length_eq
  revert hlength
  decide +kernel

end ThermalLabel.Editor

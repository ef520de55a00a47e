import ThermalLabel.Proofs.Editor.Drift

/-! # What is saved

A session that is saved ought to hold the current snapshot. Whatever makes a snapshot or takes one
up saves just that one. A change of the settings saves the elements as they are, also while they
are on their way: `saves_snapshots_iff` says that such a save is the only one that can go wrong, and
that it takes a drag or a resize that has moved, as long as no edit strays. -/

namespace ThermalLabel.Editor

variable {α : Type} [Scalar α] [NumberText α]

/-- If an operation saves, the elements that it writes to the store are the current snapshot. -/
def SavesSnapshot (e : Editor α) (op : Operation α) : Prop :=
  ∀ s ∈ (e.perform op).saved?, Same s.document.elements (e.perform op).editor.history.current

/-- A setting saved while the elements are not the current snapshot. -/
def Premature (e : Editor α) (op : Operation α) : Prop :=
  op.role = .setting ∧ (e.perform op).saves = true ∧ ¬ Same e.elements e.history.current

theorem savesSnapshot_of_not_saves {e : Editor α} {op : Operation α}
    (h : (e.perform op).saves = false) : SavesSnapshot e op := by
  intro s hs
  rw [Reply.saved?, h] at hs
  cases hs

theorem savesSnapshot_of_saves {e : Editor α} {op : Operation α}
    (h : (e.perform op).saves = true) :
    SavesSnapshot e op ↔
      Same (e.perform op).editor.elements (e.perform op).editor.history.current := by
  unfold SavesSnapshot
  rw [Reply.saved?, if_pos h]
  constructor
  · intro hs
    exact hs _ rfl
  · rintro hs s ⟨⟩
    exact hs

theorem not_premature_of_role {e : Editor α} {op : Operation α} (h : op.role ≠ .setting) :
    ¬ Premature e op := fun hpre => h hpre.1

/-- A save goes wrong exactly when it is a premature one, whatever state the editor is in. -/
theorem savesSnapshot_iff (e : Editor α) (op : Operation α) :
    SavesSnapshot e op ↔ ¬ Premature e op := by
  cases hsaves : (e.perform op).saves with
  | false =>
    refine iff_of_true (savesSnapshot_of_not_saves hsaves) fun hpre => ?_
    rw [hpre.2.1] at hsaves
    cases hsaves
  | true =>
    rw [savesSnapshot_of_saves hsaves]
    cases perform_effect e op with
    | setting role elements history gesture =>
      rw [elements, history]
      constructor
      · intro hsame hpre
        exact hpre.2.2 hsame
      · intro hpre
        by_contra hdiff
        exact hpre ⟨role, hsaves, hdiff⟩
    | edit role edited =>
      refine iff_of_true ?_ (not_premature_of_role (by rw [role]; decide))
      rcases edited.outcome with kept | committed
      · rw [kept.saves] at hsaves
        cases hsaves
      · rw [committed.current]
        exact same_refl _
    | commit role committed idle =>
      refine iff_of_true ?_ (not_premature_of_role (by rw [role]; decide))
      rw [committed.current]
      exact same_refl _
    | travel role elements history idle saves =>
      exact iff_of_true (Or.inl elements) (not_premature_of_role (by rw [role]; decide))
    | replace role history idle saves =>
      refine iff_of_true ?_ (not_premature_of_role (by rw [role]; decide))
      rw [history, History.current_reset]
      exact same_refl _
    | view role elements history gesture saves => rw [saves] at hsaves; cases hsaves
    | press role elements history still origin saves => rw [saves] at hsaves; cases hsaves
    | frame role framed saves => rw [saves] at hsaves; cases hsaves
    | click role still elements history idle saves => rw [saves] at hsaves; cases hsaves

/-- In a settled editor, a premature save takes a gesture that has moved. -/
theorem Settled.hasMoved_of_premature {e : Editor α} {op : Operation α} (h : Settled e)
    (hpre : Premature e op) : e.gesture.hasMoved = true := by
  by_contra hmoved
  exact hpre.2.2 (h.elements (Bool.eq_false_iff.mpr hmoved))

/-- **Every save of a run writes the current snapshot if and only if no setting of the run is saved
while the elements are another sequence; and as long as no edit strays, they are another sequence
only while a drag or a resize has moved them.** -/
theorem saves_snapshots_iff (stored : Except Error (Option (Session α))) (supply : IdSupply)
    (ops : List (Operation α)) :
    (Throughout SavesSnapshot (openStored stored supply) ops ↔
        Throughout (fun e op => ¬ Premature e op) (openStored stored supply) ops) ∧
      (Throughout (fun e op => ¬ Strays e op) (openStored stored supply) ops →
        Throughout (fun e op => Premature e op → e.gesture.hasMoved = true)
          (openStored stored supply) ops) := by
  refine ⟨throughout_congr savesSnapshot_iff, fun hops => ?_⟩
  exact throughout_of_invariant settled_perform
    (fun hsettled _ hpre => hsettled.hasMoved_of_premature hpre)
    (settled_openStored stored supply) hops

/-- A language chosen while a box is dragged: the session is saved with the box on its way. -/
theorem not_savesSnapshot_while_dragged :
    ¬ SavesSnapshot ((openStored (.ok (some oneBox)) (.numbered 0)).after
      [.pointerDown (.element "a") ⟨0, 0⟩ ⟨false, false⟩, .pointerMove ⟨40, 0⟩ ⟨false, false⟩])
      (.setLanguage .zpl) := by
  rw [savesSnapshot_of_saves (by decide +kernel)]
  rintro (heq | htest)
  · have hplace := congrArg (List.map Element.x) heq
    revert hplace
    decide +kernel
  · revert htest
    decide +kernel

end ThermalLabel.Editor

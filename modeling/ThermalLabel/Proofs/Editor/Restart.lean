import ThermalLabel.Proofs.Editor.Abandoned
import ThermalLabel.Proofs.Editor.Identity
import ThermalLabel.Proofs.Editor.Saves
import ThermalLabel.Proofs.Editor.UndoRedo
import ThermalLabel.Proofs.Element.Equality
import ThermalLabel.Proofs.Session.Text

/-! # Restarts

What is saved ought to be all that a restart needs. Between two saves neither the label size nor the
settings change, and the current snapshot stays the one that was saved (`holds_perform`); at rest
the elements are that snapshot. So whatever is opened next goes on from where the editor was, but
for the selection and the history (`resumes_after`).

An element may be changed to one that the test of the program takes for equal. Such a change is not
saved, so that the elements come back up to this test only. -/

namespace ThermalLabel

variable {α : Type}

namespace Editor

/-! ### What surrounds the elements -/

/-- The label size and the settings. -/
def surroundings (e : Editor α) : LabelSize α × Settings α := (e.document.labelSize, e.settings)

theorem surroundings_pointerDown (e : Editor α) (target : PointerTarget) (pos : Point α)
    (modifiers : Modifiers) :
    (e.pointerDown target pos modifiers).surroundings = e.surroundings := by
  have hcancel : e.cancel.surroundings = e.surroundings :=
    Prod.ext (surroundings_cancel e).1 (surroundings_cancel e).2
  rw [← hcancel]
  cases target with
  | element id =>
    show (e.cancel.pressElement id pos modifiers).surroundings = _
    unfold pressElement
    dsimp only
    split_ifs <;> rfl
  | handle id handle =>
    show (e.cancel.pressHandle id handle pos).surroundings = _
    unfold pressHandle
    split <;> rfl
  | canvas => rfl

variable [Scalar α] {β γ : Type} {e e' : Editor α}

theorem Frame.surroundings {pos : Point α} (h : Frame e pos e') :
    e'.surroundings = e.surroundings := by
  cases h <;> rfl

/-- What a reply says of the surroundings: they are as they were, or they are saved. -/
structure Surrounded (e : Editor α) (r : Reply α β) : Prop where
  saved : r.editor.surroundings = e.surroundings ∨ r.saves = true
  inOrder : e.document.labelSize.InOrder → r.editor.document.labelSize.InOrder

theorem surrounded_of_eq {r : Reply α β} (h : r.editor.surroundings = e.surroundings) :
    Surrounded e r := by
  refine ⟨Or.inl h, fun hsize => ?_⟩
  have heq : r.editor.document.labelSize = e.document.labelSize := congrArg Prod.fst h
  rwa [heq]

theorem surrounded_of_saves {r : Reply α β} (hsaves : r.saves = true)
    (hsize : r.editor.document.labelSize.InOrder) : Surrounded e r :=
  ⟨Or.inr hsaves, fun _ => hsize⟩

theorem Surrounded.map {r : Reply α β} (h : Surrounded e r) (f : β → γ) :
    Surrounded e (r.map f) := ⟨h.saved, h.inOrder⟩

theorem surroundings_commitChange (e : Editor α) (value : β) :
    (e.commitChange value).editor.surroundings = e.surroundings := by
  unfold commitChange
  split_ifs <;> rfl

theorem surroundings_moveToTargets (e : Editor α) (targets : List (ElementId × Point α)) :
    (e.moveToTargets targets).editor.surroundings = e.surroundings := by
  unfold moveToTargets
  split_ifs
  · rfl
  · exact surroundings_commitChange _ ()

theorem surroundings_edit [NumberText α] (e : Editor α) {op : Operation α}
    (role : op.role = .edit) : (e.perform op).editor.surroundings = e.surroundings := by
  cases op with
  | add kind patch => rfl
  | update id patch =>
    show (e.update id patch).editor.surroundings = _
    unfold update
    split_ifs
    · exact surroundings_commitChange _ true
    · rfl
  | delete =>
    show e.delete.editor.surroundings = _
    unfold delete
    split_ifs
    · rfl
    · exact surroundings_commitChange _ ()
  | duplicate =>
    show e.duplicate.editor.surroundings = _
    unfold duplicate
    split_ifs
    · rfl
    · exact surroundings_commitChange _ _
  | reorder id how => exact surroundings_commitChange _ ()
  | nudge offset => exact surroundings_commitChange _ ()
  | align alignment => exact surroundings_moveToTargets e _
  | distribute distribution => exact surroundings_moveToTargets e _
  | _ => cases role

theorem surrounded_setLabelSize (e : Editor α) (size : LabelSize α) :
    Surrounded e (e.setLabelSize size) := by
  unfold setLabelSize Document.setLabelSize?
  split_ifs with hvalid
  · exact surrounded_of_saves rfl (Or.inl hvalid)
  · exact surrounded_of_eq rfl

theorem surrounded_applyPreset (e : Editor α) (name : String) :
    Surrounded e (e.applyPreset name) := by
  unfold applyPreset
  split
  · exact (surrounded_setLabelSize e _).map _
  · exact surrounded_of_eq rfl

theorem surrounded_removeVariable (e : Editor α) (key : String) :
    Surrounded e (e.removeVariable key) := by
  unfold removeVariable
  split_ifs
  · exact ⟨Or.inr rfl, id⟩
  · exact surrounded_of_eq rfl

theorem surrounded_pointerUp (e : Editor α) (pos : Point α) (modifiers : Modifiers) :
    Surrounded e (e.pointerUp pos modifiers) := by
  have hmove := (frame_pointerMove e pos modifiers).surroundings
  refine surrounded_of_eq ?_
  unfold pointerUp
  cases hmoved : (e.pointerMove pos modifiers).gesture.hasMoved with
  | true =>
    rw [release_of_hasMoved hmoved]
    exact hmove
  | false =>
    obtain ⟨selection, hrelease⟩ := release_of_still hmoved
    rw [hrelease]
    exact hmove

variable [NumberText α]

theorem surrounded_importTemplate (e : Editor α) (text : String) :
    Surrounded e (e.importTemplate text) := by
  unfold importTemplate
  split
  · exact surrounded_of_eq rfl
  · exact surrounded_of_saves rfl (Document.inOrder_normalize _ _)

/-- **An operation changes the surroundings only if it saves them.** -/
theorem perform_surrounded (e : Editor α) (op : Operation α) : Surrounded e (e.perform op) := by
  cases op with
  | pointerDown target pos modifiers =>
    exact surrounded_of_eq (surroundings_pointerDown e target pos modifiers)
  | pointerMove pos modifiers =>
    exact surrounded_of_eq (frame_pointerMove e pos modifiers).surroundings
  | pointerUp pos modifiers =>
    exact (surrounded_pointerUp e pos modifiers).map fun _ => Outcome.done
  | cancel =>
    exact surrounded_of_eq (Prod.ext (surroundings_cancel e).1 (surroundings_cancel e).2)
  | select | selectAll | clearSelection | measure => exact surrounded_of_eq rfl
  | add | update | delete | duplicate | reorder | nudge | align | distribute =>
    exact surrounded_of_eq (surroundings_edit e rfl)
  | undo =>
    obtain ⟨hsize, hsettings⟩ := surroundings_perform (Or.inl rfl) e
    exact surrounded_of_eq (Prod.ext hsize hsettings)
  | redo =>
    obtain ⟨hsize, hsettings⟩ := surroundings_perform (Or.inr rfl) e
    exact surrounded_of_eq (Prod.ext hsize hsettings)
  | setLabelSize size => exact (surrounded_setLabelSize e size).map Outcome.flag
  | applyPreset name => exact (surrounded_applyPreset e name).map Outcome.ofExcept
  | reset => exact surrounded_of_saves rfl (Or.inr rfl)
  | restore session => exact surrounded_of_saves rfl (Document.inOrder_normalize _ _)
  | importTemplate text => exact (surrounded_importTemplate e text).map Outcome.ofExcept
  | setVariable | setLanguage | setGrid => exact ⟨Or.inr rfl, id⟩
  | removeVariable key => exact (surrounded_removeVariable e key).map Outcome.flag
  | setZoom zoom =>
    refine surrounded_of_eq ?_
    show (e.setZoom zoom).surroundings = _
    unfold setZoom
    split_ifs <;> rfl

/-! ### Runs that a restart may follow -/

/-- An operation that changes elements and settings at rest only. -/
def AtRest (e : Editor α) (op : Operation α) : Prop :=
  op.role = .edit ∨ op.role = .setting → e.gesture.isIdle = true

instance (e : Editor α) (op : Operation α) : Decidable (AtRest e op) :=
  inferInstanceAs (Decidable (_ → _))

omit [Scalar α] [NumberText α] in
theorem AtRest.orderly {op : Operation α} (h : AtRest e op) : Orderly e op :=
  fun role => h (Or.inl role)

theorem AtRest.not_premature {op : Operation α} (h : AtRest e op) (hsettled : Settled e) :
    ¬ Premature e op := by
  intro hpre
  have hmoved := hsettled.hasMoved_of_premature hpre
  rw [Gesture.eq_idle_of_isIdle (h (Or.inr hpre.1))] at hmoved
  cases hmoved

/-- What a restart relies on: the gesture keeps the current snapshot, the ids are distinct, and the
label size is in order. -/
structure Sound (e : Editor α) : Prop where
  settled : Settled e
  distinct : Everywhere Distinct e
  size : e.document.labelSize.InOrder

omit [NumberText α] in
theorem sound_openStored {stored : Except Error (Option (Session α))} {supply : IdSupply}
    (h : OpensFresh stored supply) : Sound (openStored stored supply) := by
  refine ⟨settled_openStored stored supply, everywhere_distinct_openStored h, ?_⟩
  unfold openStored
  split <;> exact Document.inOrder_normalize _ _

theorem sound_perform {op : Operation α} (h : Sound e) (hfresh : TakesFresh e op)
    (hrest : AtRest e op) : Sound (e.perform op).editor where
  settled := settled_perform h.settled hrest.orderly.not_strays
  distinct := everywhere_distinct_perform h.distinct hfresh
  size := (perform_surrounded e op).inOrder h.size

/-- What is not saved leaves the history as it was. -/
theorem history_of_not_saves {op : Operation α} (h : (e.perform op).saves = false) :
    (e.perform op).editor.history = e.history := by
  cases perform_effect e op with
  | edit role edited =>
    rcases edited.outcome with kept | committed
    · exact kept.history
    · rw [committed.saves] at h
      cases h
  | commit role committed => rw [committed.saves] at h; cases h
  | travel role elements history idle saves => rw [saves] at h; cases h
  | replace role history idle saves => rw [saves] at h; cases h
  | frame role framed => exact framed.history
  | view _ _ history | setting _ _ history | press _ _ history | click _ _ _ history =>
    exact history

/-! ### Elements that count as equal -/

section
variable [PartialEquivBEq α] {els els' els'' : List (Element α)}

omit [NumberText α]

theorem Same.symm (h : Same els els') : Same els' els :=
  h.imp Eq.symm PartialEquivBEq.symm

theorem Same.trans (h : Same els els') (h' : Same els' els'') : Same els els'' := by
  rcases h with rfl | htest
  · exact h'
  · rcases h' with rfl | htest'
    · exact Or.inr htest
    · exact Or.inr (PartialEquivBEq.trans htest htest')

end

end Editor

/-! ### The store -/

/-- Sessions that a store takes: a file takes those that a text can hold. -/
def Store.Takes [Scalar α] [NumberText α] : Store α → Session α → Prop
  | .memory _, _ => True
  | .file _, s => s.Portable

variable [Scalar α] [NumberText α]

instance [DecidableEq α] : (store : Store α) → (s : Session α) → Decidable (store.Takes s)
  | .memory _, _ => inferInstanceAs (Decidable True)
  | .file _, s => inferInstanceAs (Decidable s.Portable)

namespace Store

theorem load_save {store : Store α} {s : Session α} (h : store.Takes s) :
    (store.save s).load = .ok (some s) := by
  cases store with
  | memory session => rfl
  | file text =>
    simp only [save, load, Session.parse_text h]
    rfl

/-- A store stays of its kind. -/
theorem takes_save (store : Store α) (s s' : Session α) :
    (store.save s).Takes s' ↔ store.Takes s' := by
  cases store <;> exact Iff.rfl

/-- A store holds what a restart needs of an editor: label size, settings, and the current snapshot.
-/
def Holds (store : Store α) (e : Editor α) : Prop :=
  ∃ s, store.load = .ok (some s) ∧ (s.document.labelSize, s.settings) = e.surroundings ∧
    Editor.Same s.document.elements e.history.current

/-- Nothing is lost while neither the surroundings nor the history change. -/
theorem Holds.mono {store : Store α} {e e' : Editor α} (h : store.Holds e)
    (hsurroundings : e'.surroundings = e.surroundings) (hhistory : e'.history = e.history) :
    store.Holds e' := by
  obtain ⟨s, hload, hs, hsame⟩ := h
  exact ⟨s, hload, hs.trans hsurroundings.symm, hhistory ▸ hsame⟩

end Store

/-- An operation of a run that a restart may follow: the ids that it takes are new, it changes
elements and settings at rest only, and the store takes what it saves. -/
structure Editor.Regular (store : Store α) (e : Editor α) (op : Operation α) : Prop where
  fresh : e.TakesFresh op
  rest : e.AtRest op
  takes : ∀ s ∈ (e.perform op).saved?, store.Takes s

instance [DecidableEq α] (store : Store α) (e : Editor α) (op : Operation α) :
    Decidable (e.Regular store op) :=
  decidable_of_iff
    (e.TakesFresh op ∧ e.AtRest op ∧ ∀ s ∈ (e.perform op).saved?, store.Takes s)
    ⟨fun ⟨fresh, rest, takes⟩ => ⟨fresh, rest, takes⟩, fun h => ⟨h.fresh, h.rest, h.takes⟩⟩

/-- An editor that goes on from where another one was, with nothing selected and nothing to undo or
redo. -/
structure Editor.Resumes (e e' : Editor α) : Prop where
  labelSize : e'.document.labelSize = e.document.labelSize
  elements : Same e'.elements e.elements
  ids : e'.document.ids = e.document.ids
  settings : e'.settings = e.settings
  selection : e'.selection = StringMap.empty
  history : e'.history = History.of e'.elements
  gesture : e'.gesture = .idle

/-- What opens on a store that holds what a restart needs resumes, if the editor was at rest. -/
theorem Store.Holds.resumes [PartialEquivBEq α] {store : Store α} {e : Editor α}
    (h : store.Holds e) (hsound : e.Sound) (hidle : e.gesture.isIdle = true) (supply : IdSupply) :
    e.Resumes (Editor.openStored store.load supply) := by
  obtain ⟨s, hload, hs, hsame⟩ := h
  have hsize : s.document.labelSize = e.document.labelSize := congrArg Prod.fst hs
  have hsettings : s.settings = e.settings := congrArg Prod.snd hs
  have hcurrent : Editor.Same e.elements e.history.current := by
    refine hsound.settled.elements ?_
    rw [Gesture.eq_idle_of_isIdle hidle]
    rfl
  have helements : Editor.Same s.document.elements e.elements := hsame.trans hcurrent.symm
  have hids : s.document.ids = e.document.ids := helements.ids_eq
  have hdistinct : DistinctIds s.document.ids := by
    rw [hids]
    exact hsound.distinct.elements
  -- what was saved is in order, so that opening does not change it
  have hnormal := Document.normalize_of_distinct (hsize ▸ hsound.size) hdistinct supply
  have hdocument : (Editor.ofSession s supply).document = s.document := congrArg Prod.fst hnormal
  have hopened : Editor.openStored store.load supply = Editor.ofSession s supply := by
    rw [hload]
    rfl
  rw [hopened]
  refine ⟨by rw [hdocument, hsize], ?_, by rw [hdocument, hids], hsettings, rfl, rfl, rfl⟩
  rwa [Editor.elements, hdocument]

namespace Workspace

open Editor

variable {w : Workspace α} {op : Operation α} {ops : List (Operation α)}

theorem perform_of_saves (hwriter : w.writer = none) (h : (w.editor.perform op).saves = true) :
    (w.perform op).1 = {
      editor := (w.editor.perform op).editor
      store := w.store.save (w.editor.perform op).editor.session
      writer := none } := by
  obtain ⟨e, store, writer⟩ := w
  obtain rfl := hwriter
  simp only [perform, after, Reply.saved?, h]
  rfl

/-- What an operation saves goes to the store at once, and it is what a restart needs; what it does
not save leaves the store right. -/
theorem holds_perform (hwriter : w.writer = none) (hsound : Sound w.editor)
    (hop : w.editor.Regular w.store op)
    (h : w.store.Holds w.editor ∨ (w.editor.perform op).saves = true) :
    (w.perform op).1.store.Holds (w.perform op).1.editor := by
  cases hsaves : (w.editor.perform op).saves with
  | true =>
    rw [perform_of_saves hwriter hsaves]
    have hcurrent := (savesSnapshot_of_saves hsaves).mp
      ((savesSnapshot_iff w.editor op).mpr (hop.rest.not_premature hsound.settled))
    refine ⟨_, Store.load_save (hop.takes _ ?_), rfl, hcurrent⟩
    rw [Reply.saved?, if_pos hsaves]
    rfl
  | false =>
    rw [perform_of_not_saves hsaves]
    have hheld := h.resolve_right (by rw [hsaves]; exact Bool.false_ne_true)
    have hsurroundings := (perform_surrounded w.editor op).saved.resolve_right
      (by rw [hsaves]; exact Bool.false_ne_true)
    exact hheld.mono hsurroundings (history_of_not_saves hsaves)

theorem writer_perform (hwriter : w.writer = none) : (w.perform op).1.writer = none := by
  cases hsaves : (w.editor.perform op).saves with
  | true => rw [perform_of_saves hwriter hsaves]
  | false => rwa [perform_of_not_saves hsaves]

theorem editor_perform (w : Workspace α) (op : Operation α) :
    (w.perform op).1.editor = (w.editor.perform op).editor := editor_performAll w [op]

theorem regular_perform (w : Workspace α) (op : Operation α) (e : Editor α) (op' : Operation α) :
    e.Regular w.store op' ↔ e.Regular (w.perform op).1.store op' := by
  have htakes : ∀ s, (w.perform op).1.store.Takes s ↔ w.store.Takes s := by
    intro s
    unfold perform after
    dsimp only
    split
    · unfold save
      split
      · exact Store.takes_save _ _ s
      · exact Iff.rfl
    · exact Iff.rfl
  constructor
  · exact fun h => ⟨h.fresh, h.rest, fun s hs => (htakes s).mpr (h.takes s hs)⟩
  · exact fun h => ⟨h.fresh, h.rest, fun s hs => (htakes s).mp (h.takes s hs)⟩

/-- From the first save of a run on, the store holds what a restart needs. -/
theorem holds_performAll (hwriter : w.writer = none) (hsound : Sound w.editor)
    (hops : Throughout (Regular w.store) w.editor ops)
    (h : w.store.Holds w.editor ∨ ∃ r ∈ w.editor.replies ops, r.saves = true) :
    (w.performAll ops).store.Holds (w.performAll ops).editor := by
  induction ops generalizing w with
  | nil => exact h.resolve_right fun ⟨_, hr, _⟩ => List.not_mem_nil hr
  | cons op ops ih =>
    obtain ⟨hop, hrest⟩ := hops
    have heditor := editor_perform w op
    have hstep : Sound (w.perform op).1.editor :=
      heditor ▸ sound_perform hsound hop.fresh hop.rest
    refine ih (writer_perform hwriter) hstep ?_ ?_
    · rw [heditor]
      exact (throughout_congr (regular_perform w op)).mp hrest
    · rcases h with hheld | ⟨r, hr, hsaves⟩
      · exact Or.inl (holds_perform hwriter hsound hop (Or.inl hheld))
      · rcases List.mem_cons.mp hr with rfl | hr
        · exact Or.inl (holds_perform hwriter hsound hop (Or.inr hsaves))
        · exact Or.inr ⟨r, heditor.symm ▸ hr, hsaves⟩

/-- **A restart goes on from where the editor was.** After every run that changes elements and
settings at rest only, takes ids that are new, and has saved something, an editor at rest is resumed
by whatever opens next on the store: label size and settings are the same, and so are the elements
by the test of the program, ids and order included. The store is one in memory, or a file that takes
what is saved. -/
theorem resumes_after [PartialEquivBEq α] {store : Store α} {supply : IdSupply}
    (hopen : OpensFresh store.load supply)
    (hops : Throughout (Regular store) (openStored store.load supply) ops)
    (hsaved : ∃ r ∈ (openStored store.load supply).replies ops, r.saves = true)
    (hidle : ((ofStore store false supply).performAll ops).editor.gesture.isIdle = true)
    (supply' : IdSupply) :
    ((ofStore store false supply).performAll ops).editor.Resumes
      (openStored ((ofStore store false supply).performAll ops).store.load supply') := by
  have hsound : Sound ((ofStore store false supply).performAll ops).editor := by
    rw [editor_performAll]
    exact invariant_after (fun h hop => sound_perform h hop.fresh hop.rest)
      (sound_openStored hopen) hops
  have hheld := holds_performAll (w := ofStore store false supply) rfl (sound_openStored hopen)
    hops (Or.inr hsaved)
  exact hheld.resumes hsound hidle supply'

/-- A session restored, a drag that is given up, a box added, another drag, and a language chosen.
-/
def dragAndAdd : List (Operation Rat) := [
  .restore Editor.oneBox,
  .pointerDown (.element "a") ⟨0, 0⟩ ⟨false, false⟩, .pointerMove ⟨40, 0⟩ ⟨false, false⟩, .undo,
  .add .box .empty,
  .pointerDown (.element "a") ⟨0, 0⟩ ⟨false, false⟩, .pointerUp ⟨40, 0⟩ ⟨false, false⟩,
  .setLanguage .zpl]

/-- A file holds all of it, starting from none. -/
theorem resumes_after_drag_and_add :
    ((ofStore (.file none) false (.numbered 0)).performAll dragAndAdd).editor.Resumes
      (openStored ((ofStore (.file none) false (.numbered 0)).performAll dragAndAdd).store.load
        (.numbered 9)) :=
  resumes_after (by decide +kernel) (by decide +kernel) (by decide +kernel) (by decide +kernel) _

end Workspace

end ThermalLabel

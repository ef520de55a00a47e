import ThermalLabel.Proofs.Editor.Targets
import ThermalLabel.Proofs.Element.Patches

/-! # Edits of one axis

Position and size are set in pairs, and both numbers of a pair are put within their bound. So an
edit that is about one of the two leaves the other one as it is, if that is within its bound; if it
is not, as it may be in an element that comes from outside, it is put on its bound
(`Quantity.HeldTo`).
This holds of patches that name one number of a pair and of resizes by the right or the bottom edge
(`Editor.one_axis_edits`). -/

namespace ThermalLabel

/-! ### Options compared -/

section
variable {β γ δ : Type}

theorem optionRel_refl {R : β → β → Prop} (h : ∀ b, R b b) (o : Option β) : Option.Rel R o o := by
  cases o with
  | none => exact .none
  | some b => exact .some (h b)

theorem optionRel_map {R : γ → δ → Prop} {f : β → γ} {g : β → δ} {o : Option β}
    (h : ∀ b ∈ o, R (f b) (g b)) : Option.Rel R (o.map f) (o.map g) := by
  cases o with
  | none => exact .none
  | some b => exact .some (h b rfl)

end

variable {α : Type} [Scalar α]

/-! ### Numbers and their partners -/

/-- The numbers that tell where an element lies and how large it is. -/
inductive Quantity where
  | x
  | y
  | width
  | height
deriving DecidableEq

namespace Quantity

/-- The other number of the pair. -/
def partner : Quantity → Quantity
  | .x => .y
  | .y => .x
  | .width => .height
  | .height => .width

/-- The number of an element; texts have no stored size. -/
def of? (q : Quantity) (e : Element α) : Option α :=
  match q with
  | .x => some e.x
  | .y => some e.y
  | .width => e.size?.map Size.width
  | .height => e.size?.map Size.height

/-- What a patch names for the number. -/
def named? (q : Quantity) (p : Patch α) : Option α :=
  match q with
  | .x => p.x
  | .y => p.y
  | .width => p.width
  | .height => p.height

/-- Coordinates are not negative, and sides at least one millimetre. -/
def bound (q : Quantity) : α :=
  match q with
  | .x | .y => Scalar.zero
  | .width | .height => Scalar.one

/-- A number before and after its partner is changed. Over floating-point numbers the zero that a
negative zero becomes is equal to it. -/
structure HeldTo (bound : α) (changed : Prop) (v v' : α) : Prop where
  unchanged : ¬ changed → v' = v
  inside : Scalar.le bound v = true → (v' == v) = true
  outside : changed → Scalar.le bound v = false → v' = bound

/-- An element before and after the partner of a number is changed. -/
def Spared (q : Quantity) (changed : Prop) (e e' : Element α) : Prop :=
  Option.Rel (HeldTo q.bound changed) (q.of? e) (q.of? e')

end Quantity

/-- The side that a handle is not about. -/
def Handle.spared? : Handle → Option Quantity
  | .e => some .height
  | .s => some .width
  | .se => none

namespace Quantity

variable {bound : α} {changed : Prop}

/-! ### Numbers held to a bound -/

theorem heldTo_refl (hbound : Scalar.IsBound bound) (hchanged : ¬ changed) (v : α) :
    HeldTo bound changed v v :=
  ⟨fun _ => rfl, hbound.comparable v, fun h => absurd h hchanged⟩

theorem heldTo_max (hbound : Scalar.IsBound bound) (hchanged : changed) (v : α) :
    HeldTo bound changed v (Scalar.max v bound) :=
  ⟨fun h => absurd hchanged h, hbound.within v, fun _ => hbound.below v⟩

/-- The first number of a pair, if a patch may name the second one only. -/
theorem heldTo_fst_held (hbound : Scalar.IsBound bound) (named : Option α) (pair : α × α) :
    HeldTo bound (named.isSome = true) pair.1 (Patch.held bound none named pair).1 := by
  cases named with
  | none => exact heldTo_refl hbound nofun pair.1
  | some w => exact heldTo_max hbound rfl pair.1

/-- The second number of a pair, if a patch may name the first one only. -/
theorem heldTo_snd_held (hbound : Scalar.IsBound bound) (named : Option α) (pair : α × α) :
    HeldTo bound (named.isSome = true) pair.2 (Patch.held bound named none pair).2 := by
  cases named with
  | none => exact heldTo_refl hbound nofun pair.2
  | some w => exact heldTo_max hbound rfl pair.2

variable [BoundedScalar α]

theorem isBound_bound : (q : Quantity) → Scalar.IsBound (q.bound : α)
  | .x | .y => BoundedScalar.zero
  | .width | .height => BoundedScalar.one

theorem spared_refl (q : Quantity) (hchanged : ¬ changed) (e : Element α) :
    q.Spared changed e e :=
  optionRel_refl (heldTo_refl q.isBound_bound hchanged) (q.of? e)

end Quantity

open Quantity (Spared)

/-! ### Elements -/

theorem Patch.size?_apply (p : Patch α) (e : Element α) :
    (p.apply e).size? = e.size?.map p.size := by
  obtain ⟨id, x, y, body, extra⟩ := e
  rw [apply_eq]
  cases body <;> rfl

theorem Element.size?_resize (e : Element α) (size : Size α) :
    (e.resize size).size? = e.size?.map fun _ =>
      ⟨Scalar.max size.width Scalar.one, Scalar.max size.height Scalar.one⟩ := by
  obtain ⟨id, x, y, body, extra⟩ := e
  cases body <;> rfl

variable [BoundedScalar α]

/-- **A patch spares a number that it does not name.** -/
theorem Patch.spared_apply {p : Patch α} {q : Quantity} (hunnamed : q.named? p = none)
    (e : Element α) : q.Spared ((q.partner.named? p).isSome = true) e (p.apply e) := by
  unfold Spared
  cases q with
  | x =>
    rw [apply_eq]
    refine .some ?_
    rw [position, show p.x = none from hunnamed]
    exact Quantity.heldTo_fst_held BoundedScalar.zero p.y (e.x, e.y)
  | y =>
    rw [apply_eq]
    refine .some ?_
    rw [position, show p.y = none from hunnamed]
    exact Quantity.heldTo_snd_held BoundedScalar.zero p.x (e.x, e.y)
  | width =>
    rw [Quantity.of?, Quantity.of?, size?_apply, Option.map_map]
    refine optionRel_map fun size _ => ?_
    rw [Function.comp_apply, Patch.size, show p.width = none from hunnamed]
    exact Quantity.heldTo_fst_held BoundedScalar.one p.height (size.width, size.height)
  | height =>
    rw [Quantity.of?, Quantity.of?, size?_apply, Option.map_map]
    refine optionRel_map fun size _ => ?_
    rw [Function.comp_apply, Patch.size, show p.height = none from hunnamed]
    exact Quantity.heldTo_snd_held BoundedScalar.one p.width (size.width, size.height)

/-- A resize spares the side that its handle is not about, if it starts from the size that the
element has. -/
theorem Element.spared_resize {e : Element α} {initial : Size α} (hsize : e.size? = some initial)
    {handle : Handle} {q : Quantity} (hspared : handle.spared? = some q) (delta : Point α)
    (grid : Option α) {changed : Prop} (hchanged : changed) :
    q.Spared changed e (e.resize (Gesture.resized initial handle delta grid)) := by
  unfold Spared
  cases handle with
  | e =>
    cases hspared
    rw [Quantity.of?, Quantity.of?, size?_resize, hsize]
    exact .some (Quantity.heldTo_max BoundedScalar.one hchanged initial.height)
  | s =>
    cases hspared
    rw [Quantity.of?, Quantity.of?, size?_resize, hsize]
    exact .some (Quantity.heldTo_max BoundedScalar.one hchanged initial.width)
  | se => cases hspared

/-! ### Sequences -/

omit [Scalar α] [BoundedScalar α] in
theorem Sequence.find?_modify {f : Element α → Element α} (hid : ∀ e, (f e).id = e.id)
    (id : ElementId) (els : List (Element α)) :
    find? (modify f id els) id = (find? els id).map f := by
  induction els with
  | nil => rfl
  | cons e rest ih =>
    rw [modify]
    unfold find? at ih ⊢
    split_ifs with hfound <;> simp [hid, hfound, ih]

namespace Editor

variable {e : Editor α}

/-! ### Updates -/

omit [BoundedScalar α] in
theorem find?_update (e : Editor α) (id : ElementId) (patch : Patch α) :
    (e.update id patch).editor.document.find? id = (e.document.find? id).map patch.apply := by
  unfold Document.find?
  show Sequence.find? (e.update id patch).editor.elements id = _
  unfold update
  split_ifs with hfound
  · rw [elements_commitChange]
    exact Sequence.find?_modify patch.id_apply id e.elements
  · have hnone : Sequence.find? e.document.elements id = none := by
      rwa [Document.contains, Bool.not_eq_true, Option.isSome_eq_false_iff,
        Option.isNone_iff_eq_none] at hfound
    rw [hnone]
    exact hnone

theorem spared_update (e : Editor α) (id : ElementId) {patch : Patch α} {q : Quantity}
    (hunnamed : q.named? patch = none) :
    Option.Rel (q.Spared ((q.partner.named? patch).isSome = true)) (e.document.find? id)
      ((e.update id patch).editor.document.find? id) := by
  rw [find?_update]
  cases e.document.find? id with
  | none => exact .none
  | some el => exact .some (Patch.spared_apply hunnamed el)

/-! ### Resizes -/

omit [Scalar α] [BoundedScalar α] in
/-- A press on a handle begins a resize from the size of the element, if it has one. -/
theorem pressHandle_cases (e : Editor α) (id : ElementId) (handle : Handle) (pos : Point α) :
    e.pressHandle id handle pos = e ∨
      ∃ r, (e.pressHandle id handle pos).gesture = .resizing r ∧
        (e.pressHandle id handle pos).document = e.document ∧ r.id = id ∧ r.handle = handle ∧
        (e.document.find? id).bind Element.size? = some r.initial := by
  unfold pressHandle
  split
  · exact .inl rfl
  · rename_i hsize
    exact .inr ⟨_, rfl, rfl, rfl, rfl, hsize⟩

/-- A frame of a resize spares the side that its handle is not about, if the resize began with the
size that the element has now. -/
theorem spared_frameAt {r : Resize α} (hr : e.gesture = .resizing r)
    (hsize : (e.document.find? r.id).bind Element.size? = some r.initial) {q : Quantity}
    (hspared : r.handle.spared? = some q) (pos : Point α) (modifiers : Modifiers) {changed : Prop}
    (hchanged : changed) :
    Option.Rel (q.Spared changed) (e.document.find? r.id)
      ((e.frameAt pos modifiers).document.find? r.id) := by
  rw [frameAt, hr]
  show Option.Rel _ _ (Sequence.find? (Sequence.modify _ r.id e.elements) r.id)
  rw [Sequence.find?_modify fun el => el.id_resize _]
  change Option.Rel _ _ ((e.document.find? r.id).map _)
  cases hfound : e.document.find? r.id with
  | none => exact .none
  | some el =>
    rw [hfound] at hsize
    exact .some (Element.spared_resize hsize hspared _ _ hchanged)

variable [NumberText α]

omit [BoundedScalar α] in
/-- A gesture that has moved is where its last frame has left it. -/
theorem exists_frameAt_of_hasMoved (hstill : e.gesture.hasMoved = false)
    {moves : List (Point α × Modifiers)}
    (hmoved : (e.after (frames moves)).gesture.hasMoved = true) :
    ∃ pos modifiers, e.after (frames moves) = e.frameAt pos modifiers := by
  have hnot : e.after (frames moves) ≠ e := by
    intro hsame
    rw [hsame, hstill] at hmoved
    cases hmoved
  rcases moves.eq_nil_or_concat' with rfl | ⟨moves, move, rfl⟩
  · exact absurd rfl hnot
  · exact ⟨_, _, (after_frames_cases e moves move).resolve_left hnot⟩

/-- Frames of a resize spare the side that its handle is not about. -/
theorem spared_frames (e : Editor α) (id : ElementId) (handle : Handle) (start : Point α)
    (pressed : Modifiers) (moves : List (Point α × Modifiers)) {q : Quantity}
    (hspared : handle.spared? = some q) :
    let last := (e.pointerDown (.handle id handle) start pressed).after (frames moves)
    Option.Rel (q.Spared (last.gesture.hasMoved = true)) (e.cancel.document.find? id)
      (last.document.find? id) := by
  have hpressed := pressed_pointerDown e (.handle id handle) start pressed
  intro last
  by_cases hmoved : last.gesture.hasMoved = true
  · obtain ⟨pos, modifiers, hlast⟩ := exists_frameAt_of_hasMoved hpressed.still hmoved
    change last = (e.cancel.pressHandle id handle start).frameAt pos modifiers at hlast
    rw [hlast] at hmoved ⊢
    rcases e.cancel.pressHandle_cases id handle start with
      hcancel | ⟨r, hr, hdocument, rfl, rfl, hsize⟩
    · -- an element without a size has no handles
      rw [hcancel, frameAt, gesture_cancel] at hmoved
      rw [gesture_cancel] at hmoved
      cases hmoved
    · rw [← hdocument] at hsize ⊢
      exact spared_frameAt hr hsize hspared pos modifiers hmoved
  · have hsame := (framed_frames moves).elements (Bool.eq_false_iff.mpr hmoved)
    rw [hpressed.elements] at hsame
    rw [Document.find?, Document.find?, ← elements, ← elements, hsame]
    exact optionRel_refl (q.spared_refl hmoved) _

/-- **Edits of one axis leave the other axis alone**, unless it is out of its bound: an update that
does not name a number, and a resize by the right or the bottom edge, in each of its frames and when
it is over. -/
theorem one_axis_edits (e : Editor α) :
    (∀ (id : ElementId) (patch : Patch α) (q : Quantity), q.named? patch = none →
      Option.Rel (q.Spared ((q.partner.named? patch).isSome = true)) (e.document.find? id)
        ((e.update id patch).editor.document.find? id)) ∧
    ∀ (s : Stroke α) (id : ElementId) (handle : Handle) (q : Quantity),
      s.target = .handle id handle → handle.spared? = some q →
        (∀ moves, let last := (e.pointerDown s.target s.start s.pressed).after (frames moves)
          Option.Rel (q.Spared (last.gesture.hasMoved = true)) (e.cancel.document.find? id)
            (last.document.find? id)) ∧
        Option.Rel (q.Spared (s.Moves e)) (e.cancel.document.find? id)
          ((e.after s.ops).document.find? id) := by
  refine ⟨fun id patch q hunnamed => spared_update e id hunnamed,
    fun s id handle q htarget hspared => ?_⟩
  have hframes := fun moves => spared_frames e id handle s.start s.pressed moves hspared
  rw [← htarget] at hframes
  refine ⟨hframes, ?_⟩
  have hlast := hframes (s.moves ++ [(s.finish, s.released)])
  dsimp only at hlast
  rw [Document.find?, Document.find?, ← elements, ← elements] at hlast ⊢
  rw [propext s.hasMoved_iff] at hlast
  rwa [s.after_ops, elements_release]

/-- A session with a box that lies above the label and is thinner than a millimetre. -/
def thinBox : Session Float where
  document := ⟨LabelSize.standard,
    [⟨"a", Scalar.ofNat 10, -Scalar.ofNat 3,
      .box ⟨Scalar.ofNat 20, Scalar.half Scalar.one, Scalar.one⟩, StringMap.empty⟩]⟩
  settings := Settings.standard

/-- An editor with the thin box. -/
def withThinBox : Editor Float := openStored (.ok (some thinBox)) (.numbered 0)

/-- The right edge of the box pulled by ten millimetres. -/
def widening : Stroke Float where
  target := .handle "a" .e
  start := ⟨Scalar.zero, Scalar.zero⟩
  pressed := ⟨false, false⟩
  moves := []
  finish := ⟨Scalar.ofNat 40, Scalar.zero⟩
  released := ⟨false, false⟩

/-- An editor with the thin box put on the label and made two millimetres high. -/
def withPlacedBox : Editor Float :=
  (withThinBox.update "a" { y := some (Scalar.ofNat 3), height := some (Scalar.ofNat 2) }).editor

/-- The number of the first element. -/
def first (q : Quantity) (e : Editor Float) : Option Float := e.elements.head?.bind q.of?

/-- A box within its bounds is moved along one axis and widened, and keeps its other coordinate and
its height. -/
theorem placed_box_spared :
    let patch : Patch Float := { x := some (Scalar.ofNat 5) }
    let moved := (withPlacedBox.update "a" patch).editor
    let widened := withPlacedBox.after widening.ops
    (Option.Rel (Quantity.y.Spared ((Quantity.x.named? patch).isSome = true))
        (withPlacedBox.document.find? "a") (moved.document.find? "a") ∧
      first .x moved = some (Scalar.ofNat 5) ∧ first .y moved = some (Scalar.ofNat 3)) ∧
    Option.Rel (Quantity.height.Spared (widening.Moves withPlacedBox))
        (withPlacedBox.cancel.document.find? "a") (widened.document.find? "a") ∧
      first .width widened = some (Scalar.ofNat 30) ∧
      first .height widened = some (Scalar.ofNat 2) := by
  intro patch moved widened
  obtain ⟨hupdates, hstrokes⟩ := one_axis_edits withPlacedBox
  refine ⟨⟨hupdates "a" patch .y rfl, ?_⟩, (hstrokes widening "a" .e .height rfl rfl).2, ?_⟩
  all_goals decide +kernel

/-- A box out of its bounds is moved along one axis, and its other coordinate is put on the bound;
it is widened, and its height is put on the bound. -/
theorem thin_box_not_spared :
    Reachable withThinBox ∧ withThinBox.gesture.isIdle = true ∧
      first .y withThinBox = some (-Scalar.ofNat 3) ∧
      first .y (withThinBox.update "a" { x := some (Scalar.ofNat 5) }).editor =
        some Scalar.zero ∧
      first .height withThinBox = some (Scalar.half Scalar.one) ∧
      first .height (withThinBox.after widening.ops) = some Scalar.one := by
  refine ⟨⟨_, _, [], rfl⟩, ?_⟩
  decide +kernel

end Editor

end ThermalLabel

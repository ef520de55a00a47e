import Mathlib.Data.List.Forall2
import ThermalLabel.Proofs.Session.Proper

/-! # What a change leaves of an element

A displaced element differs in its position, a resized one in its size, and kindred elements may
differ in all but id, kind and unknown members. A sequence is changed where a condition holds if its
elements are changed one by one, and all others stay as they are (`Sequence.ChangedWhere`). Moves,
frames of a gesture and patches are of this kind; copies lie on top of what is copied. -/

namespace ThermalLabel

variable {α : Type}

namespace Element

/-- An element that may differ in its position only. -/
def Displaced (e e' : Element α) : Prop := e' = { e with x := e'.x, y := e'.y }

/-- An element that may differ in the width and height of its body only. -/
def Resized (e e' : Element α) : Prop := ∃ size, e' = { e with body := e.body.withSize size }

/-- An element that may differ in all that a patch can name. -/
structure Kindred (e e' : Element α) : Prop where
  id : e'.id = e.id
  kind : e'.kind = e.kind
  extra : e'.extra = e.extra

variable {e e' e'' : Element α}

theorem kindred_refl (e : Element α) : Kindred e e := ⟨rfl, rfl, rfl⟩

theorem Kindred.trans (h : Kindred e e') (h' : Kindred e' e'') : Kindred e e'' :=
  ⟨h'.id.trans h.id, h'.kind.trans h.kind, h'.extra.trans h.extra⟩

theorem displaced_refl (e : Element α) : Displaced e e := rfl

theorem Displaced.kindred (h : Displaced e e') : Kindred e e' := by
  rw [Displaced] at h
  rw [h]
  exact ⟨rfl, rfl, rfl⟩

theorem resized_refl (e : Element α) : Resized e e := by
  obtain ⟨id, x, y, body, extra⟩ := e
  cases body
  case text t => exact ⟨⟨x, x⟩, rfl⟩
  case qrcode q => exact ⟨⟨q.width, q.height⟩, rfl⟩
  case barcode b => exact ⟨⟨b.width, b.height⟩, rfl⟩
  case box b => exact ⟨⟨b.width, b.height⟩, rfl⟩

theorem Resized.kindred (h : Resized e e') : Kindred e e' := by
  obtain ⟨size, rfl⟩ := h
  exact ⟨rfl, kind_withSize e.body size, rfl⟩

variable [Scalar α]

theorem displaced_moveTo (e : Element α) (p : Point α) : Displaced e (e.moveTo p) := rfl

theorem resized_resize (e : Element α) (size : Size α) : Resized e (e.resize size) := ⟨_, rfl⟩

theorem kindred_apply (patch : Patch α) (e : Element α) : Kindred e (patch.apply e) := by
  have hposition : Kindred e (patch.applyPosition e) := by
    unfold Patch.applyPosition
    split_ifs
    · exact (displaced_moveTo e _).kindred
    · exact kindred_refl e
  have hsize (e : Element α) : Kindred e (patch.applySize e) := by
    unfold Patch.applySize
    split
    · split_ifs
      · exact (resized_resize e _).kindred
      · exact kindred_refl e
    · exact kindred_refl e
  exact (hposition.trans (hsize _)).trans ⟨rfl, kind_applyBody patch _, rfl⟩

/-- An element that differs in its id, and lies away from the other by a displacement, no coordinate
being negative. -/
def CopiedBy (dx dy : α) (e e' : Element α) : Prop :=
  e' = { e with
    id := e'.id, x := Scalar.max (e.x + dx) Scalar.zero, y := Scalar.max (e.y + dy) Scalar.zero }

end Element

namespace Sequence

open Element

variable {R : Element α → Element α → Prop} {target target' : Element α → Prop}
  {els els' : List (Element α)}

/-! ### Changes in place -/

/-- A sequence whose elements are changed one by one, and only where a condition holds. -/
def ChangedWhere (target : Element α → Prop) (R : Element α → Element α → Prop)
    (els els' : List (Element α)) : Prop :=
  List.Forall₂ (fun e e' => R e e' ∧ (¬ target e → e' = e)) els els'

theorem changedWhere_refl (hR : ∀ e, R e e) (els : List (Element α)) :
    ChangedWhere target R els els :=
  List.forall₂_same.mpr fun e _ => ⟨hR e, fun _ => rfl⟩

theorem ChangedWhere.mono (h : ChangedWhere target R els els')
    (hsub : ∀ e, target e → target' e) : ChangedWhere target' R els els' :=
  h.imp fun e _ h => ⟨h.1, fun hother => h.2 fun ht => hother (hsub e ht)⟩

theorem changedWhere_map {f : Element α → Element α} (hf : ∀ e ∈ els, R e (f e))
    (hstay : ∀ e ∈ els, ¬ target e → f e = e) : ChangedWhere target R els (els.map f) :=
  List.forall₂_map_right_iff.mpr
    (List.forall₂_same.mpr fun e he => ⟨hf e he, hstay e he⟩)

theorem changedWhere_modify {f : Element α → Element α} (hR : ∀ e, R e e) (hf : ∀ e, R e (f e))
    (id : ElementId) (els : List (Element α)) :
    ChangedWhere (fun e => e.id = id) R els (modify f id els) := by
  induction els with
  | nil => exact .nil
  | cons e rest ih =>
    unfold modify
    split_ifs with hid
    · exact .cons ⟨hf e, fun hother => absurd (eq_of_beq hid) hother⟩ (changedWhere_refl hR rest)
    · exact .cons ⟨hR e, fun _ => rfl⟩ ih

/-- A sequence changed in place: the ids stay, in drawing order, and the elements are changed one by
one, and only where a condition holds. -/
structure InPlace (target : Element α → Prop) (R : Element α → Element α → Prop)
    (els els' : List (Element α)) : Prop where
  ids : Sequence.ids els' = Sequence.ids els
  each : ChangedWhere target R els els'

theorem ids_eq_of_kindred (h : List.Forall₂ Kindred els els') : ids els' = ids els := by
  induction h with
  | nil => rfl
  | cons hfirst _ ih =>
    simp only [ids, List.map_cons] at ih ⊢
    rw [hfirst.id, ih]

theorem ChangedWhere.inPlace (h : ChangedWhere target R els els')
    (hR : ∀ {e e'}, R e e' → Kindred e e') : InPlace target R els els' :=
  ⟨ids_eq_of_kindred (h.imp fun _ _ h => hR h.1), h⟩

/-- What is there after a change in place comes from what was there. -/
theorem InPlace.exists_kindred (h : InPlace target R els els')
    (hR : ∀ {e e'}, R e e' → Kindred e e') {e' : Element α} (he' : e' ∈ els') :
    ∃ e ∈ els, Kindred e e' := by
  obtain ⟨-, h⟩ := h
  induction h with
  | nil => cases he'
  | @cons first _ rest _ hfirst _ ih =>
    rcases List.mem_cons.mp he' with rfl | he'
    · exact ⟨first, List.mem_cons_self, hR hfirst.1⟩
    · obtain ⟨e, he, hkindred⟩ := ih he'
      exact ⟨e, List.mem_cons_of_mem first he, hkindred⟩

variable [Scalar α]

/-- Elements moved to the points of a map are changed where the map has a point. -/
theorem changedWhere_moveAll (targets : StringMap (Point α)) (els : List (Element α)) :
    ChangedWhere (fun e => targets.contains e.id = true) Displaced els (moveAll targets els) := by
  refine changedWhere_map (fun e _ => ?_) fun e _ hother => ?_
  · split
    · exact displaced_moveTo e _
    · exact displaced_refl e
  · have hnone : targets.get? e.id = none := by
      rwa [StringMap.contains_eq_isSome_get?, Bool.not_eq_true, Option.isSome_eq_false_iff,
        Option.isNone_iff_eq_none] at hother
    rw [hnone]

/-! ### Copies -/

theorem copiedBy_copies (set : IdSet) (dx dy : α) (els : List (Element α)) (supply : IdSupply) :
    List.Forall₂ (CopiedBy dx dy) (els.filter fun e => set.contains e.id)
      (copies set dx dy els supply).1 := by
  induction els generalizing supply with
  | nil => exact .nil
  | cons e rest ih =>
    unfold copies
    split_ifs with hselected
    · rw [List.filter_cons_of_pos (p := fun e : Element α => set.contains e.id) hselected]
      exact .cons rfl (ih supply.rest)
    · rw [List.filter_cons_of_neg (p := fun e : Element α => set.contains e.id) hselected]
      exact ih supply

end Sequence

end ThermalLabel

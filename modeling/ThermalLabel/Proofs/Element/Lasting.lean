import ThermalLabel.Proofs.Element.DistinctIds

/-! # Properties that changes of elements keep

Whatever the operator does, an element is only ever moved, resized, patched or put under another id,
and a new element is a patched sample. A property that samples have and that these four changes keep
is lasting: it is kept by all that is done to a sequence, and the starter layout has it. -/

namespace ThermalLabel

variable {α : Type} {P : Element α → Prop}

/-- A property that samples have and that no change takes away. -/
structure Lasting [Scalar α] (P : Element α → Prop) : Prop where
  sample (kind : Kind) : P (Element.sample kind)
  withId (e : Element α) (id : ElementId) : P e → P (e.withId id)
  moveTo (e : Element α) (p : Point α) : P e → P (e.moveTo p)
  resize (e : Element α) (size : Size α) : P e → P (e.resize size)
  apply (e : Element α) (patch : Patch α) : P e → P (patch.apply e)

/-- A property of all elements of a sequence. -/
def Sequence.All (P : Element α → Prop) (els : List (Element α)) : Prop := ∀ e ∈ els, P e

instance [DecidablePred P] (els : List (Element α)) : Decidable (Sequence.All P els) :=
  inferInstanceAs (Decidable (∀ e ∈ els, P e))

namespace Sequence

variable {els els' : List (Element α)}

/-! ### Any property -/

theorem all_append (h : All P els) (h' : All P els') : All P (els ++ els') :=
  List.forall_mem_append.mpr ⟨h, h'⟩

theorem all_map {f : Element α → Element α} (hf : ∀ e, P e → P (f e)) (h : All P els) :
    All P (els.map f) := List.forall_mem_map.mpr fun e he => hf e (h e he)

theorem all_modify {f : Element α → Element α} (hf : ∀ e, P e → P (f e)) (id : ElementId)
    (h : All P els) : All P (modify f id els) := by
  induction els with
  | nil => exact h
  | cons e rest ih =>
    obtain ⟨he, hrest⟩ := List.forall_mem_cons.mp h
    unfold modify
    split_ifs
    · exact List.forall_mem_cons.mpr ⟨hf e he, hrest⟩
    · exact List.forall_mem_cons.mpr ⟨he, ih hrest⟩

theorem all_without (set : IdSet) (h : All P els) : All P (without els set) :=
  fun e he => h e (List.mem_of_mem_filter he)

theorem all_reorder (id : ElementId) (how : Reorder) (h : All P els) :
    All P (reorder els id how) :=
  fun e he => h e ((reorder_perm els id how).mem_iff.mp he)

end Sequence

/-! ### Lasting properties -/

namespace Lasting

open Sequence (All)

variable [Scalar α] {els : List (Element α)}

theorem moveBy (hP : Lasting P) (e : Element α) (dx dy : α) (h : P e) : P (e.moveBy dx dy) :=
  hP.moveTo e _ h

theorem all_copies (hP : Lasting P) (set : IdSet) (dx dy : α) (h : All P els)
    (supply : IdSupply) : All P (Sequence.copies set dx dy els supply).1 := by
  induction els generalizing supply with
  | nil => exact h
  | cons e rest ih =>
    obtain ⟨he, hrest⟩ := List.forall_mem_cons.mp h
    unfold Sequence.copies
    split_ifs
    · refine List.forall_mem_cons.mpr ⟨?_, ih hrest supply.rest⟩
      exact hP.withId _ _ (hP.moveBy e dx dy he)
    · exact ih hrest supply

theorem all_repairIds (hP : Lasting P) (seen : IdSet) (h : All P els) (supply : IdSupply) :
    All P (Sequence.repairIds seen els supply).1 := by
  induction els generalizing seen supply with
  | nil => exact h
  | cons e rest ih =>
    obtain ⟨he, hrest⟩ := List.forall_mem_cons.mp h
    unfold Sequence.repairIds
    split_ifs
    · exact List.forall_mem_cons.mpr ⟨hP.withId e _ he, ih _ hrest supply.rest⟩
    · exact List.forall_mem_cons.mpr ⟨he, ih _ hrest supply⟩

theorem all_moveAll (hP : Lasting P) (targets : StringMap (Point α)) (h : All P els) :
    All P (Sequence.moveAll targets els) := by
  refine Sequence.all_map (fun e he => ?_) h
  split
  · exact hP.moveTo e _ he
  · exact he

theorem all_frame (hP : Lasting P) (d : Drag α) (selection : Selection) (delta : Point α)
    (grid : Option α) (h : All P els) : All P (d.frame selection delta grid els) := by
  unfold Drag.frame
  split
  · exact h
  · refine Sequence.all_map (fun e he => ?_) h
    unfold Drag.place
    split_ifs
    · exact hP.moveTo e _ he
    · split
      · exact hP.moveTo e _ he
      · exact he
    · exact he

theorem all_add (hP : Lasting P) {d : Document α} (h : All P d.elements) (id : ElementId)
    (kind : Kind) (patch : Patch α) : All P (d.add id kind patch).elements := by
  refine Sequence.all_append h (List.forall_mem_singleton.mpr ?_)
  exact hP.apply _ patch (hP.withId _ id (hP.sample kind))

theorem all_normalize (hP : Lasting P) {d : Document α} (h : All P d.elements)
    (supply : IdSupply) : All P (d.normalize supply).1.elements :=
  hP.all_repairIds StringMap.empty h supply

theorem all_foldl_addPart (hP : Lasting P) (parts : List (Kind × Patch α))
    {layout : Document α × IdSupply} (h : All P layout.1.elements) :
    All P (parts.foldl Document.addPart layout).1.elements := by
  induction parts generalizing layout with
  | nil => exact h
  | cons part rest ih => exact ih (hP.all_add h layout.2.next part.1 part.2)

theorem all_starter (hP : Lasting P) (supply : IdSupply) :
    All P (Document.starter (α := α) supply).1.elements := by
  rw [Document.starter_eq_foldl]
  exact hP.all_foldl_addPart _ fun e he => absurd he List.not_mem_nil

end Lasting

end ThermalLabel

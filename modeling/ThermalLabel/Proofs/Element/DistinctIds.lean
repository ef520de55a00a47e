import Mathlib.Data.List.Nodup
import Mathlib.Data.List.Perm.Subperm
import Mathlib.Tactic.SplitIfs
import ThermalLabel.Document.Template
import ThermalLabel.Editor.Gesture

/-! # The ids in a sequence

What becomes of the ids of a sequence when its elements are changed, moved, taken away or copied,
and when a document from outside is put in order. A change of an element keeps its id, and what is
added has ids from the supply; so ids stay distinct as long as the supply gives new ones. -/

namespace ThermalLabel

variable {α : Type}

/-- Ids that tell elements apart: none is empty, and none is there twice. -/
structure DistinctIds (ids : List ElementId) : Prop where
  nonempty : "" ∉ ids
  nodup : ids.Nodup

instance (ids : List ElementId) : Decidable (DistinctIds ids) :=
  decidable_of_iff ("" ∉ ids ∧ ids.Nodup) ⟨fun h => ⟨h.1, h.2⟩, fun h => ⟨h.nonempty, h.nodup⟩⟩

theorem distinctIds_nil : DistinctIds [] := ⟨List.not_mem_nil, List.nodup_nil⟩

theorem distinctIds_cons {id : ElementId} {ids : List ElementId} :
    DistinctIds (id :: ids) ↔ id ≠ "" ∧ id ∉ ids ∧ DistinctIds ids := by
  constructor
  · rintro ⟨hne, hnodup⟩
    rw [List.mem_cons, not_or] at hne
    obtain ⟨hnot, hnodup⟩ := List.nodup_cons.mp hnodup
    exact ⟨Ne.symm hne.1, hnot, hne.2, hnodup⟩
  · rintro ⟨hne, hnot, h⟩
    refine ⟨?_, List.nodup_cons.mpr ⟨hnot, h.nodup⟩⟩
    rw [List.mem_cons, not_or]
    exact ⟨Ne.symm hne, h.nonempty⟩

theorem DistinctIds.subperm {ids ids' : List ElementId} (h : DistinctIds ids)
    (hsub : ids'.Subperm ids) : DistinctIds ids' := by
  refine ⟨fun hmem => h.nonempty (hsub.subset hmem), ?_⟩
  obtain ⟨kept, hperm, hkept⟩ := hsub
  exact hperm.nodup (h.nodup.sublist hkept)

theorem IdSet.contains_add (s : IdSet) (id other : ElementId) :
    (s.add id).contains other = (id == other || s.contains other) :=
  StringMap.contains_insert s id other ()

/-! ### Ids taken from the supply -/

namespace IdSupply

/-- The ids that are used up between two states of a supply. -/
def taken (s after : IdSupply) : List ElementId :=
  (List.range' s.used (after.used - s.used)).map s.name

@[simp]
theorem taken_self (s : IdSupply) : s.taken s = [] := by
  rw [taken, Nat.sub_self]
  rfl

theorem taken_of_lt {s after : IdSupply} (h : s.used < after.used) :
    s.taken after = s.next :: s.rest.taken after := by
  have hcount : after.used - s.used = after.used - s.rest.used + 1 := by
    simp only [rest]
    omega
  rw [taken, hcount, List.range'_succ]
  rfl

@[simp]
theorem taken_rest (s : IdSupply) : s.taken s.rest = [s.next] := by
  rw [taken_of_lt (Nat.lt_succ_self s.used), taken_self]

/-- A supply that has given some more ids. -/
structure Advanced (s after : IdSupply) : Prop where
  name : after.name = s.name
  used : s.used ≤ after.used

theorem advanced_refl (s : IdSupply) : Advanced s s := ⟨rfl, Nat.le_refl _⟩

theorem advanced_rest (s : IdSupply) : Advanced s s.rest := ⟨rfl, Nat.le_succ _⟩

theorem Advanced.trans {s mid after : IdSupply} (h : Advanced s mid) (h' : Advanced mid after) :
    Advanced s after := ⟨h'.name.trans h.name, Nat.le_trans h.used h'.used⟩

theorem Advanced.taken_append {s mid after : IdSupply} (h : Advanced s mid)
    (h' : Advanced mid after) : s.taken mid ++ mid.taken after = s.taken after := by
  obtain ⟨hname, hused⟩ := h
  obtain ⟨count, hcount⟩ := Nat.le.dest hused
  obtain ⟨more, hmore⟩ := Nat.le.dest h'.used
  simp only [taken]
  rw [hname, ← List.map_append, ← hmore, ← hcount, Nat.add_sub_cancel_left,
    Nat.add_sub_cancel_left, List.range'_append_1, Nat.add_assoc, Nat.add_sub_cancel_left]

/-- The next id comes first. -/
theorem Advanced.taken_eq_cons {s after : IdSupply} (h : Advanced s.rest after) :
    s.taken after = s.next :: s.rest.taken after := taken_of_lt h.used

end IdSupply

/-! ### Elements keep their ids -/

namespace Element

variable [Scalar α]

@[simp]
theorem id_moveTo (e : Element α) (p : Point α) : (e.moveTo p).id = e.id := rfl

@[simp]
theorem id_moveBy (e : Element α) (dx dy : α) : (e.moveBy dx dy).id = e.id := rfl

@[simp]
theorem id_resize (e : Element α) (size : Size α) : (e.resize size).id = e.id := rfl

end Element

@[simp]
theorem Element.id_withId (e : Element α) (id : ElementId) : (e.withId id).id = id := rfl

namespace Sequence

theorem ids_append (els els' : List (Element α)) : ids (els ++ els') = ids els ++ ids els' :=
  List.map_append

/-- A change of every element that keeps ids. -/
theorem ids_map {f : Element α → Element α} (hf : ∀ e, (f e).id = e.id) (els : List (Element α)) :
    ids (els.map f) = ids els := by
  rw [ids, List.map_map]
  exact List.map_congr_left fun e _ => hf e

/-- A change of one element that keeps its id. -/
theorem ids_modify {f : Element α → Element α} (hf : ∀ e, (f e).id = e.id) (id : ElementId)
    (els : List (Element α)) : ids (modify f id els) = ids els := by
  induction els with
  | nil => rfl
  | cons e rest ih =>
    unfold modify
    split_ifs
    · simp only [ids, List.map_cons, hf]
    · simp only [ids, List.map_cons] at ih ⊢
      rw [ih]

theorem ids_without_sublist (els : List (Element α)) (set : IdSet) :
    (ids (without els set)).Sublist (ids els) := List.filter_sublist.map Element.id

theorem swapNext_perm {β : Type} (n : Nat) (l : List β) : (swapNext n l).Perm l := by
  fun_induction swapNext n l with
  | case1 a b rest => exact List.Perm.swap a b rest
  | case2 n a rest ih => exact ih.cons a
  | case3 => exact List.Perm.refl _

theorem eraseIdx_perm {β : Type} {l : List β} {i : Nat} (h : i < l.length) :
    ((l[i]?).toList ++ l.eraseIdx i).Perm l := by
  rw [List.getElem?_eq_getElem h]
  exact List.getElem_cons_eraseIdx_perm h

/-- An element moved through the drawing order. -/
theorem reorder_perm (els : List (Element α)) (id : ElementId) (how : Reorder) :
    (reorder els id how).Perm els := by
  unfold reorder
  split
  · exact List.Perm.refl _
  · next i hi =>
    have hlt : i < els.length := (List.findIdx?_eq_some_iff_getElem.mp hi).1
    cases how with
    | front => exact List.perm_append_comm.trans (eraseIdx_perm hlt)
    | back => exact eraseIdx_perm hlt
    | up => exact swapNext_perm i els
    | down =>
      dsimp only
      split_ifs
      · exact List.Perm.refl _
      · exact swapNext_perm (i - 1) els

theorem ids_reorder_perm (els : List (Element α)) (id : ElementId) (how : Reorder) :
    (ids (reorder els id how)).Perm (ids els) := (reorder_perm els id how).map Element.id

end Sequence

section
variable [Scalar α]

@[simp]
theorem Patch.id_apply (p : Patch α) (e : Element α) : (p.apply e).id = e.id := by
  have hposition : (p.applyPosition e).id = e.id := by
    unfold applyPosition
    split_ifs <;> rfl
  rw [← hposition]
  show (p.applySize (p.applyPosition e)).id = _
  unfold applySize
  split
  · split_ifs <;> rfl
  · rfl

theorem Sequence.ids_moveAll (targets : StringMap (Point α)) (els : List (Element α)) :
    ids (moveAll targets els) = ids els := by
  refine ids_map (fun e => ?_) els
  split
  · exact e.id_moveTo _
  · rfl

theorem Drag.ids_frame (d : Drag α) (selection : Selection) (delta : Point α) (grid : Option α)
    (els : List (Element α)) :
    Sequence.ids (d.frame selection delta grid els) = Sequence.ids els := by
  unfold frame
  split
  · rfl
  · refine Sequence.ids_map (fun e => ?_) els
    unfold place
    split_ifs
    · exact e.id_moveTo _
    · split
      · exact e.id_moveTo _
      · rfl
    · rfl

/-! ### Copies -/

namespace Sequence

theorem advanced_copies (set : IdSet) (dx dy : α) (els : List (Element α)) (supply : IdSupply) :
    supply.Advanced (copies set dx dy els supply).2 := by
  induction els generalizing supply with
  | nil => exact supply.advanced_refl
  | cons e rest ih =>
    unfold copies
    split_ifs
    · exact supply.advanced_rest.trans (ih supply.rest)
    · exact ih supply

/-- The copies have the ids that are taken. -/
theorem ids_copies (set : IdSet) (dx dy : α) (els : List (Element α)) (supply : IdSupply) :
    ids (copies set dx dy els supply).1 = supply.taken (copies set dx dy els supply).2 := by
  induction els generalizing supply with
  | nil => exact supply.taken_self.symm
  | cons e rest ih =>
    unfold copies
    split_ifs
    · dsimp only
      rw [(advanced_copies set dx dy rest supply.rest).taken_eq_cons, ← ih supply.rest]
      rfl
    · exact ih supply

end Sequence

end

/-! ### Documents from outside -/

/-- New ids for a sequence: they are distinct, and no element has one of them yet. -/
structure FreshFor (new : List ElementId) (els : List (Element α)) : Prop where
  distinct : DistinctIds new
  absent : ∀ id ∈ new, id ∉ Sequence.ids els

instance (new : List ElementId) (els : List (Element α)) : Decidable (FreshFor new els) :=
  decidable_of_iff (DistinctIds new ∧ ∀ id ∈ new, id ∉ Sequence.ids els)
    ⟨fun h => ⟨h.1, h.2⟩, fun h => ⟨h.distinct, h.absent⟩⟩

theorem freshFor_of_append {new : List ElementId} {els : List (Element α)}
    (h : DistinctIds (Sequence.ids els ++ new)) : FreshFor new els := by
  refine ⟨h.subperm (List.sublist_append_right _ new).subperm, fun id hnew hid => ?_⟩
  exact List.disjoint_of_nodup_append h.nodup hid hnew

theorem FreshFor.append {new : List ElementId} {els : List (Element α)} (h : FreshFor new els)
    (hels : DistinctIds (Sequence.ids els)) : DistinctIds (Sequence.ids els ++ new) := by
  refine ⟨?_, ?_⟩
  · rw [List.mem_append, not_or]
    exact ⟨hels.nonempty, h.distinct.nonempty⟩
  · exact hels.nodup.append h.distinct.nodup fun id hid hnew => h.absent id hnew hid

namespace Sequence

theorem advanced_repairIds (seen : IdSet) (els : List (Element α)) (supply : IdSupply) :
    supply.Advanced (repairIds seen els supply).2 := by
  induction els generalizing seen supply with
  | nil => exact supply.advanced_refl
  | cons e rest ih =>
    unfold repairIds
    split_ifs
    · exact supply.advanced_rest.trans (ih _ supply.rest)
    · exact ih _ supply

theorem contains_add_eq_false {seen : IdSet} {id other : ElementId} :
    (seen.add id).contains other = false ↔ id ≠ other ∧ seen.contains other = false := by
  rw [IdSet.contains_add, Bool.or_eq_false_iff, beq_eq_false_iff_ne]

/-- The repaired elements have distinct ids, and none that was seen before. -/
theorem distinctIds_repairIds {seen : IdSet} {els : List (Element α)} {supply : IdSupply}
    (hnew : FreshFor (supply.taken (repairIds seen els supply).2) els)
    (hseen : ∀ id ∈ supply.taken (repairIds seen els supply).2, seen.contains id = false) :
    DistinctIds (ids (repairIds seen els supply).1) ∧
      ∀ id ∈ ids (repairIds seen els supply).1, seen.contains id = false := by
  induction els generalizing seen supply with
  | nil => exact ⟨distinctIds_nil, fun id hid => by cases hid⟩
  | cons e rest ih =>
    obtain ⟨hdistinct, habsent⟩ := hnew
    unfold repairIds at hdistinct habsent hseen ⊢
    split_ifs at hdistinct habsent hseen ⊢ with hrepair
    · -- the element gets the next id, which none of the ids to come may be
      dsimp only at hdistinct habsent hseen ⊢
      rw [(advanced_repairIds _ rest supply.rest).taken_eq_cons] at hdistinct habsent hseen
      obtain ⟨hne, hnext, hdistinct⟩ := distinctIds_cons.mp hdistinct
      have hrest := ih
        ⟨hdistinct, fun id hid hmem =>
          habsent id (List.mem_cons_of_mem _ hid) (List.mem_cons_of_mem _ hmem)⟩
        fun id hid => contains_add_eq_false.mpr
          ⟨fun heq => hnext (heq ▸ hid), hseen id (List.mem_cons_of_mem _ hid)⟩
      refine ⟨distinctIds_cons.mpr ⟨hne, fun hmem => ?_, hrest.1⟩, fun id hid => ?_⟩
      · exact (contains_add_eq_false.mp (hrest.2 _ hmem)).1 rfl
      · rcases List.mem_cons.mp hid with rfl | hid
        · exact hseen _ List.mem_cons_self
        · exact (contains_add_eq_false.mp (hrest.2 id hid)).2
    · -- the element keeps its id, which none of the new ids is
      dsimp only at hdistinct habsent hseen ⊢
      simp only [Bool.or_eq_true, String.isEmpty_iff, not_or, Bool.not_eq_true] at hrepair
      have hrest := ih
        ⟨hdistinct, fun id hid hmem => habsent id hid (List.mem_cons_of_mem _ hmem)⟩
        fun id hid => contains_add_eq_false.mpr
          ⟨fun heq => habsent id hid (heq ▸ List.mem_cons_self), hseen id hid⟩
      refine ⟨distinctIds_cons.mpr ⟨hrepair.1, fun hmem => ?_, hrest.1⟩, fun id hid => ?_⟩
      · exact (contains_add_eq_false.mp (hrest.2 _ hmem)).1 rfl
      · rcases List.mem_cons.mp hid with rfl | hid
        · exact hrepair.2
        · exact (contains_add_eq_false.mp (hrest.2 id hid)).2

/-- Distinct ids that were not seen before need no repair. -/
theorem repairIds_of_distinct {seen : IdSet} {els : List (Element α)} (h : DistinctIds (ids els))
    (hseen : ∀ id ∈ ids els, seen.contains id = false) (supply : IdSupply) :
    repairIds seen els supply = (els, supply) := by
  induction els generalizing seen with
  | nil => rfl
  | cons e rest ih =>
    obtain ⟨hne, hnot, hrest⟩ := distinctIds_cons.mp h
    obtain ⟨he, hothers⟩ := List.forall_mem_cons.mp hseen
    have hunseen : ∀ id ∈ ids rest, (seen.add e.id).contains id = false := fun id hid =>
      contains_add_eq_false.mpr ⟨fun heq => hnot (heq ▸ hid), hothers id hid⟩
    have hkeep : ¬ (e.id.isEmpty || seen.contains e.id) = true := by
      simpa [he] using hne
    rw [repairIds, if_neg hkeep, ih hrest hunseen]

/-- A repair changes ids only: what does not depend on the id of an element stays. -/
theorem map_repairIds {β : Type} {f : Element α → β} (hf : ∀ e id, f (e.withId id) = f e)
    (seen : IdSet) (els : List (Element α)) (supply : IdSupply) :
    (repairIds seen els supply).1.map f = els.map f := by
  induction els generalizing seen supply with
  | nil => rfl
  | cons e rest ih =>
    unfold repairIds
    split_ifs
    · exact congrArg₂ List.cons (hf e supply.next) (ih _ supply.rest)
    · exact congrArg (f e :: ·) (ih _ supply)

end Sequence

variable [Scalar α]

/-- A label size that stays when a document is put in order. -/
def LabelSize.InOrder (size : LabelSize α) : Prop := size.isValid = true ∨ size = standard

namespace Document

theorem inOrder_normalize (d : Document α) (supply : IdSupply) :
    (d.normalize supply).1.labelSize.InOrder := by
  unfold normalize
  dsimp only
  split_ifs with hsize
  · exact Or.inl hsize
  · exact Or.inr rfl

/-- A document in order stays as it is. -/
theorem normalize_of_distinct {d : Document α} (hsize : d.labelSize.InOrder)
    (hids : DistinctIds d.ids) (supply : IdSupply) : d.normalize supply = (d, supply) := by
  have hkeep : Sequence.repairIds StringMap.empty d.elements supply = (d.elements, supply) :=
    Sequence.repairIds_of_distinct hids (fun _ _ => rfl) supply
  have hsize : (if d.labelSize.isValid then d.labelSize else .standard) = d.labelSize := by
    split_ifs with hvalid
    · rfl
    · exact (hsize.resolve_left hvalid).symm
  unfold normalize
  rw [hsize, hkeep]

theorem advanced_normalize (d : Document α) (supply : IdSupply) :
    supply.Advanced (d.normalize supply).2 :=
  Sequence.advanced_repairIds StringMap.empty d.elements supply

/-- **A document put in order has distinct ids**, whatever ids it had, as long as the supply gives
new ones. -/
theorem distinctIds_normalize {d : Document α} {supply : IdSupply}
    (h : FreshFor (supply.taken (d.normalize supply).2) d.elements) :
    DistinctIds (d.normalize supply).1.ids :=
  (Sequence.distinctIds_repairIds h fun _ _ => rfl).1

/-! ### The starter layout -/

/-- A part of a layout added under the next id. -/
def addPart (layout : Document α × IdSupply) (part : Kind × Patch α) : Document α × IdSupply :=
  (layout.1.add layout.2.next part.1 part.2, layout.2.rest)

theorem starter_eq_foldl (supply : IdSupply) :
    starter supply = starterParts.foldl addPart ((empty LabelSize.standard : Document α), supply) :=
  rfl

theorem ids_add (d : Document α) (id : ElementId) (kind : Kind) (patch : Patch α) :
    (d.add id kind patch).ids = d.ids ++ [id] := by
  show Sequence.ids (d.elements ++ [patch.apply _]) = _
  rw [Sequence.ids_append]
  congr 1
  show [(patch.apply _).id] = [id]
  rw [Patch.id_apply, Element.id_withId]

/-- Parts are added under the ids that are taken. -/
theorem foldl_addPart (parts : List (Kind × Patch α)) (layout : Document α × IdSupply) :
    layout.2.Advanced (parts.foldl addPart layout).2 ∧
      (parts.foldl addPart layout).1.ids =
        layout.1.ids ++ layout.2.taken (parts.foldl addPart layout).2 := by
  induction parts generalizing layout with
  | nil => exact ⟨layout.2.advanced_refl, by simp⟩
  | cons part rest ih =>
    obtain ⟨hadvanced, hids⟩ := ih (addPart layout part)
    refine ⟨layout.2.advanced_rest.trans hadvanced, ?_⟩
    rw [List.foldl_cons, hids, hadvanced.taken_eq_cons]
    show (layout.1.add _ part.1 part.2).ids ++ _ = _
    rw [ids_add, List.append_assoc]
    rfl

theorem advanced_starter (supply : IdSupply) :
    supply.Advanced (starter (α := α) supply).2 := by
  rw [starter_eq_foldl]
  exact (foldl_addPart starterParts (_, supply)).1

theorem ids_starter (supply : IdSupply) :
    (starter (α := α) supply).1.ids = supply.taken (starter (α := α) supply).2 := by
  rw [starter_eq_foldl]
  exact (foldl_addPart starterParts (_, supply)).2

end Document

end ThermalLabel

import ThermalLabel.Proofs.Element.DistinctIds
import ThermalLabel.Scalar.Binary64

/-! # Documents put in order

Putting a document in order changes as little as it can. The label size is replaced if it is not
positive, and ids are replaced where they are empty or held by an element further back; nothing else
changes, so a document in order stays as it is, and once is enough (`Document.normalize_repairs`).

An id that is seen has come from an earlier element or from the supply. As the supply gives no id
that the document has, only the earlier elements decide (`Sequence.repairedAt_repairIds`). -/

namespace ThermalLabel

variable {α : Type}

/-- An element after a repair: under its own id, unless that is empty or known from before, and else
under a new one. -/
structure RepairedAt (known : ElementId → Prop) (new : List ElementId) (e e' : Element α) :
    Prop where
  same : e' = e.withId e'.id
  keeps : e'.id = e.id ↔ e.id ≠ "" ∧ ¬ known e.id
  replaced : e'.id ≠ e.id → e'.id ∈ new

/-- Two views of what is known count as one if they agree on the id of the element. -/
theorem RepairedAt.of_iff {known known' : ElementId → Prop} {new more : List ElementId}
    {e e' : Element α} (h : RepairedAt known new e e')
    (hknown : e.id ≠ "" → (known e.id ↔ known' e.id)) (hnew : new ⊆ more) :
    RepairedAt known' more e e' := by
  refine ⟨h.same, ?_, fun hne => hnew (h.replaced hne)⟩
  rw [h.keeps]
  exact and_congr_right fun hne => not_congr (hknown hne)

/-- A sequence after a repair: every element is in its place, and the first one with an id keeps
it. -/
structure Repaired (new : List ElementId) (els els' : List (Element α)) : Prop where
  length : els'.length = els.length
  place : ∀ (i : Nat) (e e' : Element α), els[i]? = some e → els'[i]? = some e' →
    RepairedAt (fun id => id ∈ Sequence.ids (els.take i)) new e e'

namespace Sequence

theorem mem_ids_take_succ {first : Element α} {rest : List (Element α)} {i : Nat}
    {id : ElementId} :
    id ∈ ids ((first :: rest).take (i + 1)) ↔ first.id = id ∨ id ∈ ids (rest.take i) := by
  rw [List.take_succ_cons, ids, List.map_cons, List.mem_cons, eq_comm]
  rfl

/-- What is known at a place is what was seen before the sequence and the ids before the place. -/
theorem repairedAt_repairIds {seen : IdSet} {els : List (Element α)} {supply : IdSupply}
    (habsent : ∀ id ∈ supply.taken (repairIds seen els supply).2, id ∉ ids els) {i : Nat}
    {e e' : Element α} (he : els[i]? = some e) (he' : (repairIds seen els supply).1[i]? = some e') :
    RepairedAt (fun id => seen.contains id = true ∨ id ∈ ids (els.take i))
      (supply.taken (repairIds seen els supply).2) e e' := by
  induction els generalizing seen supply i with
  | nil => cases he
  | cons first rest ih =>
    unfold repairIds at habsent he' ⊢
    split_ifs at habsent he' ⊢ with hrepair
    · -- the first element gets the next id, which no element has
      dsimp only at habsent he' ⊢
      rw [(advanced_repairIds _ rest supply.rest).taken_eq_cons] at habsent ⊢
      have hnext := habsent _ List.mem_cons_self
      have hknown : first.id = "" ∨ seen.contains first.id = true := by simpa using hrepair
      cases i with
      | zero =>
        obtain rfl : first = e := Option.some.inj he
        obtain rfl : first.withId supply.next = e' := Option.some.inj he'
        have hdiffer : supply.next ≠ first.id := fun heq => hnext (heq ▸ List.mem_cons_self)
        refine ⟨rfl, iff_of_false hdiffer ?_, fun _ => List.mem_cons_self⟩
        rintro ⟨hne, hunknown⟩
        exact hunknown (.inl (hknown.resolve_left hne))
      | succ i =>
        have hmem : e.id ∈ ids rest := List.mem_map_of_mem (List.mem_of_getElem? he)
        have hother : supply.next ≠ e.id := fun heq => hnext (heq ▸ List.mem_cons_of_mem _ hmem)
        have hrest := ih (fun id hid hmem =>
          habsent id (List.mem_cons_of_mem _ hid) (List.mem_cons_of_mem _ hmem)) he he'
        refine hrest.of_iff (fun hne => ?_) (List.subset_cons_self _ _)
        rw [IdSet.contains_add, Bool.or_eq_true, beq_iff_eq, mem_ids_take_succ, or_iff_right hother]
        refine ⟨Or.imp_right .inr, ?_⟩
        rintro (hseen | hsame | hearlier)
        · exact .inl hseen
        · exact .inl (hsame ▸ hknown.resolve_left (hsame ▸ hne))
        · exact .inr hearlier
    · -- the first element keeps its id, which is known from then on
      dsimp only at habsent he' ⊢
      have hkeep : first.id ≠ "" ∧ ¬ seen.contains first.id = true := by simpa using hrepair
      cases i with
      | zero =>
        obtain rfl : first = e := Option.some.inj he
        obtain rfl : first = e' := Option.some.inj he'
        refine ⟨rfl, iff_of_true rfl ⟨hkeep.1, ?_⟩, fun hne => absurd rfl hne⟩
        rintro (hseen | hearlier)
        · exact hkeep.2 hseen
        · cases hearlier
      | succ i =>
        have hrest := ih (fun id hid hmem => habsent id hid (List.mem_cons_of_mem _ hmem)) he he'
        refine hrest.of_iff (fun _ => ?_) (List.Subset.refl _)
        rw [IdSet.contains_add, Bool.or_eq_true, beq_iff_eq, mem_ids_take_succ, or_assoc,
          or_left_comm]

theorem repaired_repairIds {els : List (Element α)} {supply : IdSupply}
    (hnew : FreshFor (supply.taken (repairIds StringMap.empty els supply).2) els) :
    Repaired (supply.taken (repairIds StringMap.empty els supply).2) els
      (repairIds StringMap.empty els supply).1 := by
  refine ⟨?_, fun i e e' he he' => ?_⟩
  · have hmap := map_repairIds (fun (e : Element α) id => show (e.withId id).x = e.x from rfl)
      StringMap.empty els supply
    simpa using congrArg List.length hmap
  · refine (repairedAt_repairIds hnew.absent he he').of_iff (fun _ => ?_) (List.Subset.refl _)
    exact or_iff_right Bool.false_ne_true

end Sequence

namespace Document

theorem isValid_normalize {d : Document Float} (supply : IdSupply) :
    (d.normalize supply).1.labelSize.isValid = true := by
  have hstandard : (LabelSize.standard : LabelSize Float).isValid = true := by decide +kernel
  rcases d.inOrder_normalize supply with hvalid | hstock
  · exact hvalid
  · rw [hstock, hstandard]

/-- **A document is put in order by the least repair.** -/
theorem normalize_repairs (d : Document Float) (supply : IdSupply) :
    (d.normalize supply).1.labelSize.isValid = true ∧
    ((d.normalize supply).1.labelSize =
      if d.labelSize.isValid then d.labelSize else LabelSize.standard) ∧
    (d.labelSize.isValid = true → DistinctIds d.ids → d.normalize supply = (d, supply)) ∧
    (FreshFor (supply.taken (d.normalize supply).2) d.elements →
      DistinctIds (d.normalize supply).1.ids ∧
      Repaired (supply.taken (d.normalize supply).2) d.elements (d.normalize supply).1.elements ∧
      ∀ later, (d.normalize supply).1.normalize later = ((d.normalize supply).1, later)) := by
  have hvalid := isValid_normalize (d := d) supply
  refine ⟨hvalid, rfl, fun hsize hids => normalize_of_distinct (.inl hsize) hids supply,
    fun hnew => ?_⟩
  have hids := distinctIds_normalize hnew
  exact ⟨hids, Sequence.repaired_repairIds hnew, normalize_of_distinct (.inl hvalid) hids⟩

/-- A document with a label size that is not positive, two empty ids and one that is there twice. -/
def disordered : Document Float where
  labelSize := ⟨"bad", 0, -5⟩
  elements := ["", "a", "", "a"].map fun id => { Element.default .box with id }

/-- The second element keeps its id, and the other three get new ones. The starter layout stays as
it is. -/
theorem disordered_repaired :
    let repaired := (disordered.normalize (.numbered 0)).1
    let layout : Document Float := (starter (.numbered 0)).1
    (repaired.labelSize.isValid = true ∧ DistinctIds repaired.ids ∧
      Repaired ((IdSupply.numbered 0).taken (disordered.normalize (.numbered 0)).2)
        disordered.elements repaired.elements ∧
      repaired.ids = [(IdSupply.numbered 0).name 0, "a", (IdSupply.numbered 0).name 1,
        (IdSupply.numbered 0).name 2] ∧
      repaired.normalize (.numbered 7) = (repaired, .numbered 7)) ∧
    layout.normalize (.numbered 7) = (layout, .numbered 7) := by
  intro repaired layout
  obtain ⟨hvalid, -, -, hrepair⟩ := normalize_repairs disordered (.numbered 0)
  obtain ⟨hids, hrepaired, honce⟩ := hrepair (by decide +kernel)
  obtain ⟨-, -, hkept, -⟩ := normalize_repairs layout (.numbered 7)
  refine ⟨⟨hvalid, hids, hrepaired, ?_, honce (.numbered 7)⟩, hkept ?_ ?_⟩
  all_goals decide +kernel

end Document

end ThermalLabel

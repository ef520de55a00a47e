import ThermalLabel.Proofs.Editor.Frames
import ThermalLabel.Proofs.Element.Equality
import ThermalLabel.Proofs.Element.Kindred
import ThermalLabel.Proofs.Scalar.Rational

/-! # Placing elements along an axis

Alignment and distribution give the selected elements targets along an axis. Moving to targets puts
every element that has one there (`editor_moveToTargets`), so nothing but a coordinate of the
selected elements changes (`placedAlong_placed`); and elements that are where their targets are stay
there, with no snapshot made (`moveToTargets_again`). -/

namespace ThermalLabel

open Element (Displaced)
open Distribute (along withAlong)

variable {α : Type}

/-- The other axis. -/
def Distribution.across : Distribution → Distribution
  | .horizontal => .vertical
  | .vertical => .horizontal

theorem Sequence.selected_map {f : Element α → Element α} (hf : ∀ el, (f el).id = el.id)
    (els : List (Element α)) (set : IdSet) :
    selected (els.map f) set = (selected els set).map f := by
  simp [selected, List.filter_map, Function.comp_def, hf]

variable [Scalar α]

namespace Element

/-- The element at the target that a list has for it, or where it is. -/
def placed (targets : List (ElementId × Point α)) (el : Element α) : Element α :=
  el.moveTo? (targets.lookup el.id)

variable {targets : List (ElementId × Point α)} {el : Element α}

@[simp]
theorem id_placed (targets : List (ElementId × Point α)) (el : Element α) :
    (el.placed targets).id = el.id := el.id_moveTo? _

theorem ids_map_placed (targets : List (ElementId × Point α)) (els : List (Element α)) :
    Sequence.ids (els.map (placed targets)) = Sequence.ids els := by
  simp [Sequence.ids, Function.comp_def]

theorem displaced_placed (targets : List (ElementId × Point α)) (el : Element α) :
    Displaced el (el.placed targets) := by
  unfold placed
  cases targets.lookup el.id with
  | none => exact displaced_refl el
  | some p => exact displaced_moveTo el p

theorem placed_of_mem (hkeys : (targets.map Prod.fst).Nodup) {p : Point α}
    (hp : (el.id, p) ∈ targets) : el.placed targets = el.moveTo p := by
  rw [placed, (lookup_eq_some_iff_mem hkeys).mpr hp]
  rfl

theorem placed_of_not_mem (h : el.id ∉ targets.map Prod.fst) : el.placed targets = el := by
  have hnone : targets.lookup el.id = none := by
    rw [List.lookup_eq_none_iff]
    intro target htarget
    rw [bne_iff_ne]
    rintro heq
    exact h (List.mem_map.mpr ⟨target, htarget, heq.symm⟩)
  rw [placed, hnone]
  rfl

/-- The order of the targets does not matter. -/
theorem placed_eq_of_perm (hkeys : (targets.map Prod.fst).Nodup)
    {targets' : List (ElementId × Point α)} (hperm : targets.Perm targets') :
    placed targets = placed targets' := by
  funext el
  rw [placed, placed, lookup_eq_of_perm hkeys hperm]

end Element

namespace Editor

variable {e : Editor α} {targets targets' : List (ElementId × Point α)}

theorem moveAll_ofList (hkeys : (targets.map Prod.fst).Nodup) (els : List (Element α)) :
    Sequence.moveAll (StringMap.ofList targets) els = els.map (Element.placed targets) := by
  refine List.map_congr_left fun el _ => ?_
  rw [StringMap.get?_ofList hkeys, Element.placed]
  cases targets.lookup el.id <;> rfl

theorem editor_commitChange {β : Type} (e : Editor α) (value : β) :
    ∃ history, (e.commitChange value).editor = { e with history } := by
  unfold commitChange
  split_ifs
  · exact ⟨e.history, rfl⟩
  · exact ⟨_, rfl⟩

/-- Every element goes to its target, and nothing else changes but the history. -/
theorem editor_moveToTargets (e : Editor α) (hkeys : (targets.map Prod.fst).Nodup) :
    ∃ history, (e.moveToTargets targets).editor =
      { e.withElements (e.elements.map (Element.placed targets)) with history } := by
  unfold moveToTargets
  split_ifs with hempty
  · obtain rfl := List.isEmpty_iff.mp hempty
    have hstay : e.elements.map (Element.placed []) = e.elements := List.map_id _
    exact ⟨e.history, by rw [hstay]; rfl⟩
  · rw [moveAll_ofList hkeys]
    exact editor_commitChange _ ()

/-- After a change the elements are the current snapshot. -/
theorem settled_commitChange [ReflBEq α] {β : Type} (e : Editor α) (value : β) :
    ((e.commitChange value).editor.elements ==
      (e.commitChange value).editor.history.current) = true := by
  unfold commitChange
  split_ifs with hsame
  · exact hsame
  · show (e.elements == (e.history.commit e.elements).current) = true
    rw [History.current_commit]
    exact BEq.refl e.elements

/-- Elements that are the current snapshot stay if they are where their targets are, and no snapshot
is made. -/
theorem moveToTargets_of_settled (hsettled : (e.elements == e.history.current) = true)
    (hkeys : (targets.map Prod.fst).Nodup) (hstay : ∀ el ∈ e.elements, el.placed targets = el) :
    e.moveToTargets targets = e.keeping () := by
  unfold moveToTargets
  split_ifs with hempty
  · rfl
  · have hsame : e.elements.map (Element.placed targets) = e.elements := by
      conv_rhs => rw [← List.map_id e.elements]
      exact List.map_congr_left hstay
    rw [moveAll_ofList hkeys, hsame]
    exact if_pos hsettled

/-- The selected elements, in drawing order. -/
def chosen (e : Editor α) : List (Element α) := Sequence.selected e.elements e.selection

omit [Scalar α] in
/-- An element with the id of a selected one is selected. -/
theorem mem_chosen_of_id {el : Element α} (hel : el ∈ e.elements)
    (hid : el.id ∈ Sequence.ids e.chosen) : el ∈ e.chosen := by
  obtain ⟨other, hother, hsame⟩ := List.mem_map.mp hid
  have hcontains := (List.mem_filter.mp hother).2
  rw [hsame] at hcontains
  exact List.mem_filter.mpr ⟨hel, hcontains⟩

/-- Moving the selected elements to targets a second time changes nothing, if the targets are where
the elements are after the first time. -/
theorem moveToTargets_again [ReflBEq α] (hids : (Sequence.ids e.chosen).Nodup)
    (hkeys : (targets.map Prod.fst).Perm (Sequence.ids e.chosen))
    (hkeys' : (targets'.map Prod.fst).Perm (Sequence.ids e.chosen))
    (hstay : ∀ el ∈ e.chosen, (el.placed targets).placed targets' = el.placed targets) :
    (e.moveToTargets targets).editor.moveToTargets targets' =
      (e.moveToTargets targets).editor.keeping () := by
  by_cases hnone : targets' = []
  · rw [hnone]
    rfl
  · have hsome : targets ≠ [] := by
      rintro rfl
      have hperm := hkeys'.trans hkeys.symm
      exact hnone (List.map_eq_nil_iff.mp hperm.eq_nil)
    have hsettled : ((e.moveToTargets targets).editor.elements ==
        (e.moveToTargets targets).editor.history.current) = true := by
      rw [moveToTargets, if_neg (by simpa using hsome)]
      exact settled_commitChange _ ()
    refine moveToTargets_of_settled hsettled (hkeys'.nodup_iff.mpr hids) ?_
    obtain ⟨history, heditor⟩ := e.editor_moveToTargets (hkeys.nodup_iff.mpr hids)
    rw [heditor]
    refine List.forall_mem_map.mpr fun el hel => ?_
    by_cases hid : el.id ∈ Sequence.ids e.chosen
    · exact hstay el (mem_chosen_of_id hel hid)
    · refine Element.placed_of_not_mem ?_
      rwa [Element.id_placed, hkeys'.mem_iff]

end Editor

/-! ### Along an axis -/

namespace Distribute

variable {axis : Distribution} {el : Element Rat}

/-- An element at a target along an axis. -/
theorem along_moveTo_withAlong (axis : Distribution) (place : Rat) (el : Element Rat) :
    along axis (el.moveTo (withAlong axis place el)) = max place 0 := by
  cases axis <;> simp [along, withAlong, Element.moveTo]

theorem along_across_moveTo (hx : 0 ≤ el.x) (hy : 0 ≤ el.y) (place : Rat) :
    along axis.across (el.moveTo (withAlong axis place el)) = along axis.across el := by
  cases axis <;> simp [along, withAlong, Element.moveTo, Distribution.across, hx, hy]

/-- An element that is at its target stays. -/
theorem moveTo_withAlong_self (hx : 0 ≤ el.x) (hy : 0 ≤ el.y) {place : Rat}
    (hplace : along axis el = max place 0) : el.moveTo (withAlong axis place el) = el := by
  obtain ⟨id, x, y, body, extra⟩ := el
  cases axis <;> simp_all [along, withAlong, Element.moveTo]

end Distribute

theorem Element.nonneg_moveTo (e : Element Rat) (p : Point Rat) :
    0 ≤ (e.moveTo p).x ∧ 0 ≤ (e.moveTo p).y := by
  simp [Element.moveTo]

/-- An element whose second target is its first one stays. -/
theorem Element.placed_again {axis : Distribution} {el : Element Rat}
    {targets targets' : List (ElementId × Point Rat)} (hkeys : (targets.map Prod.fst).Nodup)
    (hkeys' : (targets'.map Prod.fst).Nodup) {place place' : Rat}
    (h : (el.id, withAlong axis place el) ∈ targets)
    (h' : (el.id, withAlong axis place' (el.placed targets)) ∈ targets')
    (hsame : max place' 0 = max place 0) :
    (el.placed targets).placed targets' = el.placed targets := by
  rw [← el.id_placed targets] at h'
  rw [placed_of_mem hkeys' h']
  obtain ⟨hx, hy⟩ := el.nonneg_moveTo (withAlong axis place el)
  rw [← placed_of_mem hkeys h] at hx hy
  refine Distribute.moveTo_withAlong_self hx hy ?_
  rw [hsame, placed_of_mem hkeys h, Distribute.along_moveTo_withAlong]

/-- Elements placed along an axis. What is selected keeps all but its coordinate there, and the rest
stays. -/
structure PlacedAlong (axis : Distribution) (selection : Selection) (els : List (Element Rat))
    (placed : Element Rat → Element Rat) : Prop where
  /-- Nothing but positions has changed. -/
  displaced : ∀ el ∈ els, Displaced el (placed el)
  across : ∀ el ∈ els, along axis.across (placed el) = along axis.across el
  unselected : ∀ el ∈ els, selection.contains el.id = false → placed el = el

/-- Targets of the selected elements along an axis place along it. -/
theorem placedAlong_placed {axis : Distribution} {e : Editor Rat}
    (hids : (Sequence.ids e.chosen).Nodup) (hpos : ∀ el ∈ e.chosen, 0 ≤ el.x ∧ 0 ≤ el.y)
    {targets : List (ElementId × Point Rat)} (hkeys : (targets.map Prod.fst).Nodup)
    (htargets : ∀ target ∈ targets, ∃ el ∈ e.chosen, ∃ place,
      target = (el.id, withAlong axis place el)) :
    PlacedAlong axis e.selection e.elements (Element.placed targets) := by
  -- an id among the targets is that of a selected element
  have hof {el : Element Rat} (hel : el ∈ e.elements) (hmem : el.id ∈ targets.map Prod.fst) :
      el ∈ e.chosen ∧ ∃ place, (el.id, withAlong axis place el) ∈ targets := by
    obtain ⟨target, htarget, hid⟩ := List.mem_map.mp hmem
    obtain ⟨other, hother, place, rfl⟩ := htargets target htarget
    have hchosen : el ∈ e.chosen := Editor.mem_chosen_of_id hel (hid ▸ List.mem_map_of_mem hother)
    obtain rfl : other = el := List.inj_on_of_nodup_map hids hother hchosen hid
    exact ⟨hother, place, htarget⟩
  refine ⟨fun el _ => el.displaced_placed targets, fun el hel => ?_, fun el hel hnot => ?_⟩
  · by_cases hmem : el.id ∈ targets.map Prod.fst
    · obtain ⟨hchosen, place, htarget⟩ := hof hel hmem
      obtain ⟨hx, hy⟩ := hpos el hchosen
      rw [Element.placed_of_mem hkeys htarget, Distribute.along_across_moveTo hx hy]
    · rw [Element.placed_of_not_mem hmem]
  · refine Element.placed_of_not_mem fun hmem => ?_
    have hcontains := (List.mem_filter.mp (hof hel hmem).1).2
    rw [hnot] at hcontains
    cases hcontains

end ThermalLabel

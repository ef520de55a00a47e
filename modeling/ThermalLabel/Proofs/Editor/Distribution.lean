import Mathlib.Data.List.Sort
import Mathlib.Tactic.Ring
import ThermalLabel.Proofs.Editor.Placement

/-! # Distribution

A distribution takes the selected elements in their order along an axis, elements at the same place
in drawing order (`Distribute.inOrder_sorted`), and makes their places an arithmetic progression
between the least and the greatest (`Editor.distributed`).

The progression is ascending, so a second distribution finds the same places in the same order, even
if it takes elements at one place in another order than before (`Distribute.along_sorted_again`),
and it moves none of them. -/

namespace ThermalLabel

open Distribute (along withAlong)

namespace Distribute

variable {axis : Distribution} {els row row' : List (Element Rat)} {low high : Rat}

/-! ### The order along an axis -/

/-- A row of elements in their order along an axis. Elements at the same place keep their order. -/
structure InOrder (axis : Distribution) (els row : List (Element Rat)) : Prop where
  perm : row.Perm els
  ascending : row.Pairwise fun a b => along axis a ≤ along axis b
  stable : ∀ place, (row.filter fun el => along axis el == place) =
    els.filter fun el => along axis el == place

theorem inOrder_sorted (axis : Distribution) (els : List (Element Rat)) :
    InOrder axis els (sorted axis els) := by
  have htrans : ∀ a b c : Element Rat, Scalar.totalLe (along axis a) (along axis b) = true →
      Scalar.totalLe (along axis b) (along axis c) = true →
      Scalar.totalLe (along axis a) (along axis c) = true := by
    intro a b c hab hbc
    exact decide_eq_true ((of_decide_eq_true hab).trans (of_decide_eq_true hbc))
  have htotal : ∀ a b : Element Rat, (Scalar.totalLe (along axis a) (along axis b) ||
      Scalar.totalLe (along axis b) (along axis a)) = true := by
    intro a b
    rw [Bool.or_eq_true]
    exact (le_total (along axis a) (along axis b)).imp decide_eq_true decide_eq_true
  have hperm : (sorted axis els).Perm els := List.mergeSort_perm ..
  refine ⟨hperm, ?_, fun place => ?_⟩
  · exact (List.pairwise_mergeSort htrans htotal els).imp of_decide_eq_true
  · -- elements at one place are in order already, so sorting keeps them as a sublist
    have hsame : (els.filter fun el => along axis el == place).Pairwise fun a b =>
        Scalar.totalLe (along axis a) (along axis b) = true := by
      refine List.pairwise_of_forall_mem_list fun a ha b hb => ?_
      rw [eq_of_beq (List.mem_filter.mp ha).2, eq_of_beq (List.mem_filter.mp hb).2]
      exact decide_eq_true le_rfl
    have hsublist := (List.sublist_mergeSort htrans htotal hsame List.filter_sublist).filter
      fun el => along axis el == place
    simp only [List.filter_filter, Bool.and_self] at hsublist
    exact (hsublist.eq_of_length (hperm.filter _).length_eq.symm).symm

theorem InOrder.along_le_along (h : InOrder axis els row) {i j : Nat} (hi : i < row.length)
    (hj : j < row.length) (hij : i ≤ j) : along axis row[i] ≤ along axis row[j] := by
  rcases hij.eq_or_lt with rfl | hlt
  · exact le_rfl
  · exact List.pairwise_iff_getElem.mp h.ascending i j _ hj hlt

/-- An element of a row that is put in order has a place in it. -/
theorem InOrder.exists_place (h : InOrder axis els row) {el : Element Rat} (hel : el ∈ els) :
    ∃ i, ∃ hi : i < row.length, row[i] = el := List.mem_iff_getElem.mp (h.perm.mem_iff.mpr hel)

/-- The places of some elements. -/
def places (axis : Distribution) (els : List (Element Rat)) : Set Rat :=
  {place | ∃ el ∈ els, along axis el = place}

theorem InOrder.isLeast (h : InOrder axis els row) (hfirst : 0 < row.length) :
    IsLeast (places axis els) (along axis row[0]) := by
  refine ⟨⟨row[0], h.perm.mem_iff.mp (List.getElem_mem hfirst), rfl⟩, ?_⟩
  rintro _ ⟨el, hel, rfl⟩
  obtain ⟨i, hi, rfl⟩ := h.exists_place hel
  exact h.along_le_along hfirst hi (Nat.zero_le i)

theorem InOrder.isGreatest (h : InOrder axis els row) {last : Nat} (hlast : last + 1 = row.length) :
    IsGreatest (places axis els) (along axis row[last]) := by
  refine ⟨⟨row[last], h.perm.mem_iff.mp (List.getElem_mem _), rfl⟩, ?_⟩
  rintro _ ⟨el, hel, rfl⟩
  obtain ⟨i, hi, rfl⟩ := h.exists_place hel
  exact h.along_le_along hi (by omega) (by omega)

theorem exists_ends (axis : Distribution) (hsome : els ≠ []) :
    ∃ low high, IsLeast (places axis els) low ∧ IsGreatest (places axis els) high := by
  have horder := inOrder_sorted axis els
  have hlength : 0 < (sorted axis els).length := by
    rw [horder.perm.length_eq]
    exact List.length_pos_iff.mpr hsome
  obtain ⟨last, hlast⟩ : ∃ last, last + 1 = (sorted axis els).length :=
    ⟨_, Nat.sub_add_cancel hlength⟩
  exact ⟨_, _, horder.isLeast hlength, horder.isGreatest hlast⟩

/-! ### Evenly spaced places -/

/-- The place with index `i` of `count` places evenly spaced from the lowest to the highest. -/
def spaced (low high : Rat) (count i : Nat) : Rat := low + i * ((high - low) / (count - 1))

theorem spaced_zero (low high : Rat) (count : Nat) : spaced low high count 0 = low := by
  simp [spaced]

theorem spaced_last {count i : Nat} (hcount : 2 ≤ count) (hi : i + 1 = count) (low high : Rat) :
    spaced low high count i = high := by
  have hcast : (count : Rat) - 1 = i := by
    rw [← hi]
    push_cast
    ring
  have hne : (i : Rat) ≠ 0 := by
    rw [Nat.cast_ne_zero]
    omega
  rw [spaced, hcast, mul_div_cancel₀ _ hne]
  ring

theorem spaced_le_spaced {count i j : Nat} (hcount : 1 ≤ count) (hle : low ≤ high) (hij : i ≤ j) :
    spaced low high count i ≤ spaced low high count j := by
  have hstep : 0 ≤ (high - low) / ((count : Rat) - 1) :=
    div_nonneg (sub_nonneg.mpr hle) (sub_nonneg.mpr (by exact_mod_cast hcount))
  have hcast : (i : Rat) ≤ j := by exact_mod_cast hij
  exact add_le_add le_rfl (mul_le_mul_of_nonneg_right hcast hstep)

theorem placeAt_eq {count : Nat} (hcount : 3 ≤ count) (low high : Rat) (i : Nat) :
    placeAt low high count i = spaced low high count i := by
  unfold placeAt
  split_ifs with hfirst hlast
  · rw [hfirst, spaced_zero]
  · rw [spaced_last (by omega) hlast]
  · have hcast : ((count - 1 : Nat) : Rat) = count - 1 := by
      rw [Nat.cast_sub (by omega), Nat.cast_one]
    show low + (high - low) / ((count - 1 : Nat) : Rat) * (i : Rat) = _
    rw [hcast, mul_comm _ (i : Rat), spaced]

theorem spaced_nonneg {count : Nat} (hcount : 1 ≤ count) (hlow : 0 ≤ low) (hle : low ≤ high)
    (i : Nat) : 0 ≤ spaced low high count i := by
  have hfirst := spaced_le_spaced hcount hle (Nat.zero_le i)
  rw [spaced_zero] at hfirst
  exact hlow.trans hfirst

/-! ### Where elements are put -/

/-- The targets are evenly spaced between the least and the greatest place, in order. -/
theorem targets_eq (hcount : 3 ≤ els.length) (hlow : IsLeast (places axis els) low)
    (hhigh : IsGreatest (places axis els) high) :
    targets els axis = (sorted axis els).mapIdx fun i el =>
      (el.id, withAlong axis (spaced low high els.length i) el) := by
  have horder := inOrder_sorted axis els
  have hlength : (sorted axis els).length = els.length := horder.perm.length_eq
  obtain ⟨last, hlast⟩ : ∃ last, last + 1 = (sorted axis els).length := ⟨els.length - 1, by omega⟩
  have hhead : (sorted axis els).head? = some (sorted axis els)[0] := by
    rw [List.head?_eq_getElem?, List.getElem?_eq_getElem]
  have hend : (sorted axis els).getLast? = some (sorted axis els)[last] := by
    rw [List.getLast?_eq_getElem?, show (sorted axis els).length - 1 = last by omega,
      List.getElem?_eq_getElem]
  rw [hlow.unique (horder.isLeast (by omega)), hhigh.unique (horder.isGreatest hlast), targets,
    hhead, hend]
  dsimp only
  rw [if_neg (Nat.not_lt.mpr (hcount.trans_eq hlength.symm))]
  simp only [hlength, placeAt_eq hcount]

theorem targets_of_few (axis : Distribution) (hfew : els.length < 3) : targets els axis = [] := by
  have hlength : (sorted axis els).length = els.length := (inOrder_sorted axis els).perm.length_eq
  rw [targets]
  split
  · rw [if_pos (hlength.trans_lt hfew)]
  · rfl

section
variable (hcount : 3 ≤ els.length) (hlow : IsLeast (places axis els) low)
  (hhigh : IsGreatest (places axis els) high)
include hcount hlow hhigh

theorem map_fst_targets_perm : ((targets els axis).map Prod.fst).Perm (Sequence.ids els) := by
  have hkeys : (targets els axis).map Prod.fst = Sequence.ids (sorted axis els) := by
    rw [targets_eq hcount hlow hhigh]
    refine List.ext_getElem (by simp [Sequence.ids]) fun i _ _ => ?_
    simp [Sequence.ids]
  rw [hkeys]
  exact (inOrder_sorted axis els).perm.map _

theorem mem_targets {i : Nat} (hi : i < (sorted axis els).length) :
    ((sorted axis els)[i].id, withAlong axis (spaced low high els.length i) (sorted axis els)[i]) ∈
      targets els axis := by
  rw [targets_eq hcount hlow hhigh]
  exact List.mem_mapIdx.mpr ⟨i, hi, rfl⟩

theorem along_placed (hids : (Sequence.ids els).Nodup) (hnonneg : 0 ≤ low) {i : Nat}
    (hi : i < (sorted axis els).length) :
    along axis ((sorted axis els)[i].placed (targets els axis)) = spaced low high els.length i := by
  have hkeys := (map_fst_targets_perm hcount hlow hhigh).nodup_iff.mpr hids
  rw [Element.placed_of_mem hkeys (mem_targets hcount hlow hhigh hi), along_moveTo_withAlong]
  exact max_eq_left (spaced_nonneg (by omega) hnonneg (hlow.2 hhigh.1) i)

/-- The least place stays. -/
theorem isLeast_placed (hids : (Sequence.ids els).Nodup) (hnonneg : 0 ≤ low) :
    IsLeast (places axis (els.map (Element.placed (targets els axis)))) low := by
  have horder := inOrder_sorted axis els
  have hlength : (sorted axis els).length = els.length := horder.perm.length_eq
  have hfirst : 0 < (sorted axis els).length := by omega
  constructor
  · have hmem : (sorted axis els)[0] ∈ els := horder.perm.mem_iff.mp (List.getElem_mem hfirst)
    refine ⟨_, List.mem_map_of_mem hmem, ?_⟩
    rw [along_placed hcount hlow hhigh hids hnonneg, spaced_zero]
  · rintro _ ⟨_, hplaced, rfl⟩
    obtain ⟨el, hel, rfl⟩ := List.mem_map.mp hplaced
    obtain ⟨i, hi, rfl⟩ := horder.exists_place hel
    have hsome : 1 ≤ els.length := by omega
    have hle := spaced_le_spaced hsome (hlow.2 hhigh.1) (Nat.zero_le i)
    rwa [spaced_zero, ← along_placed hcount hlow hhigh hids hnonneg hi] at hle

/-- The greatest place stays. -/
theorem isGreatest_placed (hids : (Sequence.ids els).Nodup) (hnonneg : 0 ≤ low) :
    IsGreatest (places axis (els.map (Element.placed (targets els axis)))) high := by
  have horder := inOrder_sorted axis els
  have hlength : (sorted axis els).length = els.length := horder.perm.length_eq
  obtain ⟨last, hlast⟩ : ∃ last, last + 1 = els.length := ⟨els.length - 1, by omega⟩
  have hend : last < (sorted axis els).length := by omega
  constructor
  · have hmem : (sorted axis els)[last] ∈ els := horder.perm.mem_iff.mp (List.getElem_mem hend)
    refine ⟨_, List.mem_map_of_mem hmem, ?_⟩
    rw [along_placed hcount hlow hhigh hids hnonneg, spaced_last (by omega) hlast]
  · rintro _ ⟨_, hplaced, rfl⟩
    obtain ⟨el, hel, rfl⟩ := List.mem_map.mp hplaced
    obtain ⟨i, hi, rfl⟩ := horder.exists_place hel
    have hsome : 1 ≤ els.length := by omega
    have hle := spaced_le_spaced hsome (hlow.2 hhigh.1) (show i ≤ last by omega)
    rwa [spaced_last (by omega) hlast, ← along_placed hcount hlow hhigh hids hnonneg hi] at hle

/-- Put in order again, elements that are distributed are at the same places. -/
theorem along_sorted_again (hids : (Sequence.ids els).Nodup) (hnonneg : 0 ≤ low) {i : Nat}
    (hi : i < (sorted axis (els.map (Element.placed (targets els axis)))).length) :
    along axis (sorted axis (els.map (Element.placed (targets els axis))))[i] =
      spaced low high els.length i := by
  have horder := inOrder_sorted axis els
  have hagain := inOrder_sorted axis (els.map (Element.placed (targets els axis)))
  have hsome : 1 ≤ els.length := by omega
  have hspaced : (((sorted axis els).map (Element.placed (targets els axis))).map
      (along axis)).Pairwise (· ≤ ·) := by
    rw [List.map_map, List.pairwise_iff_getElem]
    intro i j hi hj hij
    rw [List.length_map] at hi hj
    rw [List.getElem_map, List.getElem_map, Function.comp_apply, Function.comp_apply,
      along_placed hcount hlow hhigh hids hnonneg hi,
      along_placed hcount hlow hhigh hids hnonneg hj]
    exact spaced_le_spaced hsome (hlow.2 hhigh.1) hij.le
  -- both rows are ascending, and one is the other in another order
  have hperm := (hagain.perm.trans (horder.perm.map _).symm).map (along axis)
  have hsame := hperm.eq_of_pairwise (fun _ _ _ _ hle hge => le_antisymm hle hge)
    (List.pairwise_map.mpr hagain.ascending) hspaced
  have hplace := List.getElem_of_eq hsame (by rwa [List.length_map])
  simpa [along_placed hcount hlow hhigh hids hnonneg] using hplace

/-- Elements that are distributed stay where they are. -/
theorem placed_again (hids : (Sequence.ids els).Nodup) (hnonneg : 0 ≤ low) {el : Element Rat}
    (hel : el ∈ els) :
    (el.placed (targets els axis)).placed
        (targets (els.map (Element.placed (targets els axis))) axis) =
      el.placed (targets els axis) := by
  have hcount' : 3 ≤ (els.map (Element.placed (targets els axis))).length := by
    rwa [List.length_map]
  have hlow' := isLeast_placed hcount hlow hhigh hids hnonneg
  have hhigh' := isGreatest_placed hcount hlow hhigh hids hnonneg
  have hkeys := (map_fst_targets_perm hcount hlow hhigh).nodup_iff.mpr hids
  have hkeys' := (map_fst_targets_perm hcount' hlow' hhigh').nodup_iff.mpr
    (by rwa [Element.ids_map_placed])
  obtain ⟨i, hi, rfl⟩ := (inOrder_sorted axis els).exists_place hel
  obtain ⟨j, hj, hplaced⟩ := (inOrder_sorted axis (els.map (Element.placed
    (targets els axis)))).exists_place (List.mem_map_of_mem hel)
  have hmem' := mem_targets hcount' hlow' hhigh' hj
  rw [hplaced, Element.id_placed, List.length_map] at hmem'
  refine Element.placed_again hkeys hkeys' (mem_targets hcount hlow hhigh hi) hmem' ?_
  rw [← along_sorted_again hcount hlow hhigh hids hnonneg hj, hplaced,
    along_placed hcount hlow hhigh hids hnonneg hi]

/-- Elements spread along an axis. In their order before, their places are evenly spaced from the
least to the greatest, and these two stay. -/
structure Spread (axis : Distribution) (els row : List (Element Rat)) (low high : Rat)
    (placed : Element Rat → Element Rat) : Prop where
  inOrder : InOrder axis els row
  least : IsLeast (places axis els) low
  greatest : IsGreatest (places axis els) high
  least_placed : IsLeast (places axis (els.map placed)) low
  greatest_placed : IsGreatest (places axis (els.map placed)) high
  progression : ∀ i, ∀ hi : i < row.length,
    along axis (placed row[i]) = low + i * ((high - low) / (els.length - 1))

theorem spread_placed (hids : (Sequence.ids els).Nodup) (hnonneg : 0 ≤ low) :
    Spread axis els (sorted axis els) low high (Element.placed (targets els axis)) where
  inOrder := inOrder_sorted axis els
  least := hlow
  greatest := hhigh
  least_placed := isLeast_placed hcount hlow hhigh hids hnonneg
  greatest_placed := isGreatest_placed hcount hlow hhigh hids hnonneg
  progression _ hi := along_placed hcount hlow hhigh hids hnonneg hi

end

end Distribute

namespace Editor

variable {e : Editor Rat}

/-- What is distributed a second time are the elements as they are placed. -/
theorem distribute_again {targets : List (ElementId × Point Rat)}
    (hkeys : (targets.map Prod.fst).Nodup) (axis : Distribution) :
    (e.moveToTargets targets).editor.distribute axis =
      (e.moveToTargets targets).editor.moveToTargets
        (Distribute.targets (e.chosen.map (Element.placed targets)) axis) := by
  obtain ⟨history, heditor⟩ := e.editor_moveToTargets hkeys
  rw [chosen, ← Sequence.selected_map (Element.id_placed _), heditor]
  rfl

/-- **Distribution spaces what is selected evenly**, and there is nothing to distribute a second
time. Of fewer than three elements it moves none. -/
theorem distributed (e : Editor Rat) (axis : Distribution) :
    (e.chosen.length < 3 → e.distribute axis = e.keeping ()) ∧
    ((Sequence.ids e.chosen).Nodup → (∀ el ∈ e.chosen, 0 ≤ el.x ∧ 0 ≤ el.y) →
      3 ≤ e.chosen.length →
      ∃ placed row low high,
        (e.distribute axis).editor.elements = e.elements.map placed ∧
        PlacedAlong axis e.selection e.elements placed ∧
        Distribute.Spread axis e.chosen row low high placed ∧
        (e.distribute axis).editor.distribute axis =
          (e.distribute axis).editor.keeping ()) := by
  refine ⟨fun hfew => ?_, fun hids hpos hcount => ?_⟩
  · have htargets : Distribute.targets e.chosen axis = [] := Distribute.targets_of_few axis hfew
    show e.moveToTargets (Distribute.targets e.chosen axis) = _
    rw [htargets]
    rfl
  · have hsome : e.chosen ≠ [] := List.ne_nil_of_length_pos (by omega)
    obtain ⟨low, high, hlow, hhigh⟩ := Distribute.exists_ends axis hsome
    have hnonneg : 0 ≤ low := by
      obtain ⟨el, hel, rfl⟩ := hlow.1
      obtain ⟨hx, hy⟩ := hpos el hel
      cases axis with
      | horizontal => exact hx
      | vertical => exact hy
    have htargets := Distribute.map_fst_targets_perm hcount hlow hhigh
    have hkeys := htargets.nodup_iff.mpr hids
    have hdistribute : e.distribute axis =
      e.moveToTargets (Distribute.targets e.chosen axis) := rfl
    rw [hdistribute, distribute_again hkeys]
    refine ⟨Element.placed (Distribute.targets e.chosen axis), Distribute.sorted axis e.chosen, low,
      high, ?_, ?_, Distribute.spread_placed hcount hlow hhigh hids hnonneg, ?_⟩
    · obtain ⟨history, heditor⟩ := e.editor_moveToTargets hkeys
      exact congrArg Editor.elements heditor
    · refine placedAlong_placed hids hpos hkeys fun target htarget => ?_
      rw [Distribute.targets_eq hcount hlow hhigh] at htarget
      obtain ⟨i, hi, rfl⟩ := List.mem_mapIdx.mp htarget
      have hmem := (Distribute.inOrder_sorted axis e.chosen).perm.mem_iff.mp (List.getElem_mem hi)
      exact ⟨_, hmem, _, rfl⟩
    · have hcount' :
          3 ≤ (e.chosen.map (Element.placed (Distribute.targets e.chosen axis))).length := by
        rwa [List.length_map]
      have hagain := Distribute.map_fst_targets_perm hcount'
        (Distribute.isLeast_placed hcount hlow hhigh hids hnonneg)
        (Distribute.isGreatest_placed hcount hlow hhigh hids hnonneg)
      rw [Element.ids_map_placed] at hagain
      exact moveToTargets_again hids htargets hagain fun el hel =>
        Distribute.placed_again hcount hlow hhigh hids hnonneg hel

/-- A session with four boxes, the last two of them at the same place along the label. -/
def fourBoxes : Session Rat where
  document := ⟨LabelSize.standard,
    [{ Element.default .box with id := "a", x := 30 },
      { Element.default .box with id := "b", x := 3, y := 5 },
      { Element.default .box with id := "c", x := 4, y := 7 },
      { Element.default .box with id := "d", x := 4 }]⟩
  settings := Settings.standard

/-- An editor with four boxes, all of them selected. -/
def fourSelected : Editor Rat := (openStored (.ok (some fourBoxes)) (.numbered 0)).selectAll

/-- Four boxes are distributed; of the two at the same place the one at the back comes first. -/
theorem four_boxes_distributed :
    (∃ placed row low high,
      (fourSelected.distribute .horizontal).editor.elements = fourSelected.elements.map placed ∧
      PlacedAlong .horizontal fourSelected.selection fourSelected.elements placed ∧
      Distribute.Spread .horizontal fourSelected.chosen row low high placed) ∧
    (fourSelected.distribute .horizontal).editor.elements.map Element.x = [30, 3, 12, 21] ∧
    (fourSelected.distribute .horizontal).editor.distribute .horizontal =
      (fourSelected.distribute .horizontal).editor.keeping () := by
  obtain ⟨-, hmany⟩ := distributed fourSelected .horizontal
  obtain ⟨placed, row, low, high, helements, hplaced, hspread, hagain⟩ :=
    hmany (by decide +kernel) (by decide +kernel) (by decide +kernel)
  refine ⟨⟨placed, row, low, high, helements, hplaced, hspread⟩, ?_, hagain⟩
  have hchosen : fourSelected.chosen = fourBoxes.document.elements := rfl
  have hsorted : Distribute.sorted .horizontal fourSelected.chosen =
      fourSelected.chosen.drop 1 ++ fourSelected.chosen.take 1 := by
    rw [hchosen]
    norm_num [Distribute.sorted, fourBoxes, List.mergeSort, List.merge, along, Scalar.totalLe]
  have hdistribute : fourSelected.distribute .horizontal =
    fourSelected.moveToTargets (Distribute.targets fourSelected.chosen .horizontal) := rfl
  rw [hdistribute, Distribute.targets, hsorted]
  decide +kernel

end Editor

end ThermalLabel

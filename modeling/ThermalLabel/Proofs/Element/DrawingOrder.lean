import Mathlib.Data.List.InsertIdx
import Mathlib.Logic.Function.Iterate
import ThermalLabel.Proofs.Element.DistinctIds
import ThermalLabel.Scalar.Rational

/-! # Moves through the drawing order

An element that is moved through the drawing order is taken from its place and put into another one,
between others that stay as they are (`reorder_insertIdx`). So each of the four ways is a change of
a number, the place of the element, and what the ways have to do with each other is arithmetic of
places (`reorder_laws`). -/

namespace ThermalLabel

variable {α : Type}

/-! ### Places -/

namespace Reorder

/-- The place that a way leads to, in a row whose last place is the top. -/
def destination (top : Nat) : Reorder → Nat → Nat
  | .front, _ => top
  | .back, _ => 0
  | .up, i => min (i + 1) top
  | .down, i => i - 1

variable {top i : Nat}

theorem destination_le (how : Reorder) (h : i ≤ top) : how.destination top i ≤ top := by
  cases how <;> simp only [destination] <;> omega

theorem iterate_destination_le (how : Reorder) (h : i ≤ top) (count : Nat) :
    (how.destination top)^[count] i ≤ top := by
  induction count with
  | zero => exact h
  | succ count ih =>
    rw [Function.iterate_succ_apply']
    exact how.destination_le ih

/-- A step up that leads somewhere is undone by a step down. -/
theorem down_up (h : i ≤ top) (hmoves : destination top .up i ≠ i) :
    destination top .down (destination top .up i) = i := by
  simp only [destination] at hmoves ⊢
  omega

/-- A step down that leads somewhere is undone by a step up. -/
theorem up_down (h : i ≤ top) (hmoves : destination top .down i ≠ i) :
    destination top .up (destination top .down i) = i := by
  simp only [destination] at hmoves ⊢
  omega

theorem iterate_up (h : i ≤ top) (count : Nat) :
    (destination top .up)^[count] i = min (i + count) top := by
  induction count with
  | zero => exact (Nat.min_eq_left h).symm
  | succ count ih =>
    rw [Function.iterate_succ_apply', ih, destination]
    omega

theorem iterate_down (top i count : Nat) : (destination top .down)^[count] i = i - count := by
  induction count with
  | zero => rfl
  | succ count ih =>
    rw [Function.iterate_succ_apply', ih, destination, Nat.sub_sub]

end Reorder

namespace Sequence

variable {rest els : List (Element α)} {e : Element α} {id : ElementId} {i : Nat}

/-! ### An element between others -/

theorem indexOf?_eq_none (h : id ∉ ids els) : indexOf? els id = none := by
  refine List.findIdx?_eq_none_iff.mpr fun e he => beq_eq_false_iff_ne.mpr ?_
  rintro rfl
  exact h (List.mem_map_of_mem he)

theorem indexOf?_insertIdx (h : e.id ∉ ids rest) (hi : i ≤ rest.length) :
    indexOf? (rest.insertIdx i e) e.id = some i := by
  unfold indexOf?
  induction rest generalizing i with
  | nil =>
    obtain rfl := Nat.le_zero.mp hi
    simp
  | cons first rest ih =>
    obtain ⟨hfirst, hrest⟩ := not_or.mp (mt List.mem_cons.mpr h)
    cases i with
    | zero => rw [List.insertIdx_zero, List.findIdx?_cons, beq_self_eq_true, if_pos rfl]
    | succ i =>
      rw [List.insertIdx_succ_cons, List.findIdx?_cons, beq_eq_false_iff_ne.mpr (Ne.symm hfirst),
        ih hrest (Nat.le_of_succ_le_succ hi)]
      rfl

theorem filter_insertIdx (rest : List (Element α)) (e : Element α) (i : Nat) :
    ((rest.insertIdx i e).filter fun el => el.id != e.id) =
      rest.filter fun el => el.id != e.id := by
  induction rest generalizing i with
  | nil => cases i <;> simp
  | cons first rest ih =>
    cases i with
    | zero => simp
    | succ i =>
      rw [List.insertIdx_succ_cons, List.filter_cons, List.filter_cons, ih]

/-- An element of a sequence with distinct ids lies between others that have other ids. -/
theorem exists_place (h : (ids els).Nodup) (hid : id ∈ ids els) :
    ∃ (rest : List (Element α)) (i : Nat) (e : Element α),
      els = rest.insertIdx i e ∧ e.id = id ∧ i ≤ rest.length ∧ e.id ∉ ids rest := by
  obtain ⟨e, he, rfl⟩ := List.mem_map.mp hid
  obtain ⟨i, hi, rfl⟩ := List.getElem_of_mem he
  have hperm := (List.getElem_cons_eraseIdx_perm hi).map Element.id
  refine ⟨els.eraseIdx i, i, els[i], (List.insertIdx_eraseIdx_getElem hi).symm, rfl, ?_, ?_⟩
  · rw [List.length_eraseIdx_of_lt hi]
    exact Nat.le_sub_one_of_lt hi
  · exact (List.nodup_cons.mp (hperm.nodup_iff.mpr h)).1

/-! ### Taken out and put back -/

theorem swapNext_insertIdx {β : Type} (x : β) {rest : List β} (hi : i < rest.length) :
    swapNext i (rest.insertIdx i x) = rest.insertIdx (i + 1) x ∧
      swapNext i (rest.insertIdx (i + 1) x) = rest.insertIdx i x := by
  induction rest generalizing i with
  | nil => cases hi
  | cons first rest ih =>
    cases i with
    | zero => exact ⟨rfl, rfl⟩
    | succ i =>
      obtain ⟨hup, hdown⟩ := ih (Nat.lt_of_succ_lt_succ hi)
      simp only [List.insertIdx_succ_cons, swapNext]
      exact ⟨congrArg _ hup, congrArg _ hdown⟩

/-- At the top there is nothing to be exchanged with. -/
theorem swapNext_last {β : Type} (x : β) (rest : List β) :
    swapNext rest.length (rest ++ [x]) = rest ++ [x] := by
  induction rest with
  | nil => rfl
  | cons first rest ih => exact congrArg (first :: ·) ih

/-- **An element that is moved changes its place**, and the others stay in their order. -/
theorem reorder_insertIdx (h : e.id ∉ ids rest) (hi : i ≤ rest.length) (how : Reorder) :
    reorder (rest.insertIdx i e) e.id how =
      rest.insertIdx (how.destination rest.length i) e := by
  have hget : (rest.insertIdx i e)[i]? = some e := by
    rw [List.getElem?_insertIdx_self, if_pos hi]
  unfold reorder
  rw [indexOf?_insertIdx h hi]
  cases how with
  | front => simp only [hget, List.eraseIdx_insertIdx_self, Option.toList_some,
      Reorder.destination, List.insertIdx_length_self]
  | back => simp only [hget, List.eraseIdx_insertIdx_self, Option.toList_some,
      Reorder.destination, List.insertIdx_zero, List.singleton_append]
  | up =>
    simp only [Reorder.destination]
    rcases Nat.lt_or_eq_of_le hi with htop | rfl
    · rw [Nat.min_eq_left htop]
      exact (swapNext_insertIdx e htop).1
    · rw [Nat.min_eq_right (Nat.le_succ _), List.insertIdx_length_self]
      exact swapNext_last e rest
  | down =>
    cases i with
    | zero => rfl
    | succ i => exact (swapNext_insertIdx e hi).2

theorem reorder_of_not_mem (h : id ∉ ids els) (how : Reorder) : reorder els id how = els := by
  rw [reorder, indexOf?_eq_none h]

theorem iterate_reorder_insertIdx (h : e.id ∉ ids rest) (hi : i ≤ rest.length) (how : Reorder)
    (count : Nat) :
    (fun row => reorder row e.id how)^[count] (rest.insertIdx i e) =
      rest.insertIdx ((how.destination rest.length)^[count] i) e := by
  induction count with
  | zero => rfl
  | succ count ih =>
    rw [Function.iterate_succ_apply', Function.iterate_succ_apply', ih]
    exact reorder_insertIdx h (how.iterate_destination_le hi count) how

/-! ### The laws -/

/-- What a way makes of a sequence: it has the same elements, those with other ids in the order that
they had, the one with the id at the place that the way leads to; and without such an element
nothing changes. -/
structure Reordered (id : ElementId) (how : Reorder) (els els' : List (Element α)) : Prop where
  perm : els'.Perm els
  others : (els'.filter fun e => e.id != id) = els.filter fun e => e.id != id
  place : ∀ i ∈ indexOf? els id, indexOf? els' id = some (how.destination (els.length - 1) i)
  unknown : id ∉ ids els → els' = els

theorem reordered_reorder (h : (ids els).Nodup) (id : ElementId) (how : Reorder) :
    Reordered id how els (reorder els id how) := by
  by_cases hid : id ∈ ids els
  · refine ⟨reorder_perm els id how, ?_, ?_, fun hnot => absurd hid hnot⟩
    all_goals obtain ⟨rest, i, e, rfl, rfl, hi, hrest⟩ := exists_place h hid
    · rw [reorder_insertIdx hrest hi, filter_insertIdx, filter_insertIdx]
    · rw [reorder_insertIdx hrest hi, indexOf?_insertIdx hrest hi,
        indexOf?_insertIdx hrest (how.destination_le hi), List.length_insertIdx_of_le_length hi]
      rintro _ ⟨⟩
      rfl
  · rw [reorder_of_not_mem hid]
    refine ⟨List.Perm.refl els, rfl, ?_, fun _ => rfl⟩
    rw [indexOf?_eq_none hid]
    rintro _ ⟨⟩

/-- **The laws of the drawing order.** Every way leads to its place and leaves the others in order;
a step up and a step down undo each other, unless the first one led nowhere; going to an end twice
is going there once; and enough steps lead to the end. -/
theorem reorder_laws (h : (ids els).Nodup) (id : ElementId) :
    (∀ how, Reordered id how els (reorder els id how)) ∧
    (reorder els id .up ≠ els → reorder (reorder els id .up) id .down = els) ∧
    (reorder els id .down ≠ els → reorder (reorder els id .down) id .up = els) ∧
    (∀ how, how = .front ∨ how = .back →
      reorder (reorder els id how) id how = reorder els id how) ∧
    ∀ count, els.length - 1 ≤ count →
      (fun row => reorder row id .up)^[count] els = reorder els id .front ∧
      (fun row => reorder row id .down)^[count] els = reorder els id .back := by
  refine ⟨reordered_reorder h id, ?_⟩
  by_cases hid : id ∈ ids els
  · obtain ⟨rest, i, e, rfl, rfl, hi, hrest⟩ := exists_place h hid
    have hmoved (how : Reorder) := reorder_insertIdx hrest hi how
    have htwice (how how' : Reorder) := reorder_insertIdx hrest (how.destination_le hi) how'
    have hsteps (how : Reorder) := iterate_reorder_insertIdx hrest hi how
    rw [List.length_insertIdx_of_le_length hi, Nat.add_sub_cancel]
    refine ⟨fun hne => ?_, fun hne => ?_, ?_, fun count hcount => ⟨?_, ?_⟩⟩
    · rw [hmoved] at hne
      rw [hmoved, htwice, Reorder.down_up hi fun hsame => hne (by rw [hsame])]
    · rw [hmoved] at hne
      rw [hmoved, htwice, Reorder.up_down hi fun hsame => hne (by rw [hsame])]
    · rintro how (rfl | rfl) <;> rw [hmoved, htwice] <;> rfl
    · rw [hsteps, hmoved, Reorder.iterate_up hi, Nat.min_eq_right (by omega)]
      rfl
    · rw [hsteps, hmoved, Reorder.iterate_down, Nat.sub_eq_zero_of_le (by omega)]
      rfl
  · have hstay (how : Reorder) := reorder_of_not_mem hid how
    refine ⟨fun hne => absurd (hstay .up) hne, fun hne => absurd (hstay .down) hne,
      fun how _ => ?_, fun count _ => ⟨?_, ?_⟩⟩
    · rw [hstay, hstay]
    · rw [hstay, Function.iterate_fixed (hstay .up)]
    · rw [hstay, Function.iterate_fixed (hstay .down)]

/-- A row of boxes with these ids. -/
def boxRow (ids : List ElementId) : List (Element Rat) :=
  ids.map fun id => { Element.default .box with id }

/-- The second of four boxes goes up and down again, and three steps up bring it to the front. -/
theorem second_of_four_boxes_moved :
    let row := boxRow ["a", "b", "c", "d"]
    Reordered "b" .up row (reorder row "b" .up) ∧ ids (reorder row "b" .up) = ["a", "c", "b", "d"] ∧
      reorder (reorder row "b" .up) "b" .down = row ∧
      (fun row => reorder row "b" .up)^[3] row = reorder row "b" .front ∧
      ids (reorder row "b" .front) = ["a", "c", "d", "b"] := by
  intro row
  have hdistinct : (ids row).Nodup := by decide
  obtain ⟨hmoved, hdown, -, -, hsteps⟩ := reorder_laws hdistinct "b"
  have hup : ids (reorder row "b" .up) = ["a", "c", "b", "d"] := by decide
  refine ⟨hmoved .up, hup, hdown fun hsame => ?_, (hsteps 3 (by decide)).1, by decide⟩
  rw [hsame] at hup
  exact absurd hup (by decide)

end Sequence

end ThermalLabel

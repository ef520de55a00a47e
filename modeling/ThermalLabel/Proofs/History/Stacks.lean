import Mathlib.Data.List.Infix
import ThermalLabel.Editor.History

/-! # The two stacks of a history

The snapshots before the cursor and the snapshots after it, each with the nearest one first. A
commit pushes the current snapshot on the past, as far as there is room, and empties the future.
Undo and redo pass one snapshot from stack to stack by way of the current one. -/

namespace ThermalLabel.History

variable {β : Type}

/-- The snapshots before the current one, the latest first. -/
def past (h : History β) : List β := (h.snapshots.toList.take h.cursor).reverse

/-- The snapshots after the current one, the next first. -/
def future (h : History β) : List β := h.snapshots.toList.drop (h.cursor + 1)

theorem cursor_lt_length (h : History β) : h.cursor < h.snapshots.toList.length := by
  rw [Array.length_toList]; exact h.cursor_lt

theorem length_past (h : History β) : h.past.length = h.cursor := by
  have := h.cursor_lt_length
  rw [past, List.length_reverse, List.length_take]; omega

theorem getElem?_cursor (h : History β) : h.snapshots.toList[h.cursor]? = some h.current :=
  current_eq_iff.mp rfl

/-- The row of snapshots up to the current one, read backwards. -/
theorem current_cons_past (h : History β) :
    h.current :: h.past = (h.snapshots.toList.take (h.cursor + 1)).reverse := by
  rw [List.take_add_one, getElem?_cursor]
  simp [past]

/-- The row of snapshots from the current one on. -/
theorem current_cons_future (h : History β) :
    h.current :: h.future = h.snapshots.toList.drop h.cursor := by
  rw [List.drop_eq_getElem_cons h.cursor_lt_length]
  rfl

/-- The row of snapshots is the past, the current one and the future. -/
theorem toList_snapshots (h : History β) :
    h.snapshots.toList = h.past.reverse ++ h.current :: h.future := by
  rw [current_cons_future, past, List.reverse_reverse, List.take_append_drop]

/-! ### Commit and reset -/

theorem capacity_commit (h : History β) (snapshot : β) :
    (h.commit snapshot).capacity = h.capacity := by
  obtain ⟨snapshots, cursor, capacity, cursor_lt⟩ := h
  unfold commit
  dsimp only
  split <;> rfl

/-- The current snapshot goes to the past, and the oldest one goes if there is no room. -/
theorem past_commit (h : History β) (snapshot : β) :
    (h.commit snapshot).past = (h.current :: h.past).take (h.commit snapshot).cursor := by
  have hlen : (h.snapshots.toList.take (h.cursor + 1)).length = h.cursor + 1 := by
    have := h.cursor_lt_length
    rw [List.length_take]; omega
  rw [current_cons_past, past, toList_commit, cursor_commit]
  generalize h.snapshots.toList.take (h.cursor + 1) = row at hlen ⊢
  rw [List.take_reverse, hlen]
  congr 1
  split_ifs with hc
  · rw [List.drop_append_of_le_length (by omega), Nat.add_sub_cancel_left]
    exact List.take_left' (by rw [List.length_drop]; omega)
  · rw [List.drop_zero, Nat.sub_self, List.drop_zero]
    exact List.take_left' hlen

/-- A commit leaves nothing to redo. -/
theorem future_commit (h : History β) (snapshot : β) : (h.commit snapshot).future = [] := by
  have hlt := h.cursor_lt_length
  rw [future, toList_commit, cursor_commit]
  apply List.drop_of_length_le
  rw [List.length_drop, List.length_append, List.length_take, List.length_singleton]
  split_ifs <;> omega

/-- As long as there is room, a row of commits grows on what is current. -/
theorem reverse_prefix_foldl_commit {h : History β} {row snapshots : List β}
    (hrow : row.reverse <+: h.current :: h.past)
    (hroom : row.length + snapshots.length ≤ h.capacity) :
    (row ++ snapshots).reverse <+:
      (snapshots.foldl commit h).current :: (snapshots.foldl commit h).past := by
  induction snapshots generalizing h row with
  | nil => rwa [List.append_nil]
  | cons snapshot rest ih =>
    rw [List.length_cons] at hroom
    -- what the commit takes from the past lies deeper than the row, since there is room
    have hstep : (row ++ [snapshot]).reverse <+:
        (h.commit snapshot).current :: (h.commit snapshot).past := by
      rw [List.reverse_concat, current_commit, List.cons_prefix_cons, past_commit,
        List.prefix_take_iff]
      refine ⟨rfl, hrow, ?_⟩
      have hlength := hrow.length_le
      rw [List.length_reverse, List.length_cons, length_past] at hlength
      rw [List.length_reverse, cursor_commit]
      split_ifs <;> omega
    have hrest := ih hstep (by
      rw [capacity_commit, List.length_append, List.length_singleton]
      omega)
    rwa [List.append_assoc, List.singleton_append] at hrest

/-- A commit keeps snapshots and adds its own; it brings in no other. -/
theorem mem_commit {h : History β} {snapshot s : β}
    (hs : s ∈ (h.commit snapshot).snapshots.toList) : s ∈ h.snapshots.toList ∨ s = snapshot := by
  rw [toList_commit] at hs
  rcases List.mem_append.mp (List.mem_of_mem_drop hs) with hs | hs
  · exact Or.inl (List.mem_of_mem_take hs)
  · exact Or.inr (List.mem_singleton.mp hs)

/-! ### Undo and redo -/

theorem undo?_eq_none_iff {h : History β} : h.undo? = none ↔ h.past = [] := by
  rw [← List.length_eq_zero_iff, length_past, undo?]
  split <;> simp <;> omega

theorem redo?_eq_none_iff {h : History β} : h.redo? = none ↔ h.future = [] := by
  rw [future, List.drop_eq_nil_iff, Array.length_toList, redo?]
  split <;> simp <;> omega

theorem undo?_spec {h h' : History β} (hu : h.undo? = some h') :
    h'.snapshots = h.snapshots ∧ h'.cursor + 1 = h.cursor ∧ h'.capacity = h.capacity := by
  unfold undo? at hu
  split at hu
  · cases hu
    exact ⟨rfl, by dsimp only; omega, rfl⟩
  · cases hu

theorem redo?_spec {h h' : History β} (hr : h.redo? = some h') :
    h'.snapshots = h.snapshots ∧ h'.cursor = h.cursor + 1 ∧ h'.capacity = h.capacity := by
  unfold redo? at hr
  split at hr
  · cases hr
    exact ⟨rfl, rfl, rfl⟩
  · cases hr

theorem past_of_undo? {h h' : History β} (hu : h.undo? = some h') :
    h.past = h'.current :: h'.past := by
  obtain ⟨hs, hc, -⟩ := undo?_spec hu
  rw [current_cons_past, hs, hc, past]

theorem future_of_undo? {h h' : History β} (hu : h.undo? = some h') :
    h'.future = h.current :: h.future := by
  obtain ⟨hs, hc, -⟩ := undo?_spec hu
  rw [current_cons_future, future, hs, hc]

theorem past_of_redo? {h h' : History β} (hr : h.redo? = some h') :
    h'.past = h.current :: h.past := by
  obtain ⟨hs, hc, -⟩ := redo?_spec hr
  rw [current_cons_past, past, hs, hc]

theorem future_of_redo? {h h' : History β} (hr : h.redo? = some h') :
    h.future = h'.current :: h'.future := by
  obtain ⟨hs, hc, -⟩ := redo?_spec hr
  rw [current_cons_future, future, hs, hc]

end ThermalLabel.History

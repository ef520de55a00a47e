/-! # Bounded history

A history is a row of snapshots with a cursor on the current one. A commit drops what lies after the
cursor and puts the new snapshot there; when the row grows past its capacity, the oldest snapshot is
dropped. -/

namespace ThermalLabel

/-- A history of snapshots, oldest first. -/
structure History (β : Type) where
  snapshots : Array β
  /-- The place of the current snapshot. -/
  cursor : Nat
  /-- How many snapshots are kept. -/
  capacity : Nat
  cursor_lt : cursor < snapshots.size

namespace History

variable {β : Type}

/-- How many snapshots an editor keeps. -/
def standardCapacity : Nat := 50

/-- The history of one snapshot. At least one snapshot is kept. -/
def withCapacity (initial : β) (capacity : Nat) : History β where
  snapshots := #[initial]
  cursor := 0
  capacity := max capacity 1
  cursor_lt := Nat.one_pos

/-- The history of one snapshot, with the capacity of an editor. -/
def of (initial : β) : History β := withCapacity initial standardCapacity

/-- The current snapshot. -/
def current (h : History β) : β :=
  have := h.cursor_lt
  h.snapshots[h.cursor]

/-- How many snapshots there are. -/
def size (h : History β) : Nat := h.snapshots.size

/-- A row of snapshots up to a place, and a new one. -/
def extended (snapshots : Array β) (place : Nat) (snapshot : β) : Array β :=
  (snapshots.shrink (place + 1)).push snapshot

theorem toList_extended (snapshots : Array β) (place : Nat) (snapshot : β) :
    (extended snapshots place snapshot).toList =
      snapshots.toList.take (place + 1) ++ [snapshot] := by
  simp [extended]

theorem size_extended {snapshots : Array β} {place : Nat} (h : place < snapshots.size)
    (snapshot : β) : (extended snapshots place snapshot).size = place + 2 := by
  simp only [← Array.length_toList, toList_extended, List.length_append, List.length_take,
    List.length_singleton]
  rw [Array.length_toList]
  omega

/-- A new snapshot made current. -/
def commit (h : History β) (snapshot : β) : History β :=
  match h with
  | ⟨snapshots, cursor, capacity, cursor_lt⟩ =>
    if capacity < cursor + 2 then {
      snapshots := (extended snapshots cursor snapshot).extract 1
      cursor, capacity
      cursor_lt := by rw [Array.size_extract, size_extended cursor_lt]; omega }
    else {
      snapshots := extended snapshots cursor snapshot
      cursor := cursor + 1
      capacity
      cursor_lt := by rw [size_extended cursor_lt]; omega }

/-- The snapshots after a commit, oldest first. -/
theorem toList_commit (h : History β) (snapshot : β) :
    (h.commit snapshot).snapshots.toList =
      (h.snapshots.toList.take (h.cursor + 1) ++ [snapshot]).drop
        (if h.capacity < h.cursor + 2 then 1 else 0) := by
  obtain ⟨snapshots, cursor, capacity, cursor_lt⟩ := h
  unfold commit
  dsimp only
  split
  · rw [Array.toList_extract, List.extract_eq_take_drop, ← toList_extended]
    exact List.take_of_length_le (by simp)
  · rw [toList_extended, List.drop_zero]

theorem current_eq_iff {h : History β} {snapshot : β} :
    h.current = snapshot ↔ h.snapshots.toList[h.cursor]? = some snapshot := by
  rw [Array.getElem?_toList, Array.getElem?_eq_getElem h.cursor_lt, Option.some_inj]
  rfl

/-- The place of the new snapshot: once the oldest one has gone, the others have moved up. -/
theorem cursor_commit (h : History β) (snapshot : β) :
    (h.commit snapshot).cursor = if h.capacity < h.cursor + 2 then h.cursor else h.cursor + 1 := by
  obtain ⟨snapshots, cursor, capacity, cursor_lt⟩ := h
  unfold commit
  dsimp only
  split <;> rfl

/-- What is committed becomes current. -/
@[simp]
theorem current_commit (h : History β) (snapshot : β) : (h.commit snapshot).current = snapshot := by
  have hlt := h.cursor_lt
  have htake : (h.snapshots.toList.take (h.cursor + 1)).length = h.cursor + 1 := by
    rw [List.length_take, Array.length_toList]
    omega
  rw [current_eq_iff, toList_commit, cursor_commit, List.getElem?_drop,
    List.getElem?_append_right (by split <;> omega), htake]
  split <;> simp [Nat.add_comm]

/-- Whether there is an earlier snapshot. -/
def canUndo (h : History β) : Bool := 0 < h.cursor

/-- Whether there is a later snapshot. -/
def canRedo (h : History β) : Bool := h.cursor + 1 < h.snapshots.size

/-- The snapshot before the current one made current. -/
def undo? (h : History β) : Option (History β) :=
  if 0 < h.cursor then
    some { h with
      cursor := h.cursor - 1
      cursor_lt := Nat.lt_of_le_of_lt (Nat.sub_le _ _) h.cursor_lt }
  else none

/-- The snapshot after the current one made current. -/
def redo? (h : History β) : Option (History β) :=
  if hlt : h.cursor + 1 < h.snapshots.size then
    some { h with cursor := h.cursor + 1, cursor_lt := hlt }
  else none

/-- A new history of one snapshot, with the same capacity. -/
def reset (h : History β) (initial : β) : History β where
  snapshots := #[initial]
  cursor := 0
  capacity := h.capacity
  cursor_lt := Nat.one_pos

@[simp]
theorem current_reset (h : History β) (initial : β) : (h.reset initial).current = initial := rfl

end History

end ThermalLabel

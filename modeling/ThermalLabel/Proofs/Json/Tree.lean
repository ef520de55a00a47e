import ThermalLabel.Proofs.Json.Numeral

/-! # Trees and their parts

Trees are nested in lists of items and of members, and proofs about them go by induction over a tree
with one case for each way to build it. The depth of a tree is what the reader limits; a tree is
legible if every part of it can be written and read back. -/

namespace ThermalLabel.Json.Tree

variable {α : Type}

/-- Induction over trees. -/
theorem induction {motive : Tree α → Prop} (illegible : motive .illegible) (null : motive .null)
    (bool : ∀ b, motive (.bool b)) (number : ∀ n, motive (.number n))
    (string : ∀ s, motive (.string s))
    (array : ∀ items, (∀ t ∈ items, motive t) → motive (.array items))
    (object : ∀ members, (∀ e ∈ members, motive e.2) → motive (.object members)) :
    ∀ t, motive t := by
  refine @Tree.rec α motive (fun items => ∀ t ∈ items, motive t)
    (fun members => ∀ e ∈ members, motive e.2) (fun e => motive e.2) illegible null bool number
    string array object nofun ?_ nofun ?_ fun _ _ h => h
  all_goals
    intro head tail hhead htail
    exact List.forall_mem_cons.mpr ⟨hhead, htail⟩

/-! ### Depth -/

/-- How many containers lie inside one another. -/
def depth : Tree α → Nat
  | .array items => itemDepth items + 1
  | .object members => memberDepth members + 1
  | _ => 0
where
  /-- The greatest depth of an item. -/
  itemDepth : List (Tree α) → Nat
    | [] => 0
    | t :: rest => max (depth t) (itemDepth rest)
  /-- The greatest depth of a member. -/
  memberDepth : List (String × Tree α) → Nat
    | [] => 0
    | (_, t) :: rest => max (depth t) (memberDepth rest)

theorem depth_lt_array {t : Tree α} {items : List (Tree α)} (h : t ∈ items) :
    t.depth < (array items).depth := by
  refine Nat.lt_succ_of_le ?_
  induction items with
  | nil => cases h
  | cons head rest ih =>
    rcases List.mem_cons.mp h with rfl | h
    · exact Nat.le_max_left _ _
    · exact Nat.le_trans (ih h) (Nat.le_max_right _ _)

theorem depth_lt_object {e : String × Tree α} {members : List (String × Tree α)}
    (h : e ∈ members) : e.2.depth < (object members).depth := by
  refine Nat.lt_succ_of_le ?_
  induction members with
  | nil => cases h
  | cons head rest ih =>
    rcases List.mem_cons.mp h with rfl | h
    · exact Nat.le_max_left _ _
    · exact Nat.le_trans (ih h) (Nat.le_max_right _ _)

/-! ### Parts -/

/-- A tree and all the trees in it. -/
def parts : Tree α → List (Tree α)
  | .array items => .array items :: itemParts items
  | .object members => .object members :: memberParts members
  | t => [t]
where
  /-- The parts of the items. -/
  itemParts : List (Tree α) → List (Tree α)
    | [] => []
    | t :: rest => parts t ++ itemParts rest
  /-- The parts of the members. -/
  memberParts : List (String × Tree α) → List (Tree α)
    | [] => []
    | (_, t) :: rest => parts t ++ memberParts rest

/-- A property of every part of a tree. -/
def AllParts (P : Tree α → Prop) (t : Tree α) : Prop := ∀ part ∈ t.parts, P part

instance (P : Tree α → Prop) [DecidablePred P] (t : Tree α) : Decidable (t.AllParts P) :=
  inferInstanceAs (Decidable (∀ part ∈ t.parts, P part))

section
variable {P : Tree α → Prop}

theorem allParts_array {items : List (Tree α)} :
    (array items).AllParts P ↔ P (.array items) ∧ ∀ t ∈ items, t.AllParts P := by
  have hitems : (∀ part ∈ parts.itemParts items, P part) ↔ ∀ t ∈ items, t.AllParts P := by
    induction items with
    | nil => simp [parts.itemParts]
    | cons t rest ih => rw [parts.itemParts, List.forall_mem_append, ih, List.forall_mem_cons]; rfl
  rw [AllParts, parts, List.forall_mem_cons, hitems]

theorem allParts_object {members : List (String × Tree α)} :
    (object members).AllParts P ↔ P (.object members) ∧ ∀ e ∈ members, e.2.AllParts P := by
  have hmembers : (∀ part ∈ parts.memberParts members, P part) ↔
      ∀ e ∈ members, e.2.AllParts P := by
    induction members with
    | nil => simp [parts.memberParts]
    | cons e rest ih =>
      rw [parts.memberParts, List.forall_mem_append, ih, List.forall_mem_cons]
      rfl
  rw [AllParts, parts, List.forall_mem_cons, hmembers]

theorem AllParts.self {t : Tree α} (h : t.AllParts P) : P t := by
  cases t with
  | array items => exact (allParts_array.mp h).1
  | object members => exact (allParts_object.mp h).1
  | _ => exact h _ List.mem_cons_self

end

/-! ### Legible trees -/

variable [NumberText α]

/-- Not illegible, and no number that does not read back. -/
def Stated : Tree α → Prop
  | .illegible => False
  | .number n => n.ReadsBack
  | _ => True

instance [DecidableEq α] : (t : Tree α) → Decidable t.Stated
  | .illegible => .isFalse id
  | .number n => inferInstanceAs (Decidable n.ReadsBack)
  | .null | .bool _ | .string _ | .array _ | .object _ => .isTrue trivial

/-- A tree of which every part can be written and read back. -/
def Legible (t : Tree α) : Prop := t.AllParts Stated

instance [DecidableEq α] (t : Tree α) : Decidable t.Legible :=
  inferInstanceAs (Decidable (t.AllParts Stated))

end ThermalLabel.Json.Tree

/-! # Maps with text keys

A map from strings is kept as the list of its entries, in strictly increasing order of the keys
(code point order, which is also the byte order of UTF-8). So two maps with the same entries are
equal, and walking through a map is walking in key order. -/

namespace ThermalLabel

/-- The entry for `k` put in its place among entries in key order; an entry of that key is replaced.
-/
def insertEntry {β : Type} (k : String) (v : β) : List (String × β) → List (String × β)
  | [] => [(k, v)]
  | e :: rest =>
    if k < e.1 then (k, v) :: e :: rest
    else if k = e.1 then (k, v) :: rest
    else e :: insertEntry k v rest

/-- The entries are in strictly increasing order of their keys. -/
def KeysSorted {β : Type} (entries : List (String × β)) : Prop :=
  entries.Pairwise fun a b => a.1 < b.1

theorem key_lt_of_not_lt {a b : String} (h : ¬ a < b) (hne : a ≠ b) : b < a := by
  by_cases hba : b < a
  · exact hba
  · exact absurd (String.le_antisymm (String.not_lt.mp hba) (String.not_lt.mp h)) hne

theorem fst_mem_insertEntry {β : Type} {k : String} {v : β} {entries : List (String × β)}
    {e : String × β} (h : e ∈ insertEntry k v entries) : e = (k, v) ∨ e ∈ entries := by
  induction entries with
  | nil => simpa [insertEntry] using h
  | cons f rest ih =>
    unfold insertEntry at h
    split at h
    · simpa using h
    · split at h
      · rcases List.mem_cons.mp h with h | h
        · exact Or.inl h
        · exact Or.inr (List.mem_cons_of_mem _ h)
      · rcases List.mem_cons.mp h with h | h
        · exact Or.inr (h ▸ List.mem_cons_self)
        · rcases ih h with h | h
          · exact Or.inl h
          · exact Or.inr (List.mem_cons_of_mem _ h)

theorem keysSorted_insertEntry {β : Type} {k : String} {v : β} {entries : List (String × β)}
    (h : KeysSorted entries) : KeysSorted (insertEntry k v entries) := by
  induction entries with
  | nil => simp [insertEntry, KeysSorted]
  | cons e rest ih =>
    have hrest : KeysSorted rest := (List.pairwise_cons.mp h).2
    have hbelow : ∀ f ∈ rest, e.1 < f.1 := (List.pairwise_cons.mp h).1
    unfold insertEntry
    split
    · next hk =>
      refine List.pairwise_cons.mpr ⟨fun f hf => ?_, h⟩
      rcases List.mem_cons.mp hf with rfl | hf
      · exact hk
      · exact String.lt_trans hk (hbelow f hf)
    · next hk =>
      split
      · next heq => exact List.pairwise_cons.mpr ⟨fun f hf => heq ▸ hbelow f hf, hrest⟩
      · next hne =>
        refine List.pairwise_cons.mpr ⟨fun f hf => ?_, ih hrest⟩
        rcases fst_mem_insertEntry hf with rfl | hf
        · exact key_lt_of_not_lt hk hne
        · exact hbelow f hf

/-- A map from strings. -/
structure StringMap (β : Type) where
  /-- The entries in key order. -/
  toList : List (String × β)
  sorted : KeysSorted toList

namespace StringMap

variable {β : Type}

theorem ext {a b : StringMap β} (h : a.toList = b.toList) : a = b := by
  cases a
  cases b
  simp_all

/-- The map without entries. -/
def empty : StringMap β := ⟨[], List.Pairwise.nil⟩

instance : Inhabited (StringMap β) := ⟨empty⟩

instance [BEq β] : BEq (StringMap β) := ⟨fun a b => a.toList == b.toList⟩

/-- The value for a key. -/
def get? (m : StringMap β) (k : String) : Option β :=
  (m.toList.find? fun e => e.1 == k).map Prod.snd

/-- Whether a key has a value. -/
def contains (m : StringMap β) (k : String) : Bool := m.toList.any fun e => e.1 == k

/-- The value for a key set; an earlier value is replaced. -/
def insert (m : StringMap β) (k : String) (v : β) : StringMap β :=
  ⟨insertEntry k v m.toList, keysSorted_insertEntry m.sorted⟩

/-- The entries that pass a test on their keys. -/
def filterKeys (m : StringMap β) (p : String → Bool) : StringMap β :=
  ⟨m.toList.filter fun e => p e.1, List.Pairwise.sublist List.filter_sublist m.sorted⟩

/-- The map without a key. -/
def erase (m : StringMap β) (k : String) : StringMap β := m.filterKeys fun key => key != k

/-- The entries of a list, the last one for each key. -/
def ofList (entries : List (String × β)) : StringMap β :=
  entries.foldl (fun m e => m.insert e.1 e.2) empty

/-- Every entry of `n` laid over `m`. -/
def union (m n : StringMap β) : StringMap β := n.toList.foldl (fun m e => m.insert e.1 e.2) m

/-- The keys in their order. -/
def keys (m : StringMap β) : List String := m.toList.map Prod.fst

/-- The number of entries. -/
def size (m : StringMap β) : Nat := m.toList.length

/-- Whether there is no entry. -/
def isEmpty (m : StringMap β) : Bool := m.toList.isEmpty

/-! ### Looking up

Every operation said by what is found afterwards. -/

theorem find?_insertEntry (k key : String) (v : β) (entries : List (String × β)) :
    ((insertEntry k v entries).find? fun e => e.1 == key).map Prod.snd =
      if k = key then some v else (entries.find? fun e => e.1 == key).map Prod.snd := by
  induction entries with
  | nil => by_cases h : k = key <;> simp [insertEntry, h]
  | cons e rest ih =>
    unfold insertEntry
    split
    · by_cases h : k = key <;> simp [h]
    · split
      · next heq => subst heq; by_cases h : e.1 = key <;> simp [h]
      · next hne =>
        by_cases he : e.1 = key
        · have hk : k ≠ key := fun h => hne (h.trans he.symm)
          simp [he, hk]
        · simpa [he] using ih

@[simp]
theorem get?_empty (k : String) : (empty : StringMap β).get? k = none := rfl

theorem get?_insert (m : StringMap β) (k key : String) (v : β) :
    (m.insert k v).get? key = if k = key then some v else m.get? key :=
  find?_insertEntry k key v m.toList

theorem get?_filterKeys (m : StringMap β) (p : String → Bool) (key : String) :
    (m.filterKeys p).get? key = if p key then m.get? key else none := by
  unfold get? filterKeys
  rw [List.find?_filter]
  by_cases hp : p key = true
  · rw [if_pos hp]
    congr 2
    funext e
    by_cases he : e.1 = key
    · simp [he, hp]
    · simp [he]
  · rw [if_neg hp, Option.map_eq_none_iff, List.find?_eq_none]
    intro e _ he
    obtain ⟨hpe, hkey⟩ : p e.1 = true ∧ e.1 = key := by simpa using he
    exact hp (hkey ▸ hpe)

theorem contains_eq_isSome_get? (m : StringMap β) (k : String) :
    m.contains k = (m.get? k).isSome := by
  simp only [contains, get?, Option.isSome_map]
  exact (List.isSome_find? ..).symm

theorem contains_insert (m : StringMap β) (k key : String) (v : β) :
    (m.insert k v).contains key = (k == key || m.contains key) := by
  simp only [contains_eq_isSome_get?, get?_insert]
  by_cases h : k = key <;> simp [h]

theorem contains_filterKeys (m : StringMap β) (p : String → Bool) (key : String) :
    (m.filterKeys p).contains key = (p key && m.contains key) := by
  simp only [contains_eq_isSome_get?, get?_filterKeys]
  by_cases h : p key = true <;> simp [h]

end StringMap

end ThermalLabel

import Mathlib.Data.List.Forall2
import Mathlib.Data.List.Nodup
import Mathlib.Data.List.Perm.Basic
import Mathlib.Data.Option.Defs
import ThermalLabel.StringMap

/-! # Maps from lists of entries

A list of entries in which no key repeats makes the map with just these entries: putting them in key
order rearranges them, and it changes nothing if they are in key order already. What such a list
says of a key does not depend on the order. -/

namespace ThermalLabel

variable {β : Type} {entries more : List (String × β)}

/-! ### Entries in key order -/

theorem KeysSorted.nodup (h : KeysSorted entries) : (entries.map Prod.fst).Nodup := by
  refine List.pairwise_map.mpr (h.imp fun hlt heq => ?_)
  rw [heq] at hlt
  exact String.lt_irrefl _ hlt

/-- Only one order is key order. -/
theorem KeysSorted.eq_of_perm (h : KeysSorted entries) (h' : KeysSorted more)
    (hperm : entries.Perm more) : entries = more :=
  hperm.eq_of_pairwise (fun _ _ _ _ hlt hgt => absurd (String.lt_trans hlt hgt)
    (String.lt_irrefl _)) h h'

theorem insertEntry_perm {k : String} {v : β} (h : k ∉ entries.map Prod.fst) :
    (insertEntry k v entries).Perm ((k, v) :: entries) := by
  induction entries with
  | nil => exact List.Perm.refl _
  | cons e rest ih =>
    obtain ⟨hne, hrest⟩ := not_or.mp (mt List.mem_cons.mpr h)
    unfold insertEntry
    rw [if_neg hne]
    split
    · exact List.Perm.refl _
    · exact ((ih hrest).cons e).trans (List.Perm.swap _ _ _)

/-- The entries of a list put in key order, the last one for each key. -/
def inKeyOrder (entries : List (String × β)) : List (String × β) :=
  entries.foldl (fun acc e => insertEntry e.1 e.2 acc) []

theorem keysSorted_foldl_insertEntry {acc : List (String × β)} (h : KeysSorted acc) :
    KeysSorted (entries.foldl (fun acc e => insertEntry e.1 e.2 acc) acc) := by
  induction entries generalizing acc with
  | nil => exact h
  | cons e rest ih => exact ih (keysSorted_insertEntry h)

theorem keysSorted_inKeyOrder (entries : List (String × β)) : KeysSorted (inKeyOrder entries) :=
  keysSorted_foldl_insertEntry List.Pairwise.nil

theorem foldl_insertEntry_perm {acc : List (String × β)}
    (h : ((acc ++ entries).map Prod.fst).Nodup) :
    (entries.foldl (fun acc e => insertEntry e.1 e.2 acc) acc).Perm (acc ++ entries) := by
  induction entries generalizing acc with
  | nil => rw [List.append_nil]; exact List.Perm.refl _
  | cons e rest ih =>
    have hmiddle : (acc ++ e :: rest).Perm (e :: acc ++ rest) := List.perm_middle
    have hnodup := (hmiddle.map Prod.fst).nodup_iff.mp h
    have hnew : e.1 ∉ acc.map Prod.fst := fun hmem =>
      (List.nodup_cons.mp hnodup).1 (List.map_subset _ (List.subset_append_left acc rest) hmem)
    have hinsert : (insertEntry e.1 e.2 acc).Perm (e :: acc) := insertEntry_perm hnew
    have hstep := hinsert.append_right rest
    refine (ih ?_).trans (hstep.trans hmiddle.symm)
    exact (hstep.map Prod.fst).nodup_iff.mpr hnodup

theorem inKeyOrder_perm (h : (entries.map Prod.fst).Nodup) :
    (inKeyOrder entries).Perm entries := foldl_insertEntry_perm h

theorem inKeyOrder_of_keysSorted (h : KeysSorted entries) : inKeyOrder entries = entries :=
  (keysSorted_inKeyOrder entries).eq_of_perm h (inKeyOrder_perm h.nodup)

theorem mem_of_mem_foldl_insertEntry {acc : List (String × β)} {e : String × β}
    (h : e ∈ entries.foldl (fun acc e => insertEntry e.1 e.2 acc) acc) : e ∈ acc ∨ e ∈ entries := by
  induction entries generalizing acc with
  | nil => exact Or.inl h
  | cons first rest ih =>
    rcases ih h with h | h
    · rcases fst_mem_insertEntry h with rfl | h
      · exact Or.inr List.mem_cons_self
      · exact Or.inl h
    · exact Or.inr (List.mem_cons_of_mem first h)

theorem mem_of_mem_inKeyOrder {e : String × β} (h : e ∈ inKeyOrder entries) : e ∈ entries :=
  (mem_of_mem_foldl_insertEntry h).resolve_left List.not_mem_nil

theorem inKeyOrder_eq_of_perm (h : (entries.map Prod.fst).Nodup) (hperm : entries.Perm more) :
    inKeyOrder entries = inKeyOrder more := by
  have hmore : (more.map Prod.fst).Nodup := (hperm.map Prod.fst).nodup_iff.mp h
  refine (keysSorted_inKeyOrder entries).eq_of_perm (keysSorted_inKeyOrder more) ?_
  exact ((inKeyOrder_perm h).trans hperm).trans (inKeyOrder_perm hmore).symm

/-! ### Looking up in a list -/

theorem lookup_eq_find? (entries : List (String × β)) (k : String) :
    (entries.find? fun e => e.1 == k).map Prod.snd = entries.lookup k := by
  induction entries with
  | nil => rfl
  | cons e rest ih =>
    rw [List.find?_cons, List.lookup_cons, ← ih, BEq.comm]
    cases k == e.1 <;> rfl

theorem lookup_eq_some_iff_mem (h : (entries.map Prod.fst).Nodup) {k : String} {v : β} :
    entries.lookup k = some v ↔ (k, v) ∈ entries := by
  induction entries with
  | nil => simp
  | cons e rest ih =>
    obtain ⟨hnot, hrest⟩ := List.nodup_cons.mp h
    rw [List.lookup_cons, List.mem_cons]
    cases hk : k == e.1 with
    | true =>
      obtain rfl := eq_of_beq hk
      have habsent : (e.1, v) ∉ rest := fun hmem => hnot (List.mem_map.mpr ⟨_, hmem, rfl⟩)
      simp [habsent, Prod.ext_iff, eq_comm]
    | false =>
      have hne : (k, v) ≠ e := fun heq => (beq_eq_false_iff_ne.mp hk) (congrArg Prod.fst heq)
      simp [hne, ih hrest]

/-- What a list says of a key does not depend on the order. -/
theorem lookup_eq_of_perm (h : (entries.map Prod.fst).Nodup) (hperm : entries.Perm more)
    (k : String) : entries.lookup k = more.lookup k := by
  have hmore : (more.map Prod.fst).Nodup := (hperm.map Prod.fst).nodup_iff.mp h
  refine Option.ext fun v => ?_
  rw [lookup_eq_some_iff_mem h, lookup_eq_some_iff_mem hmore, hperm.mem_iff]

theorem lookup_insertEntry (k key : String) (v : β) (entries : List (String × β)) :
    (insertEntry k v entries).lookup key = if k = key then some v else entries.lookup key := by
  rw [← lookup_eq_find?, ← lookup_eq_find?]
  exact StringMap.find?_insertEntry k key v entries

theorem lookup_foldl_insertEntry (acc : List (String × β)) (k : String) :
    (entries.foldl (fun acc e => insertEntry e.1 e.2 acc) acc).lookup k =
      (entries.reverse.lookup k).or (acc.lookup k) := by
  induction entries generalizing acc with
  | nil => rfl
  | cons e rest ih =>
    rw [List.foldl_cons, ih, List.reverse_cons, List.lookup_append, Option.or_assoc,
      lookup_insertEntry]
    congr 1
    rw [List.lookup_cons, BEq.comm, List.lookup_nil]
    by_cases h : e.1 = k
    · simp [h]
    · rw [if_neg h, beq_eq_false_iff_ne.mpr h]
      exact Option.none_or.symm

/-- Entries put in key order say of a key what is said last of it. -/
theorem lookup_inKeyOrder (entries : List (String × β)) (k : String) :
    (inKeyOrder entries).lookup k = entries.reverse.lookup k := by
  rw [inKeyOrder, lookup_foldl_insertEntry]
  exact Option.or_none

theorem length_filter_key (entries : List (String × β)) (k : String) :
    (entries.filter fun e => e.1 == k).length = (entries.map Prod.fst).count k := by
  rw [← List.countP_eq_length_filter, List.count, List.countP_map]
  rfl

/-- Of a key that is there once at most, the same is said from either end. -/
theorem lookup_reverse {k : String} (h : (entries.map Prod.fst).count k ≤ 1) :
    entries.reverse.lookup k = entries.lookup k := by
  rw [← length_filter_key] at h
  rw [← lookup_eq_find?, ← lookup_eq_find?, ← List.head?_filter, ← List.head?_filter,
    List.filter_reverse]
  cases hfirst : entries.filter fun e => e.1 == k with
  | nil => rfl
  | cons e others =>
    rw [hfirst, List.length_cons] at h
    rw [List.length_eq_zero_iff.mp (Nat.le_zero.mp (Nat.le_of_succ_le_succ h))]
    rfl

/-- What is in relation name by name is in relation under every name. -/
theorem rel_lookup {γ : Type} {R : β → γ → Prop} {others : List (String × γ)}
    (h : List.Forall₂ (fun e e' => e.1 = e'.1 ∧ R e.2 e'.2) entries others) (k : String) :
    Option.Rel R (entries.lookup k) (others.lookup k) := by
  induction h with
  | nil => exact Option.Rel.none
  | @cons e e' _ _ he _ ih =>
    rw [List.lookup_cons, List.lookup_cons, he.1]
    cases k == e'.1 with
    | true => exact Option.Rel.some he.2
    | false => exact ih

theorem lookup_filter (p : String → Bool) (entries : List (String × β)) (k : String) :
    (entries.filter fun e => p e.1).lookup k = if p k then entries.lookup k else none := by
  induction entries with
  | nil => simp
  | cons e rest ih =>
    rw [List.filter_cons, List.lookup_cons]
    cases hk : k == e.1 with
    | true =>
      obtain rfl := eq_of_beq hk
      split
      · rw [List.lookup_cons, hk]
      · next hp => rw [ih, if_neg hp]
    | false =>
      rw [← ih]
      split
      · rw [List.lookup_cons, hk]
      · rfl

/-- Entries in key order are fixed by what they say. -/
theorem KeysSorted.eq_of_lookup (h : KeysSorted entries) (h' : KeysSorted more)
    (hlookup : ∀ k, entries.lookup k = more.lookup k) : entries = more := by
  refine h.eq_of_perm h' ((List.perm_ext_iff_of_nodup h.nodup.of_map h'.nodup.of_map).mpr ?_)
  rintro ⟨k, v⟩
  rw [← lookup_eq_some_iff_mem h.nodup, ← lookup_eq_some_iff_mem h'.nodup, hlookup]

/-- Entries may be left out by their keys before or after they are put in order. -/
theorem inKeyOrder_filter (p : String → Bool) (entries : List (String × β)) :
    inKeyOrder (entries.filter fun e => p e.1) = (inKeyOrder entries).filter fun e => p e.1 := by
  refine (keysSorted_inKeyOrder _).eq_of_lookup
    (List.Pairwise.sublist List.filter_sublist (keysSorted_inKeyOrder entries)) fun k => ?_
  rw [lookup_inKeyOrder, ← List.filter_reverse, lookup_filter, lookup_filter, lookup_inKeyOrder]

namespace StringMap

/-! ### Maps -/

theorem toList_foldl_insert (m : StringMap β) (entries : List (String × β)) :
    (entries.foldl (fun m e => m.insert e.1 e.2) m).toList =
      entries.foldl (fun acc e => insertEntry e.1 e.2 acc) m.toList := by
  induction entries generalizing m with
  | nil => rfl
  | cons e rest ih => exact ih (m.insert e.1 e.2)

theorem toList_ofList (entries : List (String × β)) :
    (ofList entries).toList = inKeyOrder entries := toList_foldl_insert empty entries

/-- A map is the one of its entries. -/
theorem ofList_toList (m : StringMap β) : ofList m.toList = m :=
  ext ((toList_ofList _).trans (inKeyOrder_of_keysSorted m.sorted))

theorem ofList_eq_of_perm (h : (entries.map Prod.fst).Nodup) (hperm : entries.Perm more) :
    ofList entries = ofList more :=
  ext (by rw [toList_ofList, toList_ofList, inKeyOrder_eq_of_perm h hperm])

/-- The map of entries in which no key repeats says what they say. -/
theorem get?_ofList (h : (entries.map Prod.fst).Nodup) (k : String) :
    (ofList entries).get? k = entries.lookup k := by
  have hreverse : (entries.reverse.map Prod.fst).Nodup := by
    rw [List.map_reverse]
    exact List.nodup_reverse.mpr h
  rw [get?, lookup_eq_find?, toList_ofList, lookup_inKeyOrder]
  exact lookup_eq_of_perm hreverse (List.reverse_perm entries) k

/-! ### Keys -/

theorem contains_iff_mem_keys (m : StringMap β) (k : String) :
    m.contains k = true ↔ k ∈ m.keys := by
  rw [contains, List.any_eq_true, keys, List.mem_map]
  simp only [beq_iff_eq]

@[simp]
theorem contains_empty (k : String) : (empty : StringMap β).contains k = false := rfl

theorem contains_foldl_insert (m : StringMap β) (entries : List (String × β)) (k : String) :
    (entries.foldl (fun m e => m.insert e.1 e.2) m).contains k = true ↔
      m.contains k = true ∨ k ∈ entries.map Prod.fst := by
  induction entries generalizing m with
  | nil => simp
  | cons e rest ih =>
    rw [List.foldl_cons, ih, contains_insert, Bool.or_eq_true, beq_iff_eq, List.map_cons,
      List.mem_cons, eq_comm (a := k), or_assoc, or_left_comm]

theorem contains_ofList (entries : List (String × β)) (k : String) :
    (ofList entries).contains k = true ↔ k ∈ entries.map Prod.fst := by
  rw [ofList, contains_foldl_insert, contains_empty, or_iff_right Bool.false_ne_true]

theorem mem_keys_inKeyOrder (entries : List (String × β)) (k : String) :
    k ∈ (inKeyOrder entries).map Prod.fst ↔ k ∈ entries.map Prod.fst := by
  rw [← contains_ofList entries, contains_iff_mem_keys, keys, toList_ofList]

theorem contains_erase (m : StringMap β) (k key : String) :
    (m.erase k).contains key = true ↔ key ≠ k ∧ m.contains key = true := by
  rw [erase, contains_filterKeys, Bool.and_eq_true, bne_iff_ne]

end StringMap

end ThermalLabel

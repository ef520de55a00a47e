import Mathlib.Data.List.Forall2
import ThermalLabel.Json.Embedded
import ThermalLabel.Proofs.Json.Tree
import ThermalLabel.Proofs.StringMap

/-! # Values read back

A value that is written down is read back if its members are in key order and no object of it begins
with the reserved name, and then nothing is embedded in it. The other way round, what is read never
holds an object whose only member has the reserved name; so a value that is the outcome of reading
is read back only if no object of it begins with that name. -/

namespace ThermalLabel

/-- A list is read item by item, or not at all. -/
theorem mapM_eq_some_iff {β γ : Type} {f : β → Option γ} {l : List β} {r : List γ} :
    l.mapM f = some r ↔ List.Forall₂ (fun x y => f x = some y) l r := by
  induction l generalizing r with
  | nil => simp [eq_comm]
  | cons x l ih =>
    rw [List.mapM_cons, List.forall₂_cons_left_iff]
    constructor
    · intro h
      obtain ⟨y, hy, h⟩ := Option.bind_eq_some_iff.mp h
      obtain ⟨ys, hys, h⟩ := Option.bind_eq_some_iff.mp h
      exact ⟨y, ys, hy, ih.mp hys, (Option.some.inj h).symm⟩
    · rintro ⟨y, ys, hy, hys, rfl⟩
      rw [hy, ih.mpr hys]
      rfl

theorem exists_mem_of_mapM {β γ : Type} {f : β → Option γ} {l : List β} {r : List γ}
    (h : l.mapM f = some r) {x : β} (hx : x ∈ l) : ∃ y ∈ r, f x = some y := by
  induction mapM_eq_some_iff.mp h with
  | nil => cases hx
  | cons hxy hrest ih =>
    rcases List.mem_cons.mp hx with rfl | hx
    · exact ⟨_, List.mem_cons_self, hxy⟩
    · obtain ⟨y, hy, hread⟩ := ih (mapM_eq_some_iff.mpr hrest) hx
      exact ⟨y, List.mem_cons_of_mem _ hy, hread⟩

theorem exists_of_mem_mapM {β γ : Type} {f : β → Option γ} {l : List β} {r : List γ}
    (h : l.mapM f = some r) {y : γ} (hy : y ∈ r) : ∃ x ∈ l, f x = some y := by
  induction mapM_eq_some_iff.mp h with
  | nil => cases hy
  | cons hxy hrest ih =>
    rcases List.mem_cons.mp hy with rfl | hy
    · exact ⟨_, List.mem_cons_self, hxy⟩
    · obtain ⟨x, hx, hread⟩ := ih (mapM_eq_some_iff.mpr hrest) hy
      exact ⟨x, List.mem_cons_of_mem _ hx, hread⟩

/-- The items in another order are read in another order. -/
theorem mapM_of_perm {β γ : Type} {f : β → Option γ} {l l' : List β} {r : List γ}
    (h : l.mapM f = some r) (hperm : l'.Perm l) : ∃ r', l'.mapM f = some r' ∧ r'.Perm r := by
  obtain ⟨r', hread, hperm'⟩ := List.perm_comp_forall₂ hperm (mapM_eq_some_iff.mp h)
  exact ⟨r', mapM_eq_some_iff.mpr hread, hperm'⟩

namespace Json

variable {α : Type}

/-- Induction over values. -/
theorem induction {motive : Json α → Prop} (null : motive .null) (bool : ∀ b, motive (.bool b))
    (number : ∀ n, motive (.number n)) (string : ∀ s, motive (.string s))
    (array : ∀ items, (∀ v ∈ items, motive v) → motive (.array items))
    (object : ∀ members, (∀ e ∈ members, motive e.2) → motive (.object members)) :
    ∀ v, motive v := by
  refine @Json.rec α motive (fun items => ∀ v ∈ items, motive v)
    (fun members => ∀ e ∈ members, motive e.2) (fun e => motive e.2) null bool number
    string array object nofun ?_ nofun ?_ fun _ _ h => h
  all_goals
    intro head tail hhead htail
    exact List.forall_mem_cons.mpr ⟨hhead, htail⟩

theorem member?_object (members : List (String × Json α)) (k : String) :
    (Json.object members).member? k = members.lookup k := lookup_eq_find? members k

namespace Tree

/-! ### Lists of trees and values -/

theorem ofValues_eq_map (items : List (Json α)) : ofValue.ofValues items = items.map ofValue := by
  induction items with
  | nil => rfl
  | cons v rest ih => rw [ofValue.ofValues, ih]; rfl

theorem ofMemberValues_eq_map (members : List (String × Json α)) :
    ofValue.ofMemberValues members = members.map fun e => (e.1, ofValue e.2) := by
  induction members with
  | nil => rfl
  | cons e rest ih => rw [ofValue.ofMemberValues, ih]; rfl

section
variable (embedded? : String → Option (Json α))

theorem values?_eq_mapM (items : List (Tree α)) :
    valueWith?.values? embedded? items = items.mapM (valueWith? embedded?) := by
  induction items with
  | nil => rfl
  | cons t rest ih =>
    rw [valueWith?.values?, ih, List.mapM_cons]
    cases valueWith? embedded? t with
    | none => rfl
    | some v => cases rest.mapM (valueWith? embedded?) <;> rfl

/-- The value of a member, with its name. -/
def memberValue? (e : String × Tree α) : Option (String × Json α) :=
  (valueWith? embedded? e.2).map fun v => (e.1, v)

theorem memberValues?_eq_mapM (members : List (String × Tree α)) :
    valueWith?.memberValues? embedded? members = members.mapM (memberValue? embedded?) := by
  induction members with
  | nil => rfl
  | cons e rest ih =>
    rw [valueWith?.memberValues?, ih, List.mapM_cons, memberValue?]
    cases valueWith? embedded? e.2 with
    | none => rfl
    | some v => cases rest.mapM (memberValue? embedded?) <;> rfl

end

/-! ### Values that are read back -/

/-- Whether a tree is an object that begins with the reserved name. -/
def embeds : Tree α → Bool
  | .object members => beginsEmbedded members
  | _ => false

/-- A tree in which no text is embedded. -/
def Plain (t : Tree α) : Prop := t.AllParts fun part => part.embeds = false

instance (t : Tree α) : Decidable t.Plain := inferInstanceAs (Decidable (t.AllParts _))

/-- The members of an object are in key order. -/
def InOrder : Tree α → Prop
  | .object members => KeysSorted members
  | _ => True

instance : (t : Tree α) → Decidable t.InOrder
  | .object members => inferInstanceAs (Decidable (members.Pairwise fun a b => a.1 < b.1))
  | .illegible | .null | .bool _ | .number _ | .string _ | .array _ => .isTrue trivial

/-- A tree with all members in key order, as the trees of values have them. -/
def Ordered (t : Tree α) : Prop := t.AllParts InOrder

instance (t : Tree α) : Decidable t.Ordered := inferInstanceAs (Decidable (t.AllParts _))

theorem valueWith?_array (embedded? : String → Option (Json α)) (items : List (Tree α)) :
    valueWith? embedded? (.array items) = (items.mapM (valueWith? embedded?)).map .array := by
  rw [valueWith?, values?_eq_mapM]

/-- An object that is no embedded text has its members' values, put in key order. -/
theorem valueWith?_object {embedded? : String → Option (Json α)} {members : List (String × Tree α)}
    (h : beginsEmbedded members = false) :
    valueWith? embedded? (.object members) =
      (members.mapM (memberValue? embedded?)).map fun values => .object (inKeyOrder values) := by
  rw [valueWith?, if_neg (Bool.eq_false_iff.mp h), memberValues?_eq_mapM]
  rfl

theorem keysSorted_ofMemberValues {members : List (String × Json α)} :
    KeysSorted (ofValue.ofMemberValues members) ↔ KeysSorted members := by
  unfold KeysSorted
  rw [ofMemberValues_eq_map, List.pairwise_map]

theorem allParts_ofValue_object {P : Tree α → Prop} {members : List (String × Json α)} :
    (ofValue (.object members)).AllParts P ↔
      P (.object (ofValue.ofMemberValues members)) ∧
        ∀ e ∈ members, (ofValue e.2).AllParts P := by
  rw [ofValue, allParts_object, ofMemberValues_eq_map, List.forall_mem_map]

theorem plain_ofValue_array {items : List (Json α)} :
    (ofValue (.array items)).Plain ↔ ∀ v ∈ items, (ofValue v).Plain := by
  rw [ofValue, ofValues_eq_map, Plain, allParts_array, List.forall_mem_map]
  exact and_iff_right rfl

/-- Members whose values are read back are read back. -/
theorem mapM_memberValue? {embedded? : String → Option (Json α)} {members : List (String × Json α)}
    (h : ∀ e ∈ members, valueWith? embedded? (ofValue e.2) = some e.2) :
    (ofValue.ofMemberValues members).mapM (memberValue? embedded?) = some members := by
  rw [ofMemberValues_eq_map, mapM_eq_some_iff, List.forall₂_map_left_iff, List.forall₂_same]
  intro e he
  rw [memberValue?, h e he]
  rfl

/-- **A value without embedded texts is read back.** -/
theorem valueWith?_ofValue (embedded? : String → Option (Json α)) {v : Json α}
    (hplain : (ofValue v).Plain) (hordered : (ofValue v).Ordered) :
    valueWith? embedded? (ofValue v) = some v := by
  induction v using Json.induction with
  | null | bool | number | string => rfl
  | array items ih =>
    rw [ofValue, ofValues_eq_map] at hplain hordered ⊢
    have hitems : (items.map ofValue).mapM (valueWith? embedded?) = some items := by
      rw [mapM_eq_some_iff, List.forall₂_map_left_iff, List.forall₂_same]
      intro v hv
      exact ih v hv ((allParts_array.mp hplain).2 _ (List.mem_map_of_mem hv))
        ((allParts_array.mp hordered).2 _ (List.mem_map_of_mem hv))
    rw [valueWith?_array, hitems]
    rfl
  | object members ih =>
    obtain ⟨hbegins, hplain⟩ := allParts_ofValue_object.mp hplain
    obtain ⟨hsorted, hordered⟩ := allParts_ofValue_object.mp hordered
    have hmembers : ∀ e ∈ members, valueWith? embedded? (ofValue e.2) = some e.2 :=
      fun e he => ih e he (hplain e he) (hordered e he)
    rw [ofValue, valueWith?_object hbegins, mapM_memberValue? hmembers, Option.map_some,
      inKeyOrder_of_keysSorted (keysSorted_ofMemberValues.mp hsorted)]

/-! ### Values that come from reading -/

/-- Whether a tree is an object whose only member has the reserved name. -/
def wraps : Tree α → Bool
  | .object [(k, _)] => k == embeddedName
  | _ => false

/-- A tree without such objects. -/
def Unwrapped (t : Tree α) : Prop := t.AllParts fun part => part.wraps = false

/-- Members keep their names, whatever is read of them. -/
theorem keys_of_mapM_named {β : Type} {f : Tree α → Option β} {members : List (String × Tree α)}
    {values : List (String × β)}
    (h : (members.mapM fun e => (f e.2).map fun v => (e.1, v)) = some values) :
    values.map Prod.fst = members.map Prod.fst := by
  induction mapM_eq_some_iff.mp h with
  | nil => rfl
  | cons hvalue hrest ih =>
    obtain ⟨v, -, rfl⟩ := Option.map_eq_some_iff.mp hvalue
    rw [List.map_cons, List.map_cons, ih (mapM_eq_some_iff.mpr hrest)]

theorem keys_of_mapM {embedded? : String → Option (Json α)} {members : List (String × Tree α)}
    {values : List (String × Json α)}
    (h : members.mapM (memberValue? embedded?) = some values) :
    values.map Prod.fst = members.map Prod.fst := keys_of_mapM_named h

theorem wraps_object {members : List (String × Json α)}
    (hkeys : members.map Prod.fst ≠ [embeddedName]) :
    (ofValue (.object members)).wraps = false := by
  rw [ofValue, ofMemberValues_eq_map]
  unfold wraps
  split
  · next k t heq =>
    have hsingle := congrArg (List.map Prod.fst) (Tree.object.inj heq)
    rw [List.map_map] at hsingle
    refine beq_eq_false_iff_ne.mpr fun hk => hkeys ?_
    rw [← hk]
    exact hsingle
  · rfl

/-- An object that does not begin with the reserved name has another name, so its value is not an
object whose only member has the reserved name. -/
theorem keys_ne_of_mapM {embedded? : String → Option (Json α)} {members : List (String × Tree α)}
    {values : List (String × Json α)} (hbegins : beginsEmbedded members = false)
    (h : members.mapM (memberValue? embedded?) = some values) :
    (inKeyOrder values).map Prod.fst ≠ [embeddedName] := by
  intro hkeys
  cases mapM_eq_some_iff.mp h with
  | nil => cases hkeys
  | @cons e value rest values hvalue _ =>
    obtain ⟨v, -, rfl⟩ := Option.map_eq_some_iff.mp hvalue
    have hmem : e.1 ∈ (inKeyOrder ((e.1, v) :: values)).map Prod.fst :=
      (StringMap.mem_keys_inKeyOrder _ e.1).mpr List.mem_cons_self
    rw [hkeys] at hmem
    exact beq_eq_false_iff_ne.mp hbegins (List.mem_singleton.mp hmem)

/-- A property of all parts of what is read: objects have it if they are what members in order make,
whatever the members are, and what is embedded has it. -/
theorem allParts_of_valueWith? {P : Tree α → Prop} {embedded? : String → Option (Json α)}
    (hother : ∀ t, (∀ members, t ≠ .object members) → P t)
    (hobject : ∀ {members values}, beginsEmbedded members = false →
      members.mapM (memberValue? embedded?) = some values →
      P (ofValue (.object (inKeyOrder values))))
    (hembedded : ∀ s v, embedded? s = some v → (ofValue v).AllParts P) {t : Tree α} {v : Json α}
    (h : valueWith? embedded? t = some v) : (ofValue v).AllParts P := by
  induction t using Tree.induction generalizing v with
  | illegible => cases h
  | null | bool | number | string =>
    obtain rfl := Option.some.inj h
    intro part hpart
    obtain rfl := List.mem_singleton.mp hpart
    exact hother _ nofun
  | array items ih =>
    rw [valueWith?_array] at h
    obtain ⟨values, hvalues, rfl⟩ := Option.map_eq_some_iff.mp h
    rw [ofValue, ofValues_eq_map]
    refine allParts_array.mpr ⟨hother _ nofun, fun t ht => ?_⟩
    obtain ⟨v, hv, rfl⟩ := List.mem_map.mp ht
    obtain ⟨t, ht, hread⟩ := exists_of_mem_mapM hvalues hv
    exact ih t ht hread
  | object members ih =>
    cases hbegins : beginsEmbedded members with
    | true =>
      rw [valueWith?, if_pos hbegins] at h
      obtain ⟨text, -, hread⟩ := Option.bind_eq_some_iff.mp h
      exact hembedded text v hread
    | false =>
      rw [valueWith?_object hbegins] at h
      obtain ⟨values, hvalues, rfl⟩ := Option.map_eq_some_iff.mp h
      refine allParts_ofValue_object.mpr ⟨hobject hbegins hvalues, fun e he => ?_⟩
      obtain ⟨e', he', hread⟩ := exists_of_mem_mapM hvalues (mem_of_mem_inKeyOrder he)
      obtain ⟨v, hv, rfl⟩ := Option.map_eq_some_iff.mp hread
      exact ih e' he' hv

/-- What is read of a tree has no object whose only member has the reserved name, if the embedded
texts give none: such an object is taken for an embedded text. -/
theorem unwrapped_of_valueWith? {embedded? : String → Option (Json α)}
    (hembedded : ∀ s v, embedded? s = some v → (ofValue v).Unwrapped) {t : Tree α} {v : Json α}
    (h : valueWith? embedded? t = some v) : (ofValue v).Unwrapped := by
  refine allParts_of_valueWith? (fun t ht => ?_) (fun hbegins hvalues => ?_) hembedded h
  · unfold wraps
    split
    · exact absurd rfl (ht _)
    · rfl
  · exact wraps_object (keys_ne_of_mapM hbegins hvalues)

/-- What is read of a tree has its members in key order, if what is embedded has. -/
theorem ordered_of_valueWith? {embedded? : String → Option (Json α)}
    (hembedded : ∀ s v, embedded? s = some v → (ofValue v).Ordered) {t : Tree α} {v : Json α}
    (h : valueWith? embedded? t = some v) : (ofValue v).Ordered := by
  refine allParts_of_valueWith? (fun t ht => ?_) (fun _ _ => ?_) hembedded h
  · unfold InOrder
    split
    · exact absurd rfl (ht _)
    · trivial
  · exact keysSorted_ofMemberValues.mpr (keysSorted_inKeyOrder _)

/-- A tree that is read holds no embedded text, if it holds no object whose only member has the
reserved name: beside an embedded text nothing may stand. -/
theorem plain_of_unwrapped {embedded? : String → Option (Json α)} {t : Tree α} {v : Json α}
    (h : valueWith? embedded? t = some v) (hunwrapped : t.Unwrapped) : t.Plain := by
  induction t using Tree.induction generalizing v with
  | illegible => cases h
  | null | bool | number | string =>
    intro part hpart
    obtain rfl := List.mem_singleton.mp hpart
    rfl
  | array items ih =>
    rw [valueWith?_array] at h
    obtain ⟨values, hvalues, -⟩ := Option.map_eq_some_iff.mp h
    refine allParts_array.mpr ⟨rfl, fun t ht => ?_⟩
    obtain ⟨v, -, hread⟩ := exists_mem_of_mapM hvalues ht
    exact ih t ht hread ((allParts_array.mp hunwrapped).2 t ht)
  | object members ih =>
    cases hbegins : beginsEmbedded members with
    | true =>
      rw [valueWith?, if_pos hbegins] at h
      obtain ⟨text, htext, -⟩ := Option.bind_eq_some_iff.mp h
      unfold embeddedText? at htext
      split at htext
      · exact absurd hbegins (Bool.eq_false_iff.mp hunwrapped.self)
      · cases htext
    | false =>
      rw [valueWith?_object hbegins] at h
      obtain ⟨values, hvalues, -⟩ := Option.map_eq_some_iff.mp h
      refine allParts_object.mpr ⟨hbegins, fun e he => ?_⟩
      obtain ⟨value, -, hread⟩ := exists_mem_of_mapM hvalues he
      obtain ⟨v, hv, -⟩ := Option.map_eq_some_iff.mp hread
      exact ih e he hv ((allParts_object.mp hunwrapped).2 e he)

variable [NumberText α]

theorem unwrapped_of_valueWithin? {depth : Nat} {text : String} {v : Json α}
    (h : valueWithin? depth text = some v) : (ofValue v).Unwrapped := by
  induction depth generalizing text v with
  | zero => cases h
  | succ depth ih =>
    obtain ⟨t, -, hvalue⟩ := Option.bind_eq_some_iff.mp h
    exact unwrapped_of_valueWith? (fun s v hread => ih hread) hvalue

/-- The values of trees, whatever texts are embedded in them. -/
theorem unwrapped_of_value? {t : Tree α} {v : Json α} (h : t.value? = some v) :
    (ofValue v).Unwrapped :=
  unwrapped_of_valueWith? (fun _ _ hread => unwrapped_of_valueWithin? hread) h

theorem ordered_of_valueWithin? {depth : Nat} {text : String} {v : Json α}
    (h : valueWithin? depth text = some v) : (ofValue v).Ordered := by
  induction depth generalizing text v with
  | zero => cases h
  | succ depth ih =>
    obtain ⟨t, -, hvalue⟩ := Option.bind_eq_some_iff.mp h
    exact ordered_of_valueWith? (fun s v hread => ih hread) hvalue

theorem ordered_of_value? {t : Tree α} {v : Json α} (h : t.value? = some v) :
    (ofValue v).Ordered :=
  ordered_of_valueWith? (fun _ _ hread => ordered_of_valueWithin? hread) h

end Tree

end Json

end ThermalLabel

import ThermalLabel.Proofs.Json.Embedded

/-! # What a tree says

Taken at its word, a tree has no reserved names: an object stands for its members, the last one of
each name, whatever it begins with. A tree in which no object begins with the reserved name stands
for what it says (`valueWith?_of_plain`). Where no member repeats, there is no other way to stand
for it and to be read back from it (`plain_of_literalValue?`). -/

namespace ThermalLabel.Json.Tree

variable {α : Type}

/-- The value that a tree says. -/
def literalValue? : Tree α → Option (Json α)
  | .illegible => none
  | .null => some .null
  | .bool b => some (.bool b)
  | .number n => some (.number n)
  | .string s => some (.string s)
  | .array items => (literalItems? items).map .array
  | .object members => (literalMembers? members).map ofMembers
where
  /-- The values that the items of an array say. -/
  literalItems? : List (Tree α) → Option (List (Json α))
    | [] => some []
    | t :: rest => (literalValue? t).bind fun v => (literalItems? rest).map (v :: ·)
  /-- The values that the members of an object say. -/
  literalMembers? : List (String × Tree α) → Option (List (String × Json α))
    | [] => some []
    | (k, t) :: rest => (literalValue? t).bind fun v => (literalMembers? rest).map ((k, v) :: ·)

/-- What a member says, with its name. -/
def literalMember? (e : String × Tree α) : Option (String × Json α) :=
  e.2.literalValue?.map fun v => (e.1, v)

theorem literalValue?_array (items : List (Tree α)) :
    (array items).literalValue? = (items.mapM literalValue?).map .array := by
  have hitems : literalValue?.literalItems? items = items.mapM literalValue? := by
    induction items with
    | nil => rfl
    | cons t rest ih =>
      rw [literalValue?.literalItems?, ih, List.mapM_cons]
      cases t.literalValue? with
      | none => rfl
      | some v => cases rest.mapM literalValue? <;> rfl
  rw [literalValue?, hitems]

theorem literalValue?_object (members : List (String × Tree α)) :
    (object members).literalValue? =
      (members.mapM literalMember?).map fun values => .object (inKeyOrder values) := by
  have hmembers : literalValue?.literalMembers? members = members.mapM literalMember? := by
    induction members with
    | nil => rfl
    | cons e rest ih =>
      rw [literalValue?.literalMembers?, ih, List.mapM_cons, literalMember?]
      cases e.2.literalValue? with
      | none => rfl
      | some v => cases rest.mapM literalMember? <;> rfl
  rw [literalValue?, hmembers]
  rfl

/-- **A tree without embedded texts stands for what it says.** -/
theorem valueWith?_of_plain (embedded? : String → Option (Json α)) {t : Tree α} (h : t.Plain) :
    t.valueWith? embedded? = t.literalValue? := by
  induction t using Tree.induction with
  | illegible | null | bool | number | string => rfl
  | array items ih =>
    have hitems := (allParts_array.mp h).2
    rw [valueWith?_array, literalValue?_array,
      mapM_congr_of_forall fun t ht => ih t ht (hitems t ht)]
  | object members ih =>
    obtain ⟨hbegins, hmembers⟩ := allParts_object.mp h
    have hvalues : ∀ e ∈ members, memberValue? embedded? e = literalMember? e := fun e he => by
      rw [memberValue?, literalMember?, ih e he (hmembers e he)]
    rw [valueWith?_object hbegins, literalValue?_object, mapM_congr_of_forall hvalues]

/-- What a value says, written down, is the value. -/
theorem literalValue?_ofValue {v : Json α} (h : (ofValue v).Ordered) :
    (ofValue v).literalValue? = some v := by
  induction v using Json.induction with
  | null | bool | number | string => rfl
  | array items ih =>
    rw [ofValue, ofValues_eq_map] at h ⊢
    have hitems : (items.map ofValue).mapM literalValue? = some items := by
      rw [mapM_eq_some_iff, List.forall₂_map_left_iff, List.forall₂_same]
      intro v hv
      exact ih v hv ((allParts_array.mp h).2 _ (List.mem_map_of_mem hv))
    rw [literalValue?_array, hitems]
    rfl
  | object members ih =>
    obtain ⟨hsorted, hordered⟩ := allParts_ofValue_object.mp h
    have hmembers : (ofValue.ofMemberValues members).mapM literalMember? = some members := by
      rw [ofMemberValues_eq_map, mapM_eq_some_iff, List.forall₂_map_left_iff, List.forall₂_same]
      intro e he
      rw [literalMember?, ih e he (hordered e he)]
      rfl
    rw [ofValue, literalValue?_object, hmembers, Option.map_some,
      inKeyOrder_of_keysSorted (keysSorted_ofMemberValues.mp hsorted)]

/-- Values that are written down the same are the same. -/
theorem eq_of_ofValue_eq {v w : Json α} (h : ofValue v = ofValue w)
    (hordered : (ofValue v).Ordered) : v = w := by
  have hv := literalValue?_ofValue hordered
  have hw := literalValue?_ofValue (h ▸ hordered)
  rw [h, hw] at hv
  exact (Option.some.inj hv).symm

/-! ### Trees in which no member repeats -/

/-- The members of an object have different names. -/
def Distinct : Tree α → Prop
  | .object members => (members.map Prod.fst).Nodup
  | _ => True

instance : (t : Tree α) → Decidable t.Distinct
  | .object members => inferInstanceAs (Decidable (members.map Prod.fst).Nodup)
  | .illegible | .null | .bool _ | .number _ | .string _ | .array _ => .isTrue trivial

theorem exists_mapM {β γ : Type} {f : β → Option γ} {l : List β} (h : ∀ x ∈ l, ∃ y, f x = some y) :
    ∃ r, l.mapM f = some r := by
  induction l with
  | nil => exact ⟨[], rfl⟩
  | cons x rest ih =>
    obtain ⟨⟨y, hy⟩, hrest⟩ := List.forall_mem_cons.mp h
    obtain ⟨r, hr⟩ := ih hrest
    exact ⟨y :: r, mapM_eq_some_iff.mpr (.cons hy (mapM_eq_some_iff.mp hr))⟩

/-- Two readers that read the same list read the same of each item. -/
theorem eq_of_mapM_eq {β γ : Type} {f g : β → Option γ} {l : List β} {r : List γ}
    (hf : l.mapM f = some r) (hg : l.mapM g = some r) : ∀ x ∈ l, f x = g x := by
  induction mapM_eq_some_iff.mp hf with
  | nil => exact nofun
  | cons hx hrest ih =>
    cases mapM_eq_some_iff.mp hg with
    | cons hx' hrest' =>
      exact List.forall_mem_cons.mpr ⟨hx.trans hx'.symm,
        ih (mapM_eq_some_iff.mpr hrest) (mapM_eq_some_iff.mpr hrest')⟩

/-- Where no member repeats, an object that stands for what it says has members that do. -/
theorem exists_value_of_member {embedded? : String → Option (Json α)}
    {members : List (String × Tree α)} {said values : List (String × Json α)}
    (hdistinct : (members.map Prod.fst).Nodup) (hsaid : members.mapM literalMember? = some said)
    (hvalues : members.mapM (memberValue? embedded?) = some values)
    (heq : inKeyOrder values = inKeyOrder said) {e : String × Tree α} (he : e ∈ members) :
    ∃ v, (e.1, v) ∈ inKeyOrder said ∧ e.2.literalValue? = some v ∧
      e.2.valueWith? embedded? = some v := by
  have hsaidNodup : (said.map Prod.fst).Nodup := by
    rwa [keys_of_mapM_named (f := literalValue?) hsaid]
  have hvaluesNodup : (values.map Prod.fst).Nodup := by rwa [keys_of_mapM hvalues]
  obtain ⟨_, hv, hread⟩ := exists_mem_of_mapM hsaid he
  obtain ⟨v, hsays, rfl⟩ := Option.map_eq_some_iff.mp hread
  obtain ⟨_, hw, hread'⟩ := exists_mem_of_mapM hvalues he
  obtain ⟨w, hstands, rfl⟩ := Option.map_eq_some_iff.mp hread'
  rw [← (inKeyOrder_perm hsaidNodup).mem_iff] at hv
  rw [← (inKeyOrder_perm hvaluesNodup).mem_iff, heq] at hw
  -- the object has one value under the name, so that the two readings agree
  have hsorted := (keysSorted_inKeyOrder said).nodup
  rw [← lookup_eq_some_iff_mem hsorted] at hv hw
  obtain rfl := Option.some.inj (hw.symm.trans hv)
  exact ⟨w, (lookup_eq_some_iff_mem hsorted).mp hv, hsays, hstands⟩

/-- **A tree that stands for what it says holds no embedded text**, if no object in what it says
begins with the reserved name and none in the tree repeats a member. -/
theorem plain_of_literalValue? {embedded? : String → Option (Json α)} {t : Tree α} {v : Json α}
    (hdistinct : t.AllParts Distinct) (hsaid : t.literalValue? = some v)
    (hvalue : t.valueWith? embedded? = some v) (hplain : (ofValue v).Plain) : t.Plain := by
  induction t using Tree.induction generalizing v with
  | illegible => cases hsaid
  | null | bool | number | string =>
    intro part hpart
    obtain rfl := List.mem_singleton.mp hpart
    rfl
  | array items ih =>
    rw [literalValue?_array] at hsaid
    rw [valueWith?_array] at hvalue
    obtain ⟨said, hitems, rfl⟩ := Option.map_eq_some_iff.mp hsaid
    obtain ⟨values, hvalues, heq⟩ := Option.map_eq_some_iff.mp hvalue
    obtain rfl := Json.array.inj heq
    refine allParts_array.mpr ⟨rfl, fun t ht => ?_⟩
    obtain ⟨w, hw, hread⟩ := exists_mem_of_mapM hitems ht
    have hread' := (eq_of_mapM_eq hitems hvalues t ht).symm.trans hread
    exact ih t ht ((allParts_array.mp hdistinct).2 t ht) hread hread'
      (plain_ofValue_array.mp hplain w hw)
  | object members ih =>
    rw [literalValue?_object] at hsaid
    obtain ⟨said, hmembers, rfl⟩ := Option.map_eq_some_iff.mp hsaid
    cases hbegins : beginsEmbedded members with
    | true =>
      rw [valueWith?, if_pos hbegins] at hvalue
      obtain ⟨text, htext, -⟩ := Option.bind_eq_some_iff.mp hvalue
      unfold embeddedText? at htext
      split at htext
      · obtain rfl := Option.some.inj hmembers
        exact absurd hbegins (Bool.eq_false_iff.mp hplain.self)
      · cases htext
    | false =>
      rw [valueWith?_object hbegins] at hvalue
      obtain ⟨values, hvalues, heq⟩ := Option.map_eq_some_iff.mp hvalue
      obtain ⟨hnodup, hparts⟩ := allParts_object.mp hdistinct
      refine allParts_object.mpr ⟨hbegins, fun e he => ?_⟩
      obtain ⟨w, hmem, hread, hread'⟩ :=
        exists_value_of_member hnodup hmembers hvalues (Json.object.inj heq) he
      exact ih e he (hparts e he) hread hread' ((allParts_ofValue_object.mp hplain).2 _ hmem)

end ThermalLabel.Json.Tree

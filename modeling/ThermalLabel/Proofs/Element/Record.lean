import ThermalLabel.Element.Tree
import ThermalLabel.LabelSize
import ThermalLabel.Proofs.Json.Value

/-! # Elements and label sizes read back

A record is read by the names of its fields, so the order of its members does not matter as long as
no name repeats. An element is read back from its members in any order, if the unknown ones among
them have names of their own and values that are read back. -/

namespace ThermalLabel

variable {α : Type}

namespace Json.Tree

/-! ### Records -/

theorem repeats_eq_false {members : List (String × Tree α)}
    (h : (members.map Prod.fst).Nodup) (k : String) : repeats members k = false := by
  rw [repeats, length_filter_key, decide_eq_false_iff_not, Nat.not_lt]
  exact List.nodup_iff_count_le_one.mp h k

theorem fields?_object_eq_some {members : List (String × Tree α)} {names : List String}
    {fields : Fields α} : (object members).fields? names = some fields ↔
      (∀ k ∈ names, repeats members k = false) ∧ fields = ⟨members⟩ := by
  rw [fields?]
  cases hrepeats : names.any (repeats members) with
  | true =>
    obtain ⟨k, hk, hrepeats⟩ := List.any_eq_true.mp hrepeats
    rw [if_pos rfl]
    exact iff_of_false nofun fun h => Bool.false_ne_true ((h.1 k hk).symm.trans hrepeats)
  | false =>
    have hnone : ∀ k ∈ names, repeats members k = false := fun k hk =>
      Bool.eq_false_iff.mpr (List.any_eq_false.mp hrepeats k hk)
    rw [if_neg Bool.false_ne_true, Option.some_inj, eq_comm]
    exact (and_iff_right hnone).symm

theorem fields?_object {members : List (String × Tree α)} (h : (members.map Prod.fst).Nodup)
    (names : List String) : (object members).fields? names = some ⟨members⟩ :=
  fields?_object_eq_some.mpr ⟨fun k _ => repeats_eq_false h k, rfl⟩

/-- The fields of a record do not depend on the order of its members. -/
theorem fields?_of_perm {members more : List (String × Tree α)}
    (h : (members.map Prod.fst).Nodup) (hperm : more.Perm members) (names : List String) :
    ∃ fields, (object more).fields? names = some fields ∧
      ∀ k, fields.get? k = members.lookup k := by
  have hmore : (more.map Prod.fst).Nodup := (hperm.map Prod.fst).nodup_iff.mpr h
  exact ⟨⟨more⟩, fields?_object hmore names, lookup_eq_of_perm hmore hperm⟩

theorem keys_ofMemberValues (members : List (String × Json α)) :
    (ofValue.ofMemberValues members).map Prod.fst = members.map Prod.fst := by
  rw [ofMemberValues_eq_map, List.map_map]
  rfl

/-- The value of a tree without items and members. -/
def leafValue : Tree α → Json α
  | .bool b => .bool b
  | .number n => .number n
  | .string s => .string s
  | _ => .null

theorem plain_leafValue (t : Tree α) : (ofValue t.leafValue).Plain := by
  intro part hpart
  cases t <;> obtain rfl := List.mem_singleton.mp hpart <;> rfl

theorem ordered_leafValue (t : Tree α) : (ofValue t.leafValue).Ordered := by
  intro part hpart
  cases t <;> obtain rfl := List.mem_singleton.mp hpart <;> trivial

/-- Members in key order begin with the least name. -/
theorem beginsEmbedded_iff {members : List (String × Json α)} (h : KeysSorted members) :
    beginsEmbedded (ofValue.ofMemberValues members) = true ↔
      embeddedName ∈ members.map Prod.fst ∧
        ∀ k ∈ members.map Prod.fst, ¬ k < embeddedName := by
  cases members with
  | nil => simp [beginsEmbedded, ofValue.ofMemberValues]
  | cons e rest =>
    obtain ⟨hbelow, -⟩ := List.pairwise_cons.mp h
    show (e.1 == embeddedName) = true ↔ _
    rw [beq_iff_eq, List.map_cons, List.forall_mem_cons, List.mem_cons]
    constructor
    · intro heq
      refine ⟨Or.inl heq.symm, heq ▸ String.lt_irrefl _, fun k hk hlt => ?_⟩
      obtain ⟨e', he', rfl⟩ := List.mem_map.mp hk
      exact String.lt_irrefl _ (String.lt_trans hlt (heq ▸ hbelow e' he'))
    · rintro ⟨heq | hmem, hleast, -⟩
      · exact heq.symm
      · obtain ⟨e', he', heq⟩ := List.mem_map.mp hmem
        exact absurd (heq ▸ hbelow e' he') hleast

end Json.Tree

namespace LabelSize

/-- The values of the members of a label size. -/
def entries (size : LabelSize α) : List (String × Json α) :=
  [("name", .string size.name), ("width", .scalar size.width), ("height", .scalar size.height)]

theorem toTree_eq (size : LabelSize α) :
    size.toTree = .object (Json.Tree.ofValue.ofMemberValues size.entries) := rfl

theorem nodup_entries (size : LabelSize α) : (size.entries.map Prod.fst).Nodup := by
  show ["name", "width", "height"].Nodup
  decide

/-- A label size is read back from its members in any order. -/
theorem ofTree?_of_perm [Scalar α] (size : LabelSize α) {members : List (String × Json.Tree α)}
    (hperm : members.Perm (Json.Tree.ofValue.ofMemberValues size.entries)) :
    LabelSize.ofTree? (.object members) = some size := by
  obtain ⟨fields, hfields, hget⟩ := Json.Tree.fields?_of_perm
    (Json.Tree.keys_ofMemberValues size.entries ▸ size.nodup_entries) hperm
    ["name", "width", "height"]
  unfold LabelSize.ofTree?
  rw [hfields]
  simp only [Option.bind_eq_bind, Option.bind_some, Json.Tree.Fields.require?, hget]
  rfl

end LabelSize

namespace Element

/-- The unknown members of an element have other names than its type and its fields. -/
def Proper (e : Element α) : Prop :=
  ∀ name ∈ "type" :: e.kind.fieldNames, name ∉ e.extra.keys

instance (e : Element α) : Decidable e.Proper := inferInstanceAs (Decidable (∀ _ ∈ _, _))

/-- The members of an element for its type and its fields. -/
def fieldMembers (e : Element α) : List (String × Json.Tree α) :=
  ("type", .string e.kind.name) :: ("id", .string e.id) :: ("x", scalarTree e.x) ::
    ("y", scalarTree e.y) :: bodyMembers e.body

theorem members_eq (e : Element α) :
    e.members = e.fieldMembers ++ Json.Tree.ofValue.ofMemberValues e.extra.toList := rfl

theorem keys_fieldMembers (e : Element α) :
    e.fieldMembers.map Prod.fst = "type" :: e.kind.fieldNames := by
  rcases e with ⟨id, x, y, body, extra⟩
  cases body <;> rfl

theorem keys_members (e : Element α) :
    e.members.map Prod.fst = ("type" :: e.kind.fieldNames) ++ e.extra.keys := by
  rw [members_eq, List.map_append, keys_fieldMembers, Json.Tree.keys_ofMemberValues]
  rfl

theorem nodup_fieldNames (kind : Kind) : ("type" :: kind.fieldNames).Nodup := by
  cases kind <;> decide

theorem Proper.nodup {e : Element α} (h : e.Proper) : (e.members.map Prod.fst).Nodup := by
  rw [keys_members]
  exact (nodup_fieldNames e.kind).append e.extra.sorted.nodup fun name hname hextra =>
    h name hname hextra

/-- The members that are no fields are the unknown ones. -/
theorem filter_members {e : Element α} (h : e.Proper) :
    (e.members.filter fun m => !("type" :: e.kind.fieldNames).contains m.1) =
      Json.Tree.ofValue.ofMemberValues e.extra.toList := by
  have hknown : ∀ m ∈ e.fieldMembers, m.1 ∈ "type" :: e.kind.fieldNames := fun m hm =>
    e.keys_fieldMembers ▸ List.mem_map_of_mem hm
  have hunknown : ∀ m ∈ Json.Tree.ofValue.ofMemberValues e.extra.toList,
      m.1 ∉ "type" :: e.kind.fieldNames := by
    intro m hm hname
    refine h m.1 hname ?_
    rw [StringMap.keys, ← Json.Tree.keys_ofMemberValues]
    exact List.mem_map_of_mem hm
  rw [members_eq, List.filter_append, List.filter_eq_nil_iff.mpr, List.nil_append,
    List.filter_eq_self.mpr]
  · intro m hm
    rw [Bool.not_eq_true', Bool.eq_false_iff, ne_eq, List.contains_iff_mem]
    exact hunknown m hm
  · intro m hm
    rw [Bool.not_eq_true', Bool.not_eq_false, List.contains_iff_mem]
    exact hknown m hm

/-- The unknown members are read back in any order. -/
theorem extraOfMembers?_of_perm [NumberText α] {e : Element α} (h : e.Proper)
    (hextra : ∀ m ∈ e.extra.toList, (Json.Tree.ofValue m.2).value? = some m.2)
    {members : List (String × Json.Tree α)} (hperm : members.Perm e.members) :
    extraOfMembers? e.kind members = some e.extra := by
  have hunknown := hperm.filter fun m => !("type" :: e.kind.fieldNames).contains m.1
  rw [filter_members h] at hunknown
  obtain ⟨values, hread, hvalues⟩ :=
    mapM_of_perm (Json.Tree.mapM_memberValue? hextra) hunknown
  have hnodup : (e.extra.toList.map Prod.fst).Nodup := e.extra.sorted.nodup
  show (List.mapM (Json.Tree.memberValue? Json.parse?) _).map StringMap.ofList = _
  rw [hread, Option.map_some, ← StringMap.ofList_eq_of_perm hnodup hvalues.symm,
    StringMap.ofList_toList]

variable [Scalar α]

theorem kind_default (kind : Kind) : (Body.default kind : Body α).kind = kind := by
  cases kind <;> rfl

/-- The fields of an element are read back by name. -/
theorem bodyOfFields?_of_get? (e : Element α) {fields : Json.Tree.Fields α}
    (h : ∀ k, fields.get? k = e.members.lookup k) :
    bodyOfFields? fields (Body.default e.kind) = some e.body := by
  rcases e with ⟨id, x, y, body, extra⟩
  cases body with
  | text t =>
    obtain ⟨content, fontSize, fontWeight, fontFamily⟩ := t
    simp only [kind, Body.kind, Body.default, bodyOfFields?, stringField?, scalarField?, h]
    cases fontWeight <;> rfl
  | qrcode q =>
    simp only [kind, Body.kind, Body.default, bodyOfFields?, stringField?, scalarField?, h]
    rfl
  | barcode b =>
    simp only [kind, Body.kind, Body.default, bodyOfFields?, stringField?, scalarField?, h]
    rfl
  | box b =>
    simp only [kind, Body.kind, Body.default, bodyOfFields?, scalarField?, h]
    rfl

/-- **An element is read back from its members in any order.** -/
theorem ofTree?_of_perm [NumberText α] {e : Element α} (h : e.Proper)
    (hextra : ∀ m ∈ e.extra.toList, (Json.Tree.ofValue m.2).value? = some m.2)
    {members : List (String × Json.Tree α)} (hperm : members.Perm e.members) :
    Element.ofTree? (.object members) = some e := by
  obtain ⟨fields, hfields, hget⟩ :=
    Json.Tree.fields?_of_perm h.nodup hperm ("type" :: e.kind.fieldNames)
  have htype : members.lookup "type" = some (.string e.kind.name) :=
    (lookup_eq_of_perm h.nodup hperm.symm "type").symm
  have hkind : Kind.choices.lookup e.kind.name = some e.kind := by
    cases e.kind <;> rfl
  have hbody := bodyOfFields?_of_get? e hget
  have hunknown := extraOfMembers?_of_perm h hextra hperm
  have hmembers : ofMembers? e.kind members = some e := by
    unfold ofMembers?
    simp only [hfields, Option.bind_eq_bind, Option.bind_some, hbody, hunknown, stringField?,
      scalarField?, hget]
    rfl
  unfold Element.ofTree?
  simp only [htype, Json.Tree.string?, Option.bind_eq_bind, Option.bind_some, hkind, hmembers]

theorem extraOfMembers?_of_ofMembers? [NumberText α] {kind : Kind}
    {members : List (String × Json.Tree α)} {e : Element α} (h : ofMembers? kind members = some e) :
    extraOfMembers? kind members = some e.extra := by
  simp only [ofMembers?, Option.bind_eq_bind, Option.bind_eq_some_iff] at h
  obtain ⟨fields, -, id, -, x, -, y, -, body, -, extra, hextra, heq⟩ := h
  obtain rfl := Option.some.inj heq
  exact hextra

/-- The unknown members of an element that was read are values that were read. -/
theorem unwrapped_extra_of_ofTree? [NumberText α] {t : Json.Tree α} {e : Element α}
    (h : Element.ofTree? t = some e) {m : String × Json α} (hm : m ∈ e.extra.toList) :
    (Json.Tree.ofValue m.2).Unwrapped := by
  unfold Element.ofTree? at h
  split at h
  · next members =>
    obtain ⟨name, -, h⟩ := Option.bind_eq_some_iff.mp h
    obtain ⟨kind, -, h⟩ := Option.bind_eq_some_iff.mp h
    obtain ⟨values, hvalues, heq⟩ := Option.map_eq_some_iff.mp (extraOfMembers?_of_ofMembers? h)
    rw [← heq, StringMap.toList_ofList] at hm
    obtain ⟨member, -, hread⟩ := exists_of_mem_mapM hvalues (mem_of_mem_inKeyOrder hm)
    obtain ⟨v, hv, rfl⟩ := Option.map_eq_some_iff.mp hread
    exact Json.Tree.unwrapped_of_value? hv
  · cases h

/-! ### Elements as values

A template is read as a value first. The value of an element has its members in key order, and they
are read again before the element is made of them. -/

omit [Scalar α]

/-- The unknown members as one value. -/
def extraValue (e : Element α) : Json α := .object e.extra.toList

/-- The values of an element's members, in the order they are written. -/
def entries (e : Element α) : List (String × Json α) :=
  e.fieldMembers.map (fun m => (m.1, m.2.leafValue)) ++ e.extra.toList

theorem ofMemberValues_entries (e : Element α) :
    Json.Tree.ofValue.ofMemberValues e.entries = e.members := by
  rw [members_eq, entries, Json.Tree.ofMemberValues_eq_map, Json.Tree.ofMemberValues_eq_map,
    List.map_append]
  congr 1
  rcases e with ⟨id, x, y, body, extra⟩
  cases body <;> rfl

theorem forall_mem_entries {P : Json α → Prop} {e : Element α}
    (hleaf : ∀ t : Json.Tree α, P t.leafValue) (hextra : ∀ m ∈ e.extra.toList, P m.2) :
    ∀ m ∈ e.entries, P m.2 := by
  refine List.forall_mem_append.mpr ⟨fun m hm => ?_, hextra⟩
  obtain ⟨field, -, rfl⟩ := List.mem_map.mp hm
  exact hleaf field.2

theorem not_lt_embeddedName (kind : Kind) :
    Json.embeddedName ∉ "type" :: kind.fieldNames ∧
      ∀ name ∈ "type" :: kind.fieldNames, ¬ name < Json.embeddedName := by
  cases kind <;> decide

/-- The value of an element begins with the reserved name if the unknown members do: no field has a
name as low as that. -/
theorem beginsEmbedded_inKeyOrder {e : Element α} {values : List (String × Json α)}
    (hkeys : values.map Prod.fst = e.members.map Prod.fst) :
    Json.Tree.beginsEmbedded (Json.Tree.ofValue.ofMemberValues (inKeyOrder values)) =
      Json.Tree.beginsEmbedded (Json.Tree.ofValue.ofMemberValues e.extra.toList) := by
  obtain ⟨hnot, habove⟩ := not_lt_embeddedName e.kind
  have hmem : ∀ k, k ∈ (inKeyOrder values).map Prod.fst ↔
      k ∈ "type" :: e.kind.fieldNames ∨ k ∈ e.extra.toList.map Prod.fst := by
    intro k
    rw [StringMap.mem_keys_inKeyOrder, hkeys, keys_members, List.mem_append]
    rfl
  rw [Bool.eq_iff_iff, Json.Tree.beginsEmbedded_iff (keysSorted_inKeyOrder values),
    Json.Tree.beginsEmbedded_iff e.extra.sorted]
  simp only [hmem]
  constructor
  · rintro ⟨hhead, hleast⟩
    exact ⟨hhead.resolve_left hnot, fun k hk => hleast k (Or.inr hk)⟩
  · rintro ⟨hhead, hleast⟩
    exact ⟨Or.inr hhead, fun k hk => hk.elim (habove k) (hleast k)⟩

theorem valueWith?_toTree (embedded? : String → Option (Json α)) (e : Element α) :
    e.toTree.valueWith? embedded? =
      (e.members.mapM (Json.Tree.memberValue? embedded?)).map fun values =>
        .object (inKeyOrder values) :=
  Json.Tree.valueWith?_object rfl

theorem plain_extraValue {e : Element α} :
    (Json.Tree.ofValue e.extraValue).Plain ↔
      Json.Tree.beginsEmbedded (Json.Tree.ofValue.ofMemberValues e.extra.toList) = false ∧
        ∀ m ∈ e.extra.toList, (Json.Tree.ofValue m.2).Plain :=
  Json.Tree.allParts_ofValue_object

variable [NumberText α]

/-- An element whose unknown members hold no embedded text is read back, through its value. -/
theorem exists_value_of_plain [Scalar α] (embedded? : String → Option (Json α)) {e : Element α}
    (h : e.Proper) (hplain : (Json.Tree.ofValue e.extraValue).Plain)
    (hordered : ∀ m ∈ e.extra.toList, (Json.Tree.ofValue m.2).Ordered) :
    ∃ v, e.toTree.valueWith? embedded? = some v ∧ Json.reread? v = some v ∧
      Element.ofTree? (Json.Tree.ofValue v) = some e := by
  obtain ⟨hbegins, hextra⟩ := plain_extraValue.mp hplain
  have hkeys : e.entries.map Prod.fst = e.members.map Prod.fst := by
    rw [← ofMemberValues_entries, Json.Tree.keys_ofMemberValues]
  have hnodup : (e.entries.map Prod.fst).Nodup := hkeys ▸ h.nodup
  have hplains := forall_mem_entries (P := fun v => (Json.Tree.ofValue v).Plain)
    Json.Tree.plain_leafValue hextra
  have horders := forall_mem_entries (P := fun v => (Json.Tree.ofValue v).Ordered)
    Json.Tree.ordered_leafValue hordered
  refine ⟨.object (inKeyOrder e.entries), ?_, ?_, ?_⟩
  · rw [valueWith?_toTree, ← ofMemberValues_entries, Json.Tree.mapM_memberValue? fun m hm =>
      Json.Tree.valueWith?_ofValue embedded? (hplains m hm) (horders m hm)]
    rfl
  · refine Json.Tree.valueWith?_ofValue _ (Json.Tree.allParts_ofValue_object.mpr ⟨?_, ?_⟩)
      (Json.Tree.allParts_ofValue_object.mpr ⟨?_, ?_⟩)
    · exact (beginsEmbedded_inKeyOrder hkeys).trans hbegins
    · exact fun m hm => hplains m (mem_of_mem_inKeyOrder hm)
    · exact Json.Tree.keysSorted_ofMemberValues.mpr (keysSorted_inKeyOrder _)
    · exact fun m hm => horders m (mem_of_mem_inKeyOrder hm)
  · refine ofTree?_of_perm h (fun m hm => ?_) ?_
    · exact Json.Tree.valueWith?_ofValue _ (hextra m hm) (hordered m hm)
    · rw [← ofMemberValues_entries, Json.Tree.ofMemberValues_eq_map,
        Json.Tree.ofMemberValues_eq_map]
      exact (inKeyOrder_perm hnodup).map _

/-- An element that is read through its value has no embedded text among its unknown members, if
what is embedded and what the members hold comes from reading. -/
theorem plain_of_reread {embedded? : String → Option (Json α)}
    (hembedded : ∀ s v, embedded? s = some v → (Json.Tree.ofValue v).Unwrapped) {e : Element α}
    {v w : Json α} (hv : e.toTree.valueWith? embedded? = some v) (hw : Json.reread? v = some w)
    (hunwrapped : ∀ m ∈ e.extra.toList, (Json.Tree.ofValue m.2).Unwrapped) :
    (Json.Tree.ofValue e.extraValue).Plain := by
  have hplain := Json.Tree.plain_of_unwrapped hw
    (Json.Tree.unwrapped_of_valueWith? hembedded hv)
  rw [valueWith?_toTree] at hv
  obtain ⟨values, hvalues, rfl⟩ := Option.map_eq_some_iff.mp hv
  refine plain_extraValue.mpr ⟨?_, fun m hm => ?_⟩
  · rw [← beginsEmbedded_inKeyOrder (Json.Tree.keys_of_mapM hvalues)]
    exact hplain.self
  · have hmem : (m.1, Json.Tree.ofValue m.2) ∈ e.members := by
      rw [members_eq, Json.Tree.ofMemberValues_eq_map]
      exact List.mem_append_right _ (List.mem_map_of_mem hm)
    obtain ⟨value, -, hread⟩ := exists_mem_of_mapM hvalues hmem
    obtain ⟨x, hx, -⟩ := Option.map_eq_some_iff.mp hread
    exact Json.Tree.plain_of_unwrapped hx (hunwrapped m hm)

end Element

end ThermalLabel

import ThermalLabel.Proofs.Element.Record

/-! # Records restated

A template is read as a value before anything is taken out of it, so its records are read from their
values written down again: what was left open in the text, such as the order of the members, is
settled there. The fields of a record are found as they were, and so is what the readers of records
make of them. An element may hold unknown members of any shape, so that it is found again only if
nothing in its value begins with the reserved name. -/

namespace ThermalLabel

variable {α β : Type}

namespace Json.Tree

variable [NumberText α]

/-- A tree and its value, written down. -/
def Restated (t t' : Tree α) : Prop := ∃ v, t.value? = some v ∧ ofValue v = t'

/-- A reader that reads of a value, written down, what it reads of the tree. -/
def Steady (read : Tree α → Option β) : Prop :=
  ∀ ⦃t t' : Tree α⦄ ⦃b : β⦄, t.Restated t' → read t = some b → read t' = some b

/-! ### Fields -/

theorem Steady.bind {read : Tree α → Option β} (h : Steady read) {field field' : Option (Tree α)}
    (hfield : Option.Rel Restated field field') {b : β} (hread : field.bind read = some b) :
    field'.bind read = some b := by
  cases hfield with
  | some ht => exact h ht hread
  | none => cases hread

theorem Steady.orDefault? {read : Tree α → Option β} (h : Steady read)
    {field field' : Option (Tree α)} (hfield : Option.Rel Restated field field') {default b : β}
    (hread : Tree.orDefault? default read field = some b) :
    Tree.orDefault? default read field' = some b := by
  cases hfield with
  | some ht => exact h ht hread
  | none => exact hread

/-- Trees without parts are their own values. -/
theorem steady_of_leaf {read : Tree α → Option β}
    (hleaf : ∀ t, read t ≠ none → ofValue t.leafValue = t) : Steady read := by
  rintro t _ b ⟨v, hv, rfl⟩ h
  have hself : ofValue t.leafValue = t := hleaf t (h ▸ Option.some_ne_none b)
  have hvalue := valueWith?_ofValue Json.parse? (plain_leafValue t) (ordered_leafValue t)
  rw [hself] at hvalue
  rwa [Option.some.inj (hv.symm.trans hvalue), hself]

theorem steady_scalar? [Scalar α] : Steady (scalar? (α := α)) :=
  steady_of_leaf fun t h => by cases t <;> first | rfl | exact absurd rfl h

theorem steady_bool? : Steady (bool? (α := α)) :=
  steady_of_leaf fun t h => by cases t <;> first | rfl | exact absurd rfl h

theorem steady_string? : Steady (string? (α := α)) :=
  steady_of_leaf fun t h => by cases t <;> first | rfl | exact absurd rfl h

/-- A choice may be written as an object, unless the reserved name is one of the choices. -/
theorem steady_choice? {isUnit : Tree α → Bool} {names : List (String × β)}
    (hunit : ∀ ⦃t t'⦄, Restated t t' → isUnit t = true → isUnit t' = true)
    (hname : names.lookup embeddedName = none) : Steady (choice? isUnit names) := by
  rintro t _ b ⟨v, hv, rfl⟩ h
  unfold choice? at h
  split at h
  · obtain rfl := Option.some.inj hv
    exact h
  · next k inner =>
    split_ifs at h with hinner
    have hbegins : beginsEmbedded [(k, inner)] = false := by
      refine beq_eq_false_iff_ne.mpr fun hk => ?_
      rw [show k = embeddedName from hk, hname] at h
      cases h
    rw [value?, valueWith?_object hbegins] at hv
    obtain ⟨values, hvalues, rfl⟩ := Option.map_eq_some_iff.mp hv
    cases mapM_eq_some_iff.mp hvalues with
    | cons hvalue hnil =>
      cases hnil
      obtain ⟨w, hw, rfl⟩ := Option.map_eq_some_iff.mp hvalue
      show (if isUnit (ofValue w) then names.lookup k else none) = some b
      rwa [if_pos (hunit ⟨w, hw, rfl⟩ hinner)]
  · cases h

/-! ### Records -/

/-- An object with a member under another name is no embedded text. -/
theorem beginsEmbedded_of_lookup {members : List (String × Tree α)} {v : Json α}
    (hv : (object members).value? = some v) {k : String} (hk : k ≠ embeddedName)
    (hthere : members.lookup k ≠ none) : beginsEmbedded members = false := by
  refine Bool.eq_false_iff.mpr fun hbegins => hthere ?_
  rw [value?, valueWith?, if_pos hbegins] at hv
  obtain ⟨text, htext, -⟩ := Option.bind_eq_some_iff.mp hv
  unfold embeddedText? at htext
  split at htext
  · next name s =>
    have hname : name = embeddedName := eq_of_beq hbegins
    rw [List.lookup_cons, hname, beq_eq_false_iff_ne.mpr hk]
    rfl
  · cases htext

omit [NumberText α] in
theorem lookup_ofMemberValues (members : List (String × Json α)) (k : String) :
    (ofValue.ofMemberValues members).lookup k = (members.lookup k).map ofValue := by
  induction members with
  | nil => rfl
  | cons e rest ih =>
    rw [ofValue.ofMemberValues, List.lookup_cons, List.lookup_cons, ih]
    cases k == e.1 <;> rfl

/-- A member that does not repeat is found among the values in key order. -/
theorem rel_lookup_values {members : List (String × Tree α)} {values : List (String × Json α)}
    (hvalues : members.mapM (memberValue? Json.parse?) = some values) {k : String}
    (hk : repeats members k = false) :
    Option.Rel (fun t v => t.value? = some v) (members.lookup k)
      ((inKeyOrder values).lookup k) := by
  have hcount : (values.map Prod.fst).count k ≤ 1 := by
    rw [keys_of_mapM hvalues, ← length_filter_key]
    exact Nat.not_lt.mp (of_decide_eq_false hk)
  rw [lookup_inKeyOrder, lookup_reverse hcount]
  refine rel_lookup ((mapM_eq_some_iff.mp hvalues).imp fun e e' he => ?_) k
  obtain ⟨v, hv, rfl⟩ := Option.map_eq_some_iff.mp he
  exact ⟨rfl, hv⟩

theorem rel_lookup_members {members : List (String × Tree α)} {values : List (String × Json α)}
    (hvalues : members.mapM (memberValue? Json.parse?) = some values) {k : String}
    (hk : repeats members k = false) :
    Option.Rel Restated (members.lookup k)
      ((ofValue.ofMemberValues (inKeyOrder values)).lookup k) := by
  have hrel := rel_lookup_values hvalues hk
  rw [lookup_ofMemberValues]
  generalize members.lookup k = t, (inKeyOrder values).lookup k = v at hrel
  cases hrel with
  | some hv => exact Option.Rel.some ⟨_, hv, rfl⟩
  | none => exact Option.Rel.none

/-- Items are found again at their places. -/
theorem rel_lookup_zip {items items' : List (Tree α)} (h : List.Forall₂ Restated items items')
    (names : List String) (k : String) :
    Option.Rel Restated ((names.zip items).lookup k) ((names.zip items').lookup k) := by
  refine rel_lookup ?_ k
  induction h generalizing names with
  | nil => cases names <;> exact List.Forall₂.nil
  | cons ht _ ih =>
    cases names with
    | nil => exact List.Forall₂.nil
    | cons name names => exact List.Forall₂.cons ⟨rfl, ht⟩ (ih names)

theorem exists_values {members : List (String × Tree α)} {v : Json α}
    (hv : (object members).value? = some v) {known : String} (hknown : known ≠ embeddedName)
    (hthere : members.lookup known ≠ none) :
    ∃ values, members.mapM (memberValue? Json.parse?) = some values ∧
      v = .object (inKeyOrder values) := by
  have hbegins := beginsEmbedded_of_lookup hv hknown hthere
  rw [value?, valueWith?_object hbegins] at hv
  obtain ⟨values, hvalues, rfl⟩ := Option.map_eq_some_iff.mp hv
  exact ⟨values, hvalues, rfl⟩

/-- The member of a value is the value of the member. -/
theorem exists_member {members : List (String × Tree α)} {v : Json α}
    (hv : (object members).value? = some v) {k : String} (hk : k ≠ embeddedName)
    (honce : repeats members k = false) {t : Tree α} (h : members.lookup k = some t) :
    ∃ w, v.member? k = some w ∧ t.value? = some w := by
  obtain ⟨values, hvalues, rfl⟩ := exists_values hv hk (h ▸ Option.some_ne_none t)
  have hrel := rel_lookup_values hvalues honce
  rw [h] at hrel
  rw [Json.member?_object]
  generalize (inKeyOrder values).lookup k = w at hrel
  cases hrel with
  | some hw => exact ⟨_, rfl, hw⟩

/-- A value has no members of its own. -/
theorem member?_eq_none {members : List (String × Tree α)} {v : Json α}
    (hv : (object members).value? = some v) {known : String} (hknown : known ≠ embeddedName)
    (hthere : members.lookup known ≠ none) {k : String} (hk : k ∉ members.map Prod.fst) :
    v.member? k = none := by
  obtain ⟨values, hvalues, rfl⟩ := exists_values hv hknown hthere
  rw [← keys_of_mapM hvalues, ← StringMap.mem_keys_inKeyOrder] at hk
  rw [Json.member?_object, List.lookup_eq_none_iff]
  intro e he
  rw [bne_iff_ne]
  rintro rfl
  exact hk (List.mem_map_of_mem he)

/-- **The fields of a record are found again.** One field at least must be there, for an object that
is an embedded text has a value of another shape. -/
theorem Restated.fields {t t' : Tree α} (h : t.Restated t') {names : List String}
    {fields : Fields α} (hfields : t.fields? names = some fields) {known : String}
    (hknown : known ≠ embeddedName) (hthere : fields.get? known ≠ none) :
    ∃ fields', t'.fields? names = some fields' ∧
      ∀ k ∈ names, Option.Rel Restated (fields.get? k) (fields'.get? k) := by
  obtain ⟨v, hv, rfl⟩ := h
  cases t with
  | object members =>
    obtain ⟨hnone, rfl⟩ := fields?_object_eq_some.mp hfields
    obtain ⟨values, hvalues, rfl⟩ := exists_values hv hknown hthere
    have hnodup := (keysSorted_ofMemberValues.mpr (keysSorted_inKeyOrder values)).nodup
    exact ⟨_, fields?_object hnodup names, fun k hk => rel_lookup_members hvalues (hnone k hk)⟩
  | array items =>
    rw [fields?] at hfields
    split_ifs at hfields with hlength
    obtain rfl := Option.some.inj hfields
    rw [value?, valueWith?_array] at hv
    obtain ⟨values, hvalues, rfl⟩ := Option.map_eq_some_iff.mp hv
    have hitems : List.Forall₂ Restated items (values.map ofValue) := by
      rw [List.forall₂_map_right_iff]
      exact (mapM_eq_some_iff.mp hvalues).imp fun _ v hv => ⟨v, hv, rfl⟩
    refine ⟨⟨names.zip (values.map ofValue)⟩, ?_, fun k _ => rel_lookup_zip hitems names k⟩
    rw [ofValue, ofValues_eq_map, fields?, if_pos (hitems.length_eq ▸ hlength)]
  | _ => cases hfields

end Json.Tree

open Json.Tree (Restated Steady)

variable [Scalar α] [NumberText α]

/-! ### Label sizes -/

/-- **A label size is found again.** -/
theorem LabelSize.steady_ofTree? : Steady (LabelSize.ofTree? (α := α)) := by
  intro t t' size ht h
  simp only [LabelSize.ofTree?, Option.bind_eq_bind, Option.bind_eq_some_iff] at h ⊢
  obtain ⟨fields, hfields, name, hname, width, hwidth, height, hheight, heq⟩ := h
  have hthere : fields.get? "width" ≠ none := by
    intro hnone
    rw [Json.Tree.Fields.require?, hnone] at hwidth
    cases hwidth
  obtain ⟨fields', hfields', hget⟩ := ht.fields hfields (by decide) hthere
  simp only [List.forall_mem_cons] at hget
  exact ⟨fields', hfields', name, Json.Tree.steady_string?.orDefault? hget.1 hname, width,
    Json.Tree.steady_scalar?.bind hget.2.1 hwidth, height,
    Json.Tree.steady_scalar?.bind hget.2.2.1 hheight, heq⟩

namespace Element

/-! ### Elements -/

omit [Scalar α] in
theorem steady_fontWeight :
    Steady (Json.Tree.choice? (isUnit (α := α)) FontWeight.choices) := by
  refine Json.Tree.steady_choice? ?_ rfl
  rintro t _ ⟨v, hv, rfl⟩ h
  unfold isUnit at h
  split at h
  · obtain rfl := Option.some.inj hv
    rfl
  · obtain rfl := Option.some.inj hv
    rfl
  · cases h

/-- The body of an element is found again. -/
theorem bodyOfFields?_of_rel {fields fields' : Json.Tree.Fields α} {default body : Body α}
    (hget : ∀ k ∈ default.kind.fieldNames, Option.Rel Restated (fields.get? k) (fields'.get? k))
    (h : bodyOfFields? fields default = some body) :
    bodyOfFields? fields' default = some body := by
  have hscalar {name : String} {d x : α} (hrel : Option.Rel Restated (fields.get? name)
      (fields'.get? name)) (hx : scalarField? fields name d = some x) :
      scalarField? fields' name d = some x := Json.Tree.steady_scalar?.orDefault? hrel hx
  have hstring {name d s : String} (hrel : Option.Rel Restated (fields.get? name)
      (fields'.get? name)) (hs : stringField? fields name d = some s) :
      stringField? fields' name d = some s := Json.Tree.steady_string?.orDefault? hrel hs
  cases default <;>
    simp only [Body.kind, Kind.fieldNames, List.forall_mem_cons] at hget <;>
    simp only [bodyOfFields?, Option.bind_eq_bind, Option.bind_eq_some_iff] at h ⊢
  case text t =>
    obtain ⟨-, -, -, hcontent, hsize, hweight, hfamily, -⟩ := hget
    obtain ⟨content, hc, size, hs, weight, hw, family, hf, heq⟩ := h
    exact ⟨content, hstring hcontent hc, size, hscalar hsize hs, weight,
      steady_fontWeight.orDefault? hweight hw, family, hstring hfamily hf, heq⟩
  case qrcode q =>
    obtain ⟨-, -, -, hcontent, hwidth, hheight, hborder, hpadding, -⟩ := hget
    obtain ⟨content, hc, width, hw, height, hh, border, hb, padding, hp, heq⟩ := h
    exact ⟨content, hstring hcontent hc, width, hscalar hwidth hw, height, hscalar hheight hh,
      border, Json.Tree.steady_bool?.orDefault? hborder hb, padding, hscalar hpadding hp, heq⟩
  case barcode b =>
    obtain ⟨-, -, -, hcontent, hwidth, hheight, -⟩ := hget
    obtain ⟨content, hc, width, hw, height, hh, heq⟩ := h
    exact ⟨content, hstring hcontent hc, width, hscalar hwidth hw, height, hscalar hheight hh, heq⟩
  case box b =>
    obtain ⟨-, -, -, hwidth, hheight, hstroke, -⟩ := hget
    obtain ⟨width, hw, height, hh, stroke, hs, heq⟩ := h
    exact ⟨width, hscalar hwidth hw, height, hscalar hheight hh, stroke, hscalar hstroke hs, heq⟩

omit [Scalar α] [NumberText α] in
theorem filter_ofMemberValues (p : String → Bool) (values : List (String × Json α)) :
    ((Json.Tree.ofValue.ofMemberValues values).filter fun e => p e.1) =
      Json.Tree.ofValue.ofMemberValues (values.filter fun e => p e.1) := by
  rw [Json.Tree.ofMemberValues_eq_map, Json.Tree.ofMemberValues_eq_map, List.filter_map]
  rfl

omit [Scalar α] in
/-- The unknown members of an element are found again, if none of them begins with the reserved
name. -/
theorem extraOfMembers?_of_plain {kind : Kind} {members : List (String × Json.Tree α)}
    {values : List (String × Json α)} {extra : StringMap (Json α)}
    (hvalues : members.mapM (Json.Tree.memberValue? Json.parse?) = some values)
    (hplain : ∀ e ∈ inKeyOrder values, (Json.Tree.ofValue e.2).Plain)
    (h : extraOfMembers? kind members = some extra) :
    extraOfMembers? kind (Json.Tree.ofValue.ofMemberValues (inKeyOrder values)) = some extra := by
  let isUnknown (name : String) : Bool := !("type" :: kind.fieldNames).contains name
  have hunknown : (members.filter fun e => isUnknown e.1).mapM
      (Json.Tree.memberValue? Json.parse?) = some (values.filter fun e => isUnknown e.1) := by
    refine mapM_eq_some_iff.mpr (List.rel_filter (fun e e' he => ?_) (mapM_eq_some_iff.mp hvalues))
    obtain ⟨v, -, rfl⟩ := Option.map_eq_some_iff.mp he
    exact Iff.rfl
  have hagain : ∀ e ∈ inKeyOrder values, (Json.Tree.ofValue e.2).value? = some e.2 := by
    intro e he
    obtain ⟨member, -, hmember⟩ := exists_of_mem_mapM hvalues (mem_of_mem_inKeyOrder he)
    obtain ⟨v, hv, rfl⟩ := Option.map_eq_some_iff.mp hmember
    exact Json.Tree.valueWith?_ofValue Json.parse? (hplain _ he) (Json.Tree.ordered_of_value? hv)
  obtain ⟨unknown, hmapped, rfl⟩ := Option.map_eq_some_iff.mp h
  obtain rfl := Option.some.inj (hunknown.symm.trans hmapped)
  show (List.mapM (Json.Tree.memberValue? Json.parse?)
    (List.filter (fun e => isUnknown e.1) _)).map StringMap.ofList = _
  rw [filter_ofMemberValues isUnknown,
    Json.Tree.mapM_memberValue? fun e he => hagain e (List.mem_of_mem_filter he),
    ← inKeyOrder_filter isUnknown, Option.map_some, ← StringMap.toList_ofList,
    StringMap.ofList_toList]

/-- **An element is found again, if nothing in its value begins with the reserved name.** -/
theorem ofTree?_of_restated {t t' : Json.Tree α} {e : Element α} (h : Element.ofTree? t = some e)
    (ht : t.Restated t') (hplain : t'.Plain) : Element.ofTree? t' = some e := by
  obtain ⟨v, hv, rfl⟩ := ht
  unfold Element.ofTree? at h
  split at h
  · next members =>
    obtain ⟨name, hname, h⟩ := Option.bind_eq_some_iff.mp h
    obtain ⟨kind, hkind, h⟩ := Option.bind_eq_some_iff.mp h
    have hthere : members.lookup "type" ≠ none := by
      intro hnone
      rw [hnone] at hname
      cases hname
    obtain ⟨values, hvalues, rfl⟩ := Json.Tree.exists_values hv (by decide) hthere
    simp only [ofMembers?, Option.bind_eq_bind, Option.bind_eq_some_iff] at h
    obtain ⟨fields, hfields, id, hid, x, hx, y, hy, body, hbody, extra, hextra, heq⟩ := h
    obtain ⟨hnone, rfl⟩ := Json.Tree.fields?_object_eq_some.mp hfields
    have hget := fun k hk => Json.Tree.rel_lookup_members hvalues (hnone k hk)
    have hcommon : ∀ k ∈ ["type", "id", "x", "y"], k ∈ "type" :: kind.fieldNames := by
      cases kind <;> decide
    have hgetCommon := fun k hk => hget k (hcommon k hk)
    simp only [List.forall_mem_cons] at hgetCommon
    obtain ⟨htype, hgetId, hgetX, hgetY, -⟩ := hgetCommon
    have hnodup := (Json.Tree.keysSorted_ofMemberValues.mpr (keysSorted_inKeyOrder values)).nodup
    have hplains := (Json.Tree.allParts_ofValue_object.mp hplain).2
    rw [Json.Tree.ofValue]
    simp only [Element.ofTree?, Json.Tree.steady_string?.bind htype hname, hkind, ofMembers?,
      Json.Tree.fields?_object hnodup, extraOfMembers?_of_plain hvalues hplains hextra,
      Option.bind_eq_bind, Option.bind_some, Option.bind_eq_some_iff]
    have hgetBody := fun k hk => hget k (List.mem_cons_of_mem "type" hk)
    rw [← kind_default (α := α) kind] at hgetBody
    exact ⟨id, Json.Tree.steady_string?.orDefault? hgetId hid, x,
      Json.Tree.steady_scalar?.orDefault? hgetX hx, y,
      Json.Tree.steady_scalar?.orDefault? hgetY hy, body, bodyOfFields?_of_rel hgetBody hbody, heq⟩
  · cases h

end Element

end ThermalLabel

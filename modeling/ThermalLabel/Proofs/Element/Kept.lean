import ThermalLabel.Proofs.Element.Restated
import ThermalLabel.Proofs.Json.Literal
import ThermalLabel.Proofs.Session.Proper

/-! # What an element keeps

An object describes an element of a kind if it has the type of this kind and if the members that are
named like its fields have the JSON types of these. The element that is read from it keeps
everything: each field has the value that is given or else its default, and every other member says
what it said before (`members_kept`).

The exception are objects that begin with the reserved name, among the other members as they are
given or in key order. What is read of these is what they embed, if they are read at all
(`embedding_note_not_kept`). -/

namespace ThermalLabel

variable {α : Type}

/-- The JSON types of fields. -/
inductive FieldType where
  | text
  | number
  | weight
  | flag

/-- What is of a JSON type. -/
def FieldType.Has : FieldType → Json.Tree α → Prop
  | .text, t => ∃ s, t = .string s
  | .number, t => ∃ n, t = .number n
  | .weight, t => ∃ weight : FontWeight, t = .string weight.name
  | .flag, t => ∃ b, t = .bool b

/-- The fields of a kind's body with their types, in the order they are written. -/
def Kind.bodyFields : Kind → List (String × FieldType)
  | .text => [("content", .text), ("fontSize", .number), ("fontWeight", .weight),
      ("fontFamily", .text)]
  | .qrcode => [("content", .text), ("width", .number), ("height", .number),
      ("showBorder", .flag), ("padding", .number)]
  | .barcode => [("content", .text), ("width", .number), ("height", .number)]
  | .box => [("width", .number), ("height", .number), ("strokeWidth", .number)]

/-- The fields of a kind with their types, in the order they are written. -/
def Kind.fields (kind : Kind) : List (String × FieldType) :=
  ("id", .text) :: ("x", .number) :: ("y", .number) :: kind.bodyFields

theorem Kind.names_fields (kind : Kind) : kind.fields.map Prod.fst = kind.fieldNames := by
  cases kind <;> rfl

namespace Element

/-- The members of an object that describes an element: none of them repeats, they have the type and
the fields of a kind, and whatever else there is says something. -/
structure Describes (kind : Kind) (members : List (String × Json.Tree α)) : Prop where
  distinct : (members.map Prod.fst).Nodup
  type : members.lookup "type" = some (.string kind.name)
  fields : ∀ field ∈ kind.fields, ∀ t, members.lookup field.1 = some t → field.2.Has t
  others : ∀ m ∈ members, m.1 ∉ "type" :: kind.fieldNames → ∃ v, m.2.literalValue? = some v

variable [Scalar α]

/-- A field as it is written: numbers are scalars there. -/
def asWritten : Json.Tree α → Json.Tree α
  | .number n => scalarTree n.toScalar
  | t => t

/-- An element that keeps what members say. It is written with the type and the fields of the kind,
which are as they were given or have their defaults, and with what the other members say. -/
structure Keeps (kind : Kind) (members : List (String × Json.Tree α)) (e : Element α) : Prop where
  kind_eq : e.kind = kind
  distinct : (e.members.map Prod.fst).Nodup
  type : e.members.lookup "type" = some (.string kind.name)
  fields : ∀ name ∈ kind.fieldNames, e.members.lookup name =
    ((members.lookup name).map asWritten).or ((default kind : Element α).members.lookup name)
  others : ∀ name ∉ "type" :: kind.fieldNames, e.members.lookup name =
    ((members.lookup name).bind Json.Tree.literalValue?).map Json.Tree.ofValue

/-- An object is read as an element that keeps what it says, and this element, written down and read
again, is written down the same. -/
def Kept [NumberText α] (kind : Kind) (members : List (String × Json.Tree α)) : Prop :=
  ∃ e, ofTree? (.object members) = some e ∧ Keeps kind members e ∧
    ∃ e', ofTree? e.toTree = some e' ∧ e'.toTree = e.toTree

/-! ### Fields -/

section
variable {members : List (String × Json.Tree α)} {name : String}

theorem exists_orDefault? {β : Type} {read : Json.Tree α → Option β} (write : β → Json.Tree α)
    {field : Option (Json.Tree α)}
    (h : ∀ t, field = some t → ∃ b, read t = some b ∧ write b = asWritten t) (default : β) :
    ∃ b, Json.Tree.orDefault? default read field = some b ∧
      some (write b) = (field.map asWritten).or (some (write default)) := by
  cases field with
  | none => exact ⟨default, rfl, rfl⟩
  | some t =>
    obtain ⟨b, hread, hwrite⟩ := h t rfl
    exact ⟨b, hread, congrArg some hwrite⟩

theorem exists_scalarField? (h : ∀ t, members.lookup name = some t → FieldType.number.Has t)
    (default : α) : ∃ x, scalarField? ⟨members⟩ name default = some x ∧
      some (scalarTree x) =
        ((members.lookup name).map asWritten).or (some (scalarTree default)) := by
  refine exists_orDefault? scalarTree (fun t ht => ?_) default
  obtain ⟨n, rfl⟩ := h t ht
  exact ⟨n.toScalar, rfl, rfl⟩

theorem exists_stringField? (h : ∀ t, members.lookup name = some t → FieldType.text.Has t)
    (default : String) : ∃ s, stringField? ⟨members⟩ name default = some s ∧
      some (.string s) = ((members.lookup name).map asWritten).or (some (.string default)) := by
  refine exists_orDefault? .string (fun t ht => ?_) default
  obtain ⟨s, rfl⟩ := h t ht
  exact ⟨s, rfl, rfl⟩

theorem exists_weightField? (h : ∀ t, members.lookup name = some t → FieldType.weight.Has t)
    (default : FontWeight) : ∃ weight, Json.Tree.orDefault? default
        (Json.Tree.choice? isUnit FontWeight.choices) (members.lookup name) = some weight ∧
      some (.string weight.name) =
        ((members.lookup name).map asWritten).or (some (.string default.name)) := by
  refine exists_orDefault? (fun weight => (.string weight.name : Json.Tree α))
    (fun t ht => ?_) default
  obtain ⟨weight, rfl⟩ := h t ht
  exact ⟨weight, by cases weight <;> rfl, rfl⟩

theorem exists_flagField? (h : ∀ t, members.lookup name = some t → FieldType.flag.Has t)
    (default : Bool) : ∃ b, Json.Tree.orDefault? default Json.Tree.bool? (members.lookup name) =
        some b ∧
      some (.bool b) = ((members.lookup name).map asWritten).or (some (.bool default)) := by
  refine exists_orDefault? .bool (fun t ht => ?_) default
  obtain ⟨b, rfl⟩ := h t ht
  exact ⟨b, rfl, rfl⟩

end

variable {kind : Kind} {members : List (String × Json.Tree α)}

/-- The fields of the body are read, and whatever has this body is written with them. -/
theorem exists_body (h : ∀ field ∈ kind.bodyFields, ∀ t, members.lookup field.1 = some t →
    field.2.Has t) : ∃ body, bodyOfFields? ⟨members⟩ (Body.default kind : Body α) = some body ∧
      ∀ e : Element α, e.body = body → ∀ field ∈ kind.bodyFields, e.members.lookup field.1 =
        ((members.lookup field.1).map asWritten).or
          ((default kind : Element α).members.lookup field.1) := by
  cases kind with
  | text =>
    simp only [Kind.bodyFields, List.forall_mem_cons] at h
    obtain ⟨hcontent, hsize, hweight, hfamily, -⟩ := h
    obtain ⟨content, hcontent, hcontent'⟩ := exists_stringField? hcontent ""
    obtain ⟨fontSize, hsize, hsize'⟩ := exists_scalarField? hsize (Scalar.ofNat 12)
    obtain ⟨fontWeight, hweight, hweight'⟩ := exists_weightField? hweight .normal
    obtain ⟨fontFamily, hfamily, hfamily'⟩ := exists_stringField? hfamily Font.defaultFamily
    refine ⟨.text ⟨content, fontSize, fontWeight, fontFamily⟩, ?_, ?_⟩
    · simp only [Body.default, bodyOfFields?, hcontent, hsize, hfamily, Json.Tree.Fields.get?,
        hweight]
      rfl
    · rintro ⟨id, x, y, _, extra⟩ rfl
      simp only [Kind.bodyFields, List.forall_mem_cons]
      exact ⟨hcontent', hsize', hweight', hfamily', List.forall_mem_nil _⟩
  | qrcode =>
    simp only [Kind.bodyFields, List.forall_mem_cons] at h
    obtain ⟨hcontent, hwidth, hheight, hborder, hpadding, -⟩ := h
    obtain ⟨content, hcontent, hcontent'⟩ := exists_stringField? hcontent ""
    obtain ⟨width, hwidth, hwidth'⟩ := exists_scalarField? hwidth (Scalar.ofNat 15)
    obtain ⟨height, hheight, hheight'⟩ := exists_scalarField? hheight (Scalar.ofNat 15)
    obtain ⟨showBorder, hborder, hborder'⟩ := exists_flagField? hborder true
    obtain ⟨padding, hpadding, hpadding'⟩ := exists_scalarField? hpadding Scalar.one
    refine ⟨.qrcode ⟨content, width, height, showBorder, padding⟩, ?_, ?_⟩
    · simp only [Body.default, bodyOfFields?, hcontent, hwidth, hheight, Json.Tree.Fields.get?,
        hborder, hpadding]
      rfl
    · rintro ⟨id, x, y, _, extra⟩ rfl
      simp only [Kind.bodyFields, List.forall_mem_cons]
      exact ⟨hcontent', hwidth', hheight', hborder', hpadding', List.forall_mem_nil _⟩
  | barcode =>
    simp only [Kind.bodyFields, List.forall_mem_cons] at h
    obtain ⟨hcontent, hwidth, hheight, -⟩ := h
    obtain ⟨content, hcontent, hcontent'⟩ := exists_stringField? hcontent ""
    obtain ⟨width, hwidth, hwidth'⟩ := exists_scalarField? hwidth (Scalar.ofNat 40)
    obtain ⟨height, hheight, hheight'⟩ := exists_scalarField? hheight (Scalar.ofNat 10)
    refine ⟨.barcode ⟨content, width, height⟩, ?_, ?_⟩
    · simp only [Body.default, bodyOfFields?, hcontent, hwidth, hheight]
      rfl
    · rintro ⟨id, x, y, _, extra⟩ rfl
      simp only [Kind.bodyFields, List.forall_mem_cons]
      exact ⟨hcontent', hwidth', hheight', List.forall_mem_nil _⟩
  | box =>
    simp only [Kind.bodyFields, List.forall_mem_cons] at h
    obtain ⟨hwidth, hheight, hstroke, -⟩ := h
    obtain ⟨width, hwidth, hwidth'⟩ := exists_scalarField? hwidth (Scalar.ofNat 20)
    obtain ⟨height, hheight, hheight'⟩ := exists_scalarField? hheight (Scalar.ofNat 10)
    obtain ⟨strokeWidth, hstroke, hstroke'⟩ :=
      exists_scalarField? hstroke (Scalar.half Scalar.one)
    refine ⟨.box ⟨width, height, strokeWidth⟩, ?_, ?_⟩
    · simp only [Body.default, bodyOfFields?, hwidth, hheight, hstroke]
      rfl
    · rintro ⟨id, x, y, _, extra⟩ rfl
      simp only [Kind.bodyFields, List.forall_mem_cons]
      exact ⟨hwidth', hheight', hstroke', List.forall_mem_nil _⟩

/-! ### Other members -/

omit [Scalar α] in
/-- A member that an element does not know is written down if there is one. -/
theorem lookup_members {e : Element α} {name : String}
    (h : name ∉ "type" :: e.kind.fieldNames) :
    e.members.lookup name = (e.extra.get? name).map Json.Tree.ofValue := by
  have hknown : e.fieldMembers.lookup name = none := by
    rw [List.lookup_eq_none_iff]
    intro m hm
    rw [bne_iff_ne]
    rintro rfl
    exact h (e.keys_fieldMembers ▸ List.mem_map_of_mem hm)
  rw [members_eq, List.lookup_append, hknown, Option.none_or, Json.Tree.lookup_ofMemberValues,
    StringMap.get?, lookup_eq_find?]

variable [NumberText α]

omit [Scalar α] in
/-- The other members are those that a kind does not know, with their values. -/
theorem rel_extra {extra : StringMap (Json α)} (hdistinct : (members.map Prod.fst).Nodup)
    (h : extraOfMembers? kind members = some extra) {name : String}
    (hname : name ∉ "type" :: kind.fieldNames) :
    Option.Rel (fun t v => t.value? = some v) (members.lookup name) (extra.get? name) := by
  obtain ⟨values, hvalues, rfl⟩ := Option.map_eq_some_iff.mp h
  have hkeys := Json.Tree.keys_of_mapM hvalues
  have hsub : ((members.filter fun e => !("type" :: kind.fieldNames).contains e.1).map
      Prod.fst).Nodup := hdistinct.sublist (List.filter_sublist.map _)
  rw [StringMap.get?_ofList (hkeys ▸ hsub)]
  have hunknown : (!("type" :: kind.fieldNames).contains name) = true := by
    rw [Bool.not_eq_true', Bool.eq_false_iff, ne_eq, List.contains_iff_mem]
    exact hname
  have hlookup := lookup_filter (fun k => !("type" :: kind.fieldNames).contains k) members name
  rw [if_pos hunknown] at hlookup
  rw [← hlookup]
  refine rel_lookup ((mapM_eq_some_iff.mp hvalues).imp fun e e' he => ?_) name
  obtain ⟨v, hv, rfl⟩ := Option.map_eq_some_iff.mp he
  exact ⟨rfl, hv⟩

omit [Scalar α] in
/-- What a member stands for comes from the object. -/
theorem exists_member_of_extra {extra : StringMap (Json α)}
    (h : extraOfMembers? kind members = some extra) {m : String × Json α} (hm : m ∈ extra.toList) :
    ∃ t, (m.1, t) ∈ members ∧ m.1 ∉ "type" :: kind.fieldNames ∧ t.value? = some m.2 := by
  obtain ⟨values, hvalues, rfl⟩ := Option.map_eq_some_iff.mp h
  rw [StringMap.toList_ofList] at hm
  obtain ⟨e, he, hread⟩ := exists_of_mem_mapM hvalues (mem_of_mem_inKeyOrder hm)
  obtain ⟨v, hv, rfl⟩ := Option.map_eq_some_iff.mp hread
  obtain ⟨hmem, hunknown⟩ := List.mem_filter.mp he
  exact ⟨e.2, hmem, by simpa using hunknown, hv⟩

/-- An element is read from an object with the type and the fields of a kind, if the other members
are. -/
theorem exists_element (h : Describes kind members) {extra : StringMap (Json α)}
    (hextra : extraOfMembers? kind members = some extra) :
    ∃ e : Element α, ofTree? (.object members) = some e ∧ e.kind = kind ∧ e.extra = extra ∧
      ∀ name ∈ kind.fieldNames, e.members.lookup name =
        ((members.lookup name).map asWritten).or
          ((default kind : Element α).members.lookup name) := by
  have hfields := h.fields
  rw [Kind.fields, List.forall_mem_cons, List.forall_mem_cons, List.forall_mem_cons] at hfields
  obtain ⟨hid, hx, hy, hbody⟩ := hfields
  obtain ⟨id, hid, hid'⟩ := exists_stringField? hid ""
  obtain ⟨x, hx, hx'⟩ := exists_scalarField? hx Scalar.zero
  obtain ⟨y, hy, hy'⟩ := exists_scalarField? hy Scalar.zero
  obtain ⟨body, hbody, hbody'⟩ := exists_body hbody
  have hkind : body.kind = kind := (kind_of_bodyOfFields? hbody).trans (kind_default kind)
  have hchoice : Kind.choices.lookup kind.name = some kind := by cases kind <;> rfl
  refine ⟨⟨id, x, y, body, extra⟩, ?_, hkind, rfl, ?_⟩
  · simp only [ofTree?, h.type, Json.Tree.string?, Option.bind_eq_bind, Option.bind_some, hchoice,
      ofMembers?, Json.Tree.fields?_object h.distinct, hid, hx, hy, hbody, hextra]
    rfl
  · rw [← Kind.names_fields, List.forall_mem_map, Kind.fields, List.forall_mem_cons,
      List.forall_mem_cons, List.forall_mem_cons]
    exact ⟨hid', hx', hy', hbody' _ rfl⟩

/-- The other members of an object of a kind are those of the element. -/
theorem extraOfMembers?_of_ofTree? {e : Element α}
    (htype : members.lookup "type" = some (.string kind.name))
    (h : ofTree? (.object members) = some e) : extraOfMembers? kind members = some e.extra := by
  have hchoice : Kind.choices.lookup kind.name = some kind := by cases kind <;> rfl
  simp only [ofTree?, htype, Json.Tree.string?, Option.bind_eq_bind, Option.bind_some, hchoice] at h
  exact extraOfMembers?_of_ofMembers? h

/-! ### Nothing embedded -/

/-- No object in the other members begins with the reserved name, neither as they are given nor in
key order. -/
def NothingEmbedded (kind : Kind) (members : List (String × Json.Tree α)) : Prop :=
  ∀ m ∈ members, m.1 ∉ "type" :: kind.fieldNames →
    m.2.Plain ∧ ∀ v, m.2.literalValue? = some v → (Json.Tree.ofValue v).Plain

section

omit [Scalar α]

/-- The other members stand for what they say. -/
theorem NothingEmbedded.value?_eq (hnothing : NothingEmbedded kind members)
    {m : String × Json.Tree α} (hm : m ∈ members) (hname : m.1 ∉ "type" :: kind.fieldNames) :
    m.2.value? = m.2.literalValue? :=
  Json.Tree.valueWith?_of_plain Json.parse? (hnothing m hm hname).1

theorem NothingEmbedded.exists_extra (hnothing : NothingEmbedded kind members)
    (h : Describes kind members) : ∃ extra, extraOfMembers? kind members = some extra := by
  have hvalues : ∃ values,
      (members.filter fun e => !("type" :: kind.fieldNames).contains e.1).mapM
        (Json.Tree.memberValue? Json.parse?) = some values := by
    refine Json.Tree.exists_mapM fun m hm => ?_
    obtain ⟨hmem, hunknown⟩ := List.mem_filter.mp hm
    have hname : m.1 ∉ "type" :: kind.fieldNames := by simpa using hunknown
    obtain ⟨v, hv⟩ := h.others m hmem hname
    exact ⟨(m.1, v), congrArg (Option.map _) ((hnothing.value?_eq hmem hname).trans hv)⟩
  obtain ⟨values, hvalues⟩ := hvalues
  exact ⟨.ofList values, congrArg (Option.map StringMap.ofList) hvalues⟩

theorem NothingEmbedded.get?_extra (hnothing : NothingEmbedded kind members)
    (hdistinct : (members.map Prod.fst).Nodup) {extra : StringMap (Json α)}
    (hextra : extraOfMembers? kind members = some extra) {name : String}
    (hname : name ∉ "type" :: kind.fieldNames) :
    extra.get? name = (members.lookup name).bind Json.Tree.literalValue? := by
  have hrel := rel_extra hdistinct hextra hname
  cases ht : members.lookup name with
  | none =>
    rw [ht] at hrel
    generalize extra.get? name = v at hrel
    cases hrel
    rfl
  | some t =>
    have hmem := (lookup_eq_some_iff_mem hdistinct).mp ht
    rw [ht] at hrel
    rw [Option.bind_some, ← hnothing.value?_eq hmem hname]
    generalize extra.get? name = v at hrel
    cases hrel with
    | some hv => exact hv.symm

/-- The values of the other members are read back. -/
theorem NothingEmbedded.plain_extra (hnothing : NothingEmbedded kind members)
    {extra : StringMap (Json α)} (hextra : extraOfMembers? kind members = some extra)
    {m : String × Json α} (hm : m ∈ extra.toList) :
    (Json.Tree.ofValue m.2).Plain ∧ (Json.Tree.ofValue m.2).Ordered := by
  obtain ⟨t, hmem, hname, hv⟩ := exists_member_of_extra hextra hm
  have hsaid := (hnothing.value?_eq hmem hname).symm.trans hv
  exact ⟨(hnothing _ hmem hname).2 m.2 hsaid, Json.Tree.ordered_of_value? hv⟩

end

theorem NothingEmbedded.kept (hnothing : NothingEmbedded kind members)
    (h : Describes kind members) : Kept kind members := by
  obtain ⟨extra, hextra⟩ := hnothing.exists_extra h
  obtain ⟨e, hread, hkind, rfl, hfields⟩ := exists_element h hextra
  have hproper : e.Proper := proper_of_ofTree? hread
  refine ⟨e, hread, ⟨hkind, hproper.nodup, hkind ▸ rfl, hfields, fun name hname => ?_⟩, e, ?_, rfl⟩
  · rw [lookup_members (hkind ▸ hname), hnothing.get?_extra h.distinct hextra hname]
  · exact ofTree?_toTree hproper (fun m hm => (hnothing.plain_extra hextra hm).1)
      fun m hm => (hnothing.plain_extra hextra hm).2

/-! ### Elements that keep everything -/

/-- A member that is kept stands for what it says, and it can be read again only if no object in
this begins with the reserved name. -/
theorem value?_of_kept (hdistinct : (members.map Prod.fst).Nodup)
    (htype : members.lookup "type" = some (.string kind.name)) (h : Kept kind members)
    {m : String × Json.Tree α} (hm : m ∈ members) (hname : m.1 ∉ "type" :: kind.fieldNames)
    {v : Json α} (hv : m.2.literalValue? = some v) :
    m.2.value? = some v ∧ (Json.Tree.ofValue v).Plain := by
  obtain ⟨e, hread, hkeeps, e', hread', -⟩ := h
  have hfound : members.lookup m.1 = some m.2 := (lookup_eq_some_iff_mem hdistinct).mpr hm
  have hwritten := hkeeps.others m.1 hname
  rw [hfound, Option.bind_some, hv, Option.map_some] at hwritten
  -- the element has a value under the name, which is written down as what the member says
  have hrel := rel_extra hdistinct (extraOfMembers?_of_ofTree? htype hread) hname
  rw [hfound] at hrel
  have hsame := hwritten
  rw [lookup_members (hkeeps.kind_eq ▸ hname)] at hsame
  obtain ⟨w, hw, hwv⟩ := Option.map_eq_some_iff.mp hsame
  rw [hw] at hrel
  cases hrel with
  | some hvalue =>
    obtain rfl := Json.Tree.eq_of_ofValue_eq hwv (Json.Tree.ordered_of_value? hvalue)
    refine ⟨hvalue, ?_⟩
    -- what is written is read once more, so that it holds no embedded text
    have hrel' := rel_extra hkeeps.distinct (extraOfMembers?_of_ofTree? hkeeps.type hread') hname
    rw [hwritten] at hrel'
    generalize e'.extra.get? m.1 = again at hrel'
    cases hrel' with
    | some hagain =>
      exact Json.Tree.plain_of_unwrapped hagain (Json.Tree.unwrapped_of_value? hvalue)

/-- **An element keeps what its object says** as long as nothing is embedded in the other members;
where no member of an object in them repeats, only then. -/
theorem members_kept (h : Describes kind members) :
    (NothingEmbedded kind members → Kept kind members) ∧
      ((∀ m ∈ members, m.2.AllParts Json.Tree.Distinct) → Kept kind members →
        NothingEmbedded kind members) := by
  refine ⟨fun hnothing => hnothing.kept h, fun hdistinct hkept m hm hname => ?_⟩
  obtain ⟨v, hv⟩ := h.others m hm hname
  obtain ⟨hvalue, hplain⟩ := value?_of_kept h.distinct h.type hkept hm hname hv
  refine ⟨Json.Tree.plain_of_literalValue? (hdistinct m hm) hv hvalue hplain, fun w hw => ?_⟩
  obtain rfl := Option.some.inj (hv.symm.trans hw)
  exact hplain

/-- A barcode with a width of its own, the field of another kind and two members that no kind knows.
-/
def rotatedBarcode : List (String × Json.Tree Rat) :=
  [("meta", .object [("k", .string "v"), ("a", .array [.null, .number (.float (1 / 2))])]),
    ("type", .string "barcode"), ("width", .number (.integer 30)),
    ("fontSize", .number (.integer 8)), ("rotation", .number (.integer 90))]

theorem rotated_barcode_kept :
    Describes .barcode rotatedBarcode ∧ Kept .barcode rotatedBarcode := by
  have hdescribes : Describes .barcode rotatedBarcode := by
    refine ⟨by decide, rfl, ?_, ?_⟩
    · simp only [Kind.fields, Kind.bodyFields, List.forall_mem_cons]
      refine ⟨nofun, nofun, nofun, nofun, ?_, nofun, nofun⟩
      rintro t ht
      obtain rfl := Option.some.inj ht
      exact ⟨.integer 30, rfl⟩
    · simp only [rotatedBarcode, List.forall_mem_cons]
      exact ⟨fun _ => ⟨_, rfl⟩, fun h => absurd h (by decide), fun h => absurd h (by decide),
        fun _ => ⟨_, rfl⟩, fun _ => ⟨_, rfl⟩, nofun⟩
  refine ⟨hdescribes, (members_kept hdescribes).1 ?_⟩
  have hplain : ∀ m ∈ rotatedBarcode, m.2.Plain ∧
      ∀ v ∈ m.2.literalValue?, (Json.Tree.ofValue v).Plain := by decide
  exact fun m hm _ => hplain m hm

/-- A box with a member that embeds a text. -/
def embeddingBox : List (String × Json.Tree Rat) :=
  [("type", .string "box"), ("note", .object [(Json.embeddedName, .string "[1]")])]

/-- An object that has just the reserved name is taken for the text in it. -/
theorem embedding_note_not_kept :
    Describes .box embeddingBox ∧ ¬ Kept .box embeddingBox := by
  have hdescribes : Describes .box embeddingBox := by
    refine ⟨by decide, rfl, ?_, ?_⟩
    · simp only [Kind.fields, Kind.bodyFields, List.forall_mem_cons]
      exact ⟨nofun, nofun, nofun, nofun, nofun, nofun, nofun⟩
    · simp only [embeddingBox, List.forall_mem_cons]
      exact ⟨fun h => absurd h (by decide), fun _ => ⟨_, rfl⟩, nofun⟩
  refine ⟨hdescribes, fun hkept => ?_⟩
  have hmem : ("note", .object [(Json.embeddedName, .string "[1]")]) ∈ embeddingBox :=
    List.mem_cons_of_mem _ List.mem_cons_self
  have hnote : (.object [(Json.embeddedName, .string "[1]")] : Json.Tree Rat).literalValue? =
      some (.object [(Json.embeddedName, .string "[1]")]) := rfl
  obtain ⟨-, hplain⟩ :=
    value?_of_kept hdescribes.distinct hdescribes.type hkept hmem (by decide) hnote
  exact absurd hplain (by decide)

end Element

end ThermalLabel

import ThermalLabel.Decimal.Exact
import ThermalLabel.Document.Template
import ThermalLabel.Proofs.Json.Embedded
import ThermalLabel.Proofs.Json.Printed

/-! # Texts that are templates

A text is a template if its value is an object with a label size that can be read and with an array
of elements (`Template.MadeOf`). Entries that are no elements are left out, and version, timestamp
and unknown members have no say. There is one exception: elements, version and timestamp are read as
values first, and an object in them that begins with the reserved name makes that fail
(`Template.Plain`). Nothing else does (`Template.texts_accepted`). -/

namespace ThermalLabel

variable {α : Type}

/-- A value is read from its text, if it is as reading leaves values and nothing in it is taken for
an embedded text. -/
theorem Json.parse?_compact [NumberText α] {v : Json α} (hlegible : (Tree.ofValue v).Legible)
    (hdepth : (Tree.ofValue v).depth ≤ maxDepth) (hplain : (Tree.ofValue v).Plain)
    (hordered : (Tree.ofValue v).Ordered) : parse? v.compact = some v := by
  rw [parse?_eq_bind_value?, compact, Tree.parse?_compact hlegible hdepth, Option.bind_some]
  exact Tree.valueWith?_ofValue parse? hplain hordered

theorem mapError_eq_ok {β ε δ : Type} {e : Except ε β} {f : ε → δ} {b : β} :
    e.mapError f = .ok b ↔ e = .ok b := by
  cases e <;> simp [Except.mapError]

variable [Scalar α]

namespace Template

/-- What a template is made of: an object with a label size that can be read and an array. -/
structure MadeOf (v : Json α) (size : LabelSize α) (items : List (Json α)) : Prop where
  isObject : ∃ members, v = .object members
  labelSize : ∃ member, v.member? "labelSize" = some member ∧ member ≠ .null ∧
    LabelSize.ofTree? (Json.Tree.ofValue member) = some size
  elements : v.member? "elements" = some (.array items)

/-- Whether a value is made of the parts of a template. -/
def hasParts (v : Json α) : Bool :=
  ((v.member? "labelSize").bind fun member =>
    LabelSize.ofTree? (Json.Tree.ofValue member)).isSome &&
  (v.member? "elements").any fun
    | .array _ => true
    | _ => false

/-- A member that is left out or in which no object begins with the reserved name. -/
def PlainAt (field : String) (v : Json α) : Prop :=
  ∀ member, v.member? field = some member → (Json.Tree.ofValue member).Plain

/-- A value in which nothing that is read as a value first is taken for an embedded text. -/
structure Plain (v : Json α) : Prop where
  elements : PlainAt "elements" v
  version : PlainAt "version" v
  timestamp : PlainAt "timestamp" v

omit [Scalar α] in
theorem exists_members_of_member? {v member : Json α} {field : String}
    (h : v.member? field = some member) : ∃ members, v = .object members := by
  cases v with
  | object members => exact ⟨members, rfl⟩
  | _ => cases h

theorem hasParts_iff {v : Json α} :
    hasParts v = true ↔ ∃ size items, MadeOf v size items := by
  rw [hasParts, Bool.and_eq_true, Option.isSome_iff_exists, Option.any_eq_true]
  constructor
  · rintro ⟨⟨size, hread⟩, elements, helements, harray⟩
    obtain ⟨member, hmember, hread⟩ := Option.bind_eq_some_iff.mp hread
    have hnull : member ≠ .null := by
      rintro rfl
      cases hread
    cases elements with
    | array items =>
      exact ⟨size, items, exists_members_of_member? helements, ⟨member, hmember, hnull, hread⟩,
        helements⟩
    | _ => cases harray
  · rintro ⟨size, items, -, ⟨member, hmember, -, hread⟩, helements⟩
    exact ⟨⟨size, Option.bind_eq_some_iff.mpr ⟨member, hmember, hread⟩⟩, _, helements, rfl⟩

omit [Scalar α] in
theorem require_eq_ok_iff {v member : Json α} {field : String} :
    require v field = .ok member ↔ v.member? field = some member ∧ member ≠ .null := by
  unfold require
  split
  · next heq => simp [heq]
  · next heq => simp [heq, eq_comm]
  · next found hfound heq =>
    rw [heq, Except.ok.injEq, Option.some.injEq]
    constructor
    · rintro rfl
      exact ⟨rfl, hfound⟩
    · exact And.left

variable [NumberText α]

/-- The element that an entry of the array is, if it can be read. -/
def readElement? (item : Json α) : Option (Element α) := Element.ofTree? (Json.Tree.ofValue item)

/-- The template of an object with these parts. -/
def assembled (v : Json α) (size : LabelSize α) (items : List (Json α)) : Template α where
  labelSize := size
  elements := items.filterMap readElement?
  version := readVersion ((v.member? "version").getD .null)
  timestamp := readTimestamp ((v.member? "timestamp").getD .null)

/-! ### Members that are read as values first -/

theorem readElements?_eq_some_iff {v : Json α} (h : v.Settled) {els : List (Element α)} :
    readElements? v = some els ↔
      ∃ items, v = .array items ∧ (Json.Tree.ofValue v).Plain ∧
        els = items.filterMap readElement? := by
  cases v with
  | array items =>
    rw [readElements?, Option.map_eq_some_iff]
    simp only [Json.mapM_reread?_eq_some_iff, h.reread?_eq_some_iff, Json.array.injEq]
    constructor
    · rintro ⟨again, ⟨hplain, rfl⟩, rfl⟩
      exact ⟨again, rfl, hplain, rfl⟩
    · rintro ⟨_, rfl, hplain, rfl⟩
      exact ⟨items, ⟨hplain, rfl⟩, rfl⟩
  | _ => simp [readElements?]

omit [Scalar α] in
theorem lenient?_eq_some_iff {β : Type} {v : Json α} (h : v.Settled) {field : String}
    {read : Json α → β} {b : β} :
    lenient? v field read = some b ↔
      PlainAt field v ∧ b = read ((v.member? field).getD .null) := by
  unfold lenient? PlainAt
  cases hmember : v.member? field with
  | none => simp [Json.reread?, Json.Tree.ofValue, Json.Tree.value?, Json.Tree.valueWith?, eq_comm]
  | some member =>
    simp only [Option.getD_some, Option.map_eq_some_iff, (h.member hmember).reread?_eq_some_iff,
      Option.some.injEq, forall_eq']
    constructor
    · rintro ⟨_, ⟨hplain, rfl⟩, rfl⟩
      exact ⟨hplain, rfl⟩
    · rintro ⟨hplain, rfl⟩
      exact ⟨member, ⟨hplain, rfl⟩, rfl⟩

/-! ### Acceptance -/

theorem ofParts?_eq_some_iff {v size elements : Json α} {t : Template α} :
    ofParts? v size elements = some t ↔
      LabelSize.ofTree? (Json.Tree.ofValue size) = some t.labelSize ∧
      readElements? elements = some t.elements ∧
      lenient? v "version" readVersion = some t.version ∧
      lenient? v "timestamp" readTimestamp = some t.timestamp := by
  obtain ⟨labelSize, els, version, timestamp⟩ := t
  simp only [ofParts?, Option.bind_eq_bind, Option.bind_eq_some_iff, Option.pure_def,
    Option.some.injEq, mk.injEq]
  constructor
  · rintro ⟨_, hsize, _, hels, _, hversion, _, htimestamp, rfl, rfl, rfl, rfl⟩
    exact ⟨hsize, hels, hversion, htimestamp⟩
  · rintro ⟨hsize, hels, hversion, htimestamp⟩
    exact ⟨_, hsize, _, hels, _, hversion, _, htimestamp, rfl, rfl, rfl, rfl⟩

/-- An object is taken apart member by member. -/
theorem ofValue_object (members : List (String × Json α)) :
    ofValue (.object members) = (require (.object members) "labelSize").bind fun size =>
      (require (.object members) "elements").bind fun elements =>
        (ofParts? (.object members) size elements).elim (.error .unreadable) .ok := by
  show Except.bind _ (fun size => Except.bind _ fun elements => _) = _
  congr 1
  funext size
  congr 1
  funext elements
  cases ofParts? (.object members) size elements <;> rfl

theorem ofValue_eq_ok_iff_exists {v : Json α} {t : Template α} :
    ofValue v = .ok t ↔ (∃ members, v = .object members) ∧
      ∃ size elements, require v "labelSize" = .ok size ∧ require v "elements" = .ok elements ∧
        ofParts? v size elements = some t := by
  cases v with
  | object members =>
    rw [ofValue_object]
    generalize require (.object members) "labelSize" = size
    generalize require (.object members) "elements" = elements
    cases size with
    | error => simp [Except.bind]
    | ok size =>
      cases elements with
      | error => simp [Except.bind]
      | ok elements =>
        simp only [Except.bind]
        cases hparts : ofParts? (.object members) size elements <;> simp [hparts]
  | _ => simp [ofValue]

/-- **When a value is a template**, and which one it is then. -/
theorem ofValue_eq_ok_iff {v : Json α} (h : v.Settled) {t : Template α} :
    ofValue v = .ok t ↔
      ∃ size items, MadeOf v size items ∧ Plain v ∧ t = assembled v size items := by
  simp only [ofValue_eq_ok_iff_exists, require_eq_ok_iff, ofParts?_eq_some_iff,
    lenient?_eq_some_iff h]
  constructor
  · rintro ⟨hobject, size, elements, hsize, ⟨helements, -⟩, hread, hels, hversion, htimestamp⟩
    obtain ⟨items, rfl, hplain, hfound⟩ :=
      (readElements?_eq_some_iff (h.member helements)).mp hels
    refine ⟨t.labelSize, items, ⟨hobject, ⟨size, hsize.1, hsize.2, hread⟩, helements⟩,
      ⟨?_, hversion.1, htimestamp.1⟩, ?_⟩
    · intro member hmember
      rwa [← Option.some.inj (helements.symm.trans hmember)]
    · obtain ⟨labelSize, els, version, timestamp⟩ := t
      rw [assembled, mk.injEq]
      exact ⟨rfl, hfound, hversion.2, htimestamp.2⟩
  · rintro ⟨size, items, ⟨hobject, ⟨member, hmember, hnull, hread⟩, helements⟩,
      ⟨hplain, hversion, htimestamp⟩, rfl⟩
    exact ⟨hobject, member, _, ⟨hmember, hnull⟩, ⟨helements, nofun⟩, hread,
      (readElements?_eq_some_iff (h.member helements)).mpr ⟨items, rfl, hplain _ helements, rfl⟩,
      ⟨hversion, rfl⟩, htimestamp, rfl⟩

theorem parse_eq_ok_iff_madeOf {text : String} {t : Template α} :
    parse text = .ok t ↔ ∃ v size items, Json.parse? text = some v ∧ MadeOf v size items ∧
      Plain v ∧ t = assembled v size items := by
  unfold parse
  cases hv : (Json.parse? text : Option (Json α)) with
  | none => simp
  | some v =>
    simp only [mapError_eq_ok, ofValue_eq_ok_iff (Json.settled_of_parse? hv), Option.some.injEq]
    exact ⟨fun ⟨size, items, h⟩ => ⟨v, size, items, rfl, h⟩,
      fun ⟨_, size, items, hsame, h⟩ => ⟨size, items, hsame ▸ h⟩⟩

/-! ### What has no say -/

/-- An entry that cannot be read may as well not be there. -/
theorem readElements?_of_unreadable {before after : List (Json α)} {item : Json α}
    (h : (Json.array (before ++ item :: after)).Settled)
    (h' : (Json.array (before ++ after)).Settled) (hitem : readElement? item = none)
    (hplain : (Json.Tree.ofValue item).Plain) :
    readElements? (.array (before ++ item :: after)) =
      readElements? (.array (before ++ after)) := by
  refine Option.ext fun els => ?_
  rw [readElements?_eq_some_iff h, readElements?_eq_some_iff h']
  simp [Json.Tree.plain_ofValue_array, hitem, hplain, or_imp, forall_and]

theorem ofValue_of_elements {v : Json α} {items : List (Json α)}
    (h : v.member? "elements" = some (.array items)) :
    ofValue v = (require v "labelSize").bind fun size =>
      (ofParts? v size (.array items)).elim (.error .unreadable) .ok := by
  obtain ⟨members, rfl⟩ := exists_members_of_member? h
  rw [ofValue_object, require_eq_ok_iff.mpr ⟨h, nofun⟩]
  rfl

/-- **An entry that cannot be read may as well not be there**, and the answer is the same, an error
included. -/
theorem parse_eq_of_unreadable {text text' : String} {v v' : Json α}
    (hv : Json.parse? text = some v) (hv' : Json.parse? text' = some v')
    (hsame : ∀ field ∈ ["labelSize", "version", "timestamp"], v.member? field = v'.member? field)
    {before after : List (Json α)} {item : Json α}
    (helements : v.member? "elements" = some (.array (before ++ item :: after)))
    (helements' : v'.member? "elements" = some (.array (before ++ after)))
    (hitem : readElement? item = none) (hplain : (Json.Tree.ofValue item).Plain) :
    (parse text : Except Error (Template α)) = parse text' := by
  have hread := readElements?_of_unreadable
    ((Json.settled_of_parse? hv).member helements) ((Json.settled_of_parse? hv').member helements')
    hitem hplain
  have hparts (size : Json α) : ofParts? v size (.array (before ++ item :: after)) =
      ofParts? v' size (.array (before ++ after)) := by
    simp only [ofParts?, lenient?, hread, hsame "version" (by simp), hsame "timestamp" (by simp)]
  have hrequire : require v "labelSize" = require v' "labelSize" := by
    rw [require, require, hsame "labelSize" (by simp)]
  simp only [parse, hv, hv', ofValue_of_elements helements, ofValue_of_elements helements',
    hrequire, hparts]

/-- The label size and the elements of a text that is a template. -/
def sizeAndElements? (text : String) : Option (LabelSize α × List (Element α)) :=
  (parse text).toOption.map fun t => (t.labelSize, t.elements)

theorem sizeAndElements?_eq_some_iff {text : String} {v : Json α} (hv : Json.parse? text = some v)
    {size : LabelSize α} {els : List (Element α)} :
    sizeAndElements? text = some (size, els) ↔
      ∃ items, MadeOf v size items ∧ Plain v ∧ els = items.filterMap readElement? := by
  have hparse (t : Template α) : parse text = .ok t ↔
      ∃ size items, MadeOf v size items ∧ Plain v ∧ t = assembled v size items := by
    rw [parse_eq_ok_iff_madeOf]
    simp [hv]
  have hread : sizeAndElements? text = some (size, els) ↔
      ∃ t, parse text = .ok t ∧ t.labelSize = size ∧ t.elements = els := by
    unfold sizeAndElements?
    cases (parse text : Except Error (Template α)) <;> simp [Except.toOption]
  rw [hread]
  constructor
  · rintro ⟨t, ht, rfl, rfl⟩
    obtain ⟨size, items, hmade, hplain, rfl⟩ := (hparse t).mp ht
    exact ⟨items, hmade, hplain, rfl⟩
  · rintro ⟨items, hmade, hplain, rfl⟩
    exact ⟨_, (hparse _).mpr ⟨size, items, hmade, hplain, rfl⟩, rfl, rfl⟩

omit [NumberText α] in
theorem MadeOf.congr {v v' : Json α} {size : LabelSize α} {items : List (Json α)}
    (h : MadeOf v size items)
    (hsame : ∀ field ∈ ["labelSize", "elements"], v.member? field = v'.member? field) :
    MadeOf v' size items := by
  have helements := (hsame "elements" (by simp)).symm.trans h.elements
  exact ⟨exists_members_of_member? helements, hsame "labelSize" (by simp) ▸ h.labelSize, helements⟩

/-- **Label size and elements are all that counts.** -/
theorem sizeAndElements?_congr {text text' : String} {v v' : Json α}
    (hv : Json.parse? text = some v) (hv' : Json.parse? text' = some v')
    (hsame : ∀ field ∈ ["labelSize", "elements"], v.member? field = v'.member? field)
    (hplain : ∀ field ∈ ["version", "timestamp"], PlainAt field v ∧ PlainAt field v') :
    (sizeAndElements? text : Option (LabelSize α × List (Element α))) = sizeAndElements? text' := by
  have hmade (size : LabelSize α) (items : List (Json α)) :
      MadeOf v size items ↔ MadeOf v' size items :=
    ⟨fun h => h.congr hsame, fun h => h.congr fun field hfield => (hsame field hfield).symm⟩
  have hversion := hplain "version" (by simp)
  have htimestamp := hplain "timestamp" (by simp)
  have hiff : Plain v ↔ Plain v' := by
    have helements : PlainAt "elements" v ↔ PlainAt "elements" v' := by
      rw [PlainAt, PlainAt, hsame "elements" (by simp)]
    exact ⟨fun h => ⟨helements.mp h.elements, hversion.2, htimestamp.2⟩,
      fun h => ⟨helements.mpr h.elements, hversion.1, htimestamp.1⟩⟩
  refine Option.ext fun ⟨size, els⟩ => ?_
  rw [sizeAndElements?_eq_some_iff hv, sizeAndElements?_eq_some_iff hv']
  simp only [hmade, hiff]

/-- **Texts that are templates.** A text is read exactly if its value is an object with a readable
label size and an array of elements, in which nothing that is read as a value first is taken for an
embedded text, and its elements are the readable entries, in order. An entry that cannot be read may
as well not be there. And texts with the same label size and the same elements are read alike,
whatever other members they have. -/
theorem texts_accepted :
    (∀ (text : String) (t : Template α), parse text = .ok t ↔
      ∃ v size items, Json.parse? text = some v ∧ MadeOf v size items ∧ Plain v ∧
        t = assembled v size items) ∧
    (∀ (text text' : String) (v v' : Json α) (before after : List (Json α)) (item : Json α),
      Json.parse? text = some v → Json.parse? text' = some v' →
      (∀ field ∈ ["labelSize", "version", "timestamp"], v.member? field = v'.member? field) →
      v.member? "elements" = some (.array (before ++ item :: after)) →
      v'.member? "elements" = some (.array (before ++ after)) →
      readElement? item = none → (Json.Tree.ofValue item).Plain →
      (parse text : Except Error (Template α)) = parse text') ∧
    ∀ (text text' : String) (v v' : Json α),
      Json.parse? text = some v → Json.parse? text' = some v' →
      (∀ field ∈ ["labelSize", "elements"], v.member? field = v'.member? field) →
      (∀ field ∈ ["version", "timestamp"], PlainAt field v ∧ PlainAt field v') →
      (sizeAndElements? text : Option (LabelSize α × List (Element α))) = sizeAndElements? text' :=
  ⟨fun _ _ => parse_eq_ok_iff_madeOf,
    fun _ _ _ _ _ _ _ hv hv' hsame helements helements' hitem hplain =>
      parse_eq_of_unreadable hv hv' hsame helements helements' hitem hplain,
    fun _ _ _ _ hv hv' hsame hplain => sizeAndElements?_congr hv hv' hsame hplain⟩

/-- A template with these entries and further members. -/
def withEntries (items : List (Json Rat)) (members : List (String × Json Rat)) : Json Rat :=
  .object ([("elements", .array items),
    ("labelSize", .object [("height", .int 30), ("width", .int 50)])] ++ members)

/-- An entry that is a box. -/
def boxEntry : Json Rat := .object [("type", .string "box")]

/-- A box and a number, with a list for a version: the number is left out, and other members make no
difference. -/
theorem number_among_elements_left_out :
    let v := withEntries [boxEntry, .int 7] [("version", .array [.int 1])]
    let shorter := withEntries [boxEntry] [("version", .array [.int 1])]
    let noted := withEntries [boxEntry, .int 7] [("note", .string "a"), ("timestamp", .bool true)]
    (∃ t : Template Rat, parse v.compact = .ok t ∧ t.elements.map Element.kind = [.box] ∧
      t.version = "[1]") ∧
    (parse v.compact : Except Error (Template Rat)) = parse shorter.compact ∧
    (sizeAndElements? v.compact : Option (LabelSize Rat × List (Element Rat))) =
      sizeAndElements? noted.compact := by
  intro v shorter noted
  have hv : Json.parse? v.compact = some v :=
    Json.parse?_compact (by decide +kernel) (by decide +kernel) (by decide +kernel)
      (by decide +kernel)
  have hshorter : Json.parse? shorter.compact = some shorter :=
    Json.parse?_compact (by decide +kernel) (by decide +kernel) (by decide +kernel)
      (by decide +kernel)
  have hnoted : Json.parse? noted.compact = some noted :=
    Json.parse?_compact (by decide +kernel) (by decide +kernel) (by decide +kernel)
      (by decide +kernel)
  have hplain : Plain v := by
    constructor <;> rintro member ⟨⟩ <;> decide +kernel
  obtain ⟨haccepted, hentries, hmembers⟩ := texts_accepted (α := Rat)
  refine ⟨⟨_, (haccepted _ _).mpr ⟨v, ⟨"", 50, 30⟩, [boxEntry, .int 7], hv, ⟨⟨_, rfl⟩, ?_, rfl⟩,
    hplain, rfl⟩, by decide +kernel, by decide +kernel⟩, ?_, ?_⟩
  · exact ⟨_, rfl, nofun, rfl⟩
  · refine hentries _ _ v shorter [boxEntry] [] (.int 7) hv hshorter ?_ rfl rfl rfl (by decide)
    simp only [List.forall_mem_cons]
    exact ⟨rfl, rfl, rfl, nofun⟩
  · refine hmembers _ _ v noted hv hnoted ?_ ?_
    · simp only [List.forall_mem_cons]
      exact ⟨rfl, rfl, nofun⟩
    · simp only [List.forall_mem_cons]
      refine ⟨⟨hplain.version, ?_⟩, ⟨hplain.timestamp, ?_⟩, nofun⟩ <;> rintro member ⟨⟩
      decide +kernel

/-- A template without elements, with a text for a version. -/
def versioned (version : String) : String :=
  "\x7b\"labelSize\":\x7b\"width\":40,\"height\":30\x7d,\"elements\":[],\"version\":" ++ version ++
    "\x7d"

/-- An object in which the reserved name stands behind another one, and comes to the front when the
members are put in order. -/
def disguised : String := "\x7b\"b\":1,\"$serde_json::private::RawValue\":\"[1]\"\x7d"

/-- A text with such a version is not read, although it has all the parts of a template. -/
theorem disguised_version_not_read :
    (∃ v : Json Rat, Json.parse? (versioned disguised) = some v ∧
      ∃ size items, MadeOf v size items) ∧
    (∃ t : Template Rat, parse (versioned "[1]") = .ok t) ∧
    ¬ ∃ t : Template Rat, parse (versioned disguised) = .ok t := by
  have hparts : (Json.parse? (versioned disguised) : Option (Json Rat)).any hasParts = true := by
    decide +kernel
  have hread : (parse (versioned "[1]") : Except Error (Template Rat)).isOk = true := by
    decide +kernel
  have hnot : (parse (versioned disguised) : Except Error (Template Rat)).isOk = false := by
    decide +kernel
  obtain ⟨v, hv, hmade⟩ := (Option.any_eq_true ..).mp hparts
  refine ⟨⟨v, hv, hasParts_iff.mp hmade⟩, ?_, ?_⟩
  · cases h : (parse (versioned "[1]") : Except Error (Template Rat)) with
    | ok t => exact ⟨t, rfl⟩
    | error => rw [h] at hread; cases hread
  · rintro ⟨t, ht⟩
    rw [ht] at hnot
    cases hnot

end Template

end ThermalLabel

import ThermalLabel.Decimal.Exact
import ThermalLabel.Document.Template
import ThermalLabel.Proofs.Element.DistinctIds
import ThermalLabel.Proofs.Element.Record
import ThermalLabel.Proofs.Json.Printed

/-! # Templates read back

A template is printed as a tree and read as a value, from which label size and elements are taken
apart. `reads_back_iff` says which documents come back: those whose elements hold no embedded text
among their unknown members. An object that begins with the reserved name is printed like any other
object, but it is not read as one. -/

namespace ThermalLabel

variable {α : Type}

theorem Json.member?_inKeyOrder {members : List (String × Json α)}
    (h : (members.map Prod.fst).Nodup) (k : String) :
    (Json.object (inKeyOrder members)).member? k = members.lookup k := by
  rw [member?_object]
  exact (lookup_eq_of_perm h (inKeyOrder_perm h).symm k).symm

/-! ### Documents that a text can hold -/

/-- A document in order, with unknown members that have names of their own and are in key order,
and with nothing that cannot be read from a text: every number reads back from its own, and
containers are not nested too deep. -/
structure Document.Portable [Scalar α] [NumberText α] (d : Document α) : Prop where
  size : d.labelSize.isValid = true
  ids : DistinctIds d.ids
  proper : ∀ e ∈ d.elements, e.Proper
  ordered : ∀ e ∈ d.elements, ∀ m ∈ e.extra.toList, (Json.Tree.ofValue m.2).Ordered
  legible : d.toTree.Legible
  depth : d.toTree.depth ≤ Json.maxDepth

instance [Scalar α] [NumberText α] [DecidableEq α] (d : Document α) : Decidable d.Portable :=
  decidable_of_iff
    (d.labelSize.isValid = true ∧ DistinctIds d.ids ∧ (∀ e ∈ d.elements, e.Proper) ∧
      (∀ e ∈ d.elements, ∀ m ∈ e.extra.toList, (Json.Tree.ofValue m.2).Ordered) ∧
      d.toTree.Legible ∧ d.toTree.depth ≤ Json.maxDepth)
    ⟨fun ⟨size, ids, proper, ordered, legible, depth⟩ =>
      ⟨size, ids, proper, ordered, legible, depth⟩,
    fun h => ⟨h.size, h.ids, h.proper, h.ordered, h.legible, h.depth⟩⟩

namespace Template

/-- The values of a template's members, given those of the elements. -/
def entries (d : Document α) (time : Timestamp) (items : List (Json α)) :
    List (String × Json α) :=
  [("labelSize", .object (inKeyOrder d.labelSize.entries)), ("elements", .array items),
    ("version", .string currentVersion), ("timestamp", .string time.text)]

theorem nodup_entries (d : Document α) (time : Timestamp) (items : List (Json α)) :
    ((entries d time items).map Prod.fst).Nodup := by
  show ["labelSize", "elements", "version", "timestamp"].Nodup
  decide

/-! ### From the tree to the template -/

theorem memberValue?_labelSize (embedded? : String → Option (Json α)) (size : LabelSize α) :
    Json.Tree.memberValue? embedded? ("labelSize", size.toTree) =
      some ("labelSize", .object (inKeyOrder size.entries)) := by
  have hleaf : ∀ e ∈ size.entries,
      Json.Tree.valueWith? embedded? (Json.Tree.ofValue e.2) = some e.2 := by
    simp only [LabelSize.entries, List.forall_mem_cons]
    exact ⟨rfl, rfl, rfl, nofun⟩
  rw [Json.Tree.memberValue?, LabelSize.toTree_eq, Json.Tree.valueWith?_object rfl,
    Json.Tree.mapM_memberValue? hleaf]
  rfl

theorem memberValue?_elements (embedded? : String → Option (Json α)) (els : List (Element α)) :
    Json.Tree.memberValue? embedded? ("elements", Document.elementsTree els) =
      (els.mapM fun e => Json.Tree.valueWith? embedded? e.toTree).map fun items =>
        ("elements", .array items) := by
  rw [Json.Tree.memberValue?, Document.elementsTree, Json.Tree.valueWith?_array, List.mapM_map,
    Option.map_map]
  rfl

theorem valueWith?_toTree (embedded? : String → Option (Json α)) (d : Document α)
    (time : Timestamp) :
    (ofDocument d time).toTree.valueWith? embedded? =
      (d.elements.mapM fun e => Json.Tree.valueWith? embedded? e.toTree).map fun items =>
        .object (inKeyOrder (entries d time items)) := by
  have htree : (ofDocument d time).toTree = .object [("labelSize", d.labelSize.toTree),
      ("elements", Document.elementsTree d.elements), ("version", .string currentVersion),
      ("timestamp", .string time.text)] := rfl
  rw [htree, Json.Tree.valueWith?_object rfl, List.mapM_cons, List.mapM_cons,
    memberValue?_labelSize, memberValue?_elements]
  cases d.elements.mapM fun e => Json.Tree.valueWith? embedded? e.toTree <;> rfl

/-- Version and timestamp add nothing to the depth. -/
theorem depth_toTree (d : Document α) (time : Timestamp) :
    (ofDocument d time).toTree.depth = d.toTree.depth := by
  simp [ofDocument, toTree, Document.toTree, Json.Tree.depth, Json.Tree.depth.memberDepth]

variable [Scalar α] [NumberText α]

theorem ofParts?_entries (d : Document α) (time : Timestamp) (items : List (Json α)) :
    ofParts? (.object (inKeyOrder (entries d time items)))
        (.object (inKeyOrder d.labelSize.entries)) (.array items) =
      (items.mapM Json.reread?).map fun values => {
        labelSize := d.labelSize
        elements := values.filterMap fun v => Element.ofTree? (Json.Tree.ofValue v)
        version := currentVersion
        timestamp := Timestamp.parse? time.text } := by
  have hmember := Json.member?_inKeyOrder (nodup_entries d time items)
  have hsize : LabelSize.ofTree?
      (Json.Tree.ofValue (.object (inKeyOrder d.labelSize.entries))) = some d.labelSize := by
    refine d.labelSize.ofTree?_of_perm ?_
    rw [Json.Tree.ofMemberValues_eq_map, Json.Tree.ofMemberValues_eq_map]
    exact (inKeyOrder_perm d.labelSize.nodup_entries).map _
  unfold ofParts? lenient?
  rw [hsize, hmember, hmember, readElements?]
  cases items.mapM Json.reread? <;> rfl

theorem ofValue_entries (d : Document α) (time : Timestamp) (items : List (Json α)) :
    ofValue (.object (inKeyOrder (entries d time items))) =
      match ofParts? (.object (inKeyOrder (entries d time items)))
        (.object (inKeyOrder d.labelSize.entries)) (.array items) with
      | some template => .ok template
      | none => .error .unreadable := by
  have hmember := Json.member?_inKeyOrder (nodup_entries d time items)
  unfold ofValue require
  rw [hmember, hmember]
  rfl

/-! ### From the text to the template -/

theorem legible_toTree {d : Document α} (h : d.Portable) (time : Timestamp) :
    (ofDocument d time).toTree.Legible := by
  have hleaf : ∀ s, (Json.Tree.string s : Json.Tree α).Legible := by
    intro s part hpart
    obtain rfl := List.mem_singleton.mp hpart
    trivial
  have hmembers := (Json.Tree.allParts_object.mp h.legible).2
  rw [List.forall_mem_cons, List.forall_mem_cons] at hmembers
  refine Json.Tree.allParts_object.mpr ⟨trivial, ?_⟩
  simp only [List.forall_mem_cons]
  exact ⟨hmembers.1, hmembers.2.1, hleaf _, hleaf _, fun _ hnil => absurd hnil List.not_mem_nil⟩

theorem parse?_text {d : Document α} (h : d.Portable) (time : Timestamp) :
    Json.Tree.parse? (ofDocument d time).text = some (ofDocument d time).toTree :=
  Json.Tree.parse?_pretty (legible_toTree h time) (depth_toTree d time ▸ h.depth)

/-- A template is read if its elements have values and these can be read again; its elements are
those that can be made of them. -/
theorem parse_text_eq_ok {d : Document α} (h : d.Portable) (time : Timestamp) {t : Template α} :
    parse (ofDocument d time).text = .ok t ↔
      ∃ items values,
        (d.elements.mapM fun e => Json.Tree.valueWith?
          (Json.valueWithin? (ofDocument d time).text.length) e.toTree) = some items ∧
        items.mapM Json.reread? = some values ∧
        t = {
          labelSize := d.labelSize
          elements := values.filterMap fun v => Element.ofTree? (Json.Tree.ofValue v)
          version := currentVersion
          timestamp := Timestamp.parse? time.text } := by
  unfold parse Json.parse? Json.valueWithin?
  rw [parse?_text h, Option.bind_some, valueWith?_toTree]
  cases hitems : d.elements.mapM fun e => Json.Tree.valueWith?
      (Json.valueWithin? (ofDocument d time).text.length) e.toTree with
  | none => simp
  | some items =>
    simp only [Option.map_some, ofValue_entries, ofParts?_entries]
    cases hvalues : items.mapM Json.reread? with
    | none => simp [Except.mapError, hvalues]
    | some values => simp [Except.mapError, hvalues, eq_comm]

/-! ### Which documents come back -/

omit [NumberText α] in
/-- The elements of a document that is read back have the unknown members of those that were read.
-/
theorem extra_of_toDocument {d : Document α} {t : Template α} {supply : IdSupply}
    (h : (t.toDocument supply).1 = d) {e : Element α} (he : e ∈ d.elements) :
    ∃ e' ∈ t.elements, e'.extra = e.extra := by
  have hels : (Sequence.repairIds StringMap.empty t.elements supply).1 = d.elements :=
    congrArg Document.elements h
  have hmem : e.extra ∈ t.elements.map Element.extra := by
    rw [← Sequence.map_repairIds (fun _ _ => rfl) StringMap.empty t.elements supply, hels]
    exact List.mem_map_of_mem he
  exact List.mem_map.mp hmem

theorem exists_items {read : Element α → Option (Json α)} {els : List (Element α)}
    (h : ∀ e ∈ els, ∃ v, read e = some v ∧ Json.reread? v = some v ∧
      Element.ofTree? (Json.Tree.ofValue v) = some e) :
    ∃ items, els.mapM read = some items ∧ items.mapM Json.reread? = some items ∧
      (items.filterMap fun v => Element.ofTree? (Json.Tree.ofValue v)) = els := by
  induction els with
  | nil => exact ⟨[], rfl, rfl, rfl⟩
  | cons e rest ih =>
    rw [List.forall_mem_cons] at h
    obtain ⟨⟨v, hv, hreread, helement⟩, hrest⟩ := h
    obtain ⟨items, hitems, hrereads, helements⟩ := ih hrest
    refine ⟨v :: items, ?_, ?_, ?_⟩
    · rw [List.mapM_cons, hv, hitems]; rfl
    · rw [List.mapM_cons, hreread, hrereads]; rfl
    · simp only [List.filterMap_cons, helement, helements]

/-- **A document is read back from the text of its template if and only if none of its elements
holds an embedded text** among its unknown members, whatever the time and the supply of new ids. -/
theorem reads_back_iff {d : Document α} (h : d.Portable) (time : Timestamp) (supply : IdSupply) :
    (∃ t, parse (ofDocument d time).text = .ok t ∧ (t.toDocument supply).1 = d) ↔
      ∀ e ∈ d.elements, (Json.Tree.ofValue e.extraValue).Plain := by
  constructor
  · rintro ⟨t, ht, hd⟩ e he
    obtain ⟨items, values, hitems, hvalues, rfl⟩ := (parse_text_eq_ok h time).mp ht
    obtain ⟨v, hv, hread⟩ := exists_mem_of_mapM hitems he
    obtain ⟨w, -, hreread⟩ := exists_mem_of_mapM hvalues hv
    obtain ⟨e', he', hextra⟩ := extra_of_toDocument hd he
    obtain ⟨value, -, helement⟩ := List.mem_filterMap.mp he'
    refine Element.plain_of_reread
      (fun _ _ => Json.Tree.unwrapped_of_valueWithin?) hread hreread fun m hm => ?_
    exact Element.unwrapped_extra_of_ofTree? helement (hextra ▸ hm)
  · intro hplain
    obtain ⟨items, hitems, hrereads, helements⟩ := exists_items fun e he =>
      Element.exists_value_of_plain (Json.valueWithin? (ofDocument d time).text.length)
        (h.proper e he) (hplain e he) (h.ordered e he)
    refine ⟨_, (parse_text_eq_ok h time).mpr ⟨items, items, hitems, hrereads, rfl⟩, ?_⟩
    rw [toDocument, helements, Document.normalize_of_distinct (Or.inl h.size) h.ids]

/-- A box with an unknown member. -/
def notedBox (note : Json Rat) : Document Rat where
  labelSize := LabelSize.standard
  elements := [{ Element.default .box with id := "a", extra := .ofList [("note", note)] }]

/-- A note with parts of its own. -/
def nestedNote : Json Rat :=
  .object [("lines", .array [.string "a", .null]), ("size", .number (.integer 2))]

/-- A note that begins with the reserved name. -/
def embeddedNote : Json Rat := .object [(Json.embeddedName, .string "[1]"), ("size", .null)]

/-- A note comes back with all its parts. -/
theorem nested_note_read_back : (notedBox nestedNote).Portable ∧
    ∃ t, parse (ofDocument (notedBox nestedNote) ⟨0, 0⟩).text = .ok t ∧
      (t.toDocument (.numbered 0)).1 = notedBox nestedNote := by
  have hportable : (notedBox nestedNote).Portable := by decide +kernel
  exact ⟨hportable, (reads_back_iff hportable ⟨0, 0⟩ (.numbered 0)).mpr (by decide +kernel)⟩

/-- A reserved name in front takes the whole template with it. -/
theorem embedded_note_not_read : (notedBox embeddedNote).Portable ∧
    ¬ ∃ t : Template Rat, parse (ofDocument (notedBox embeddedNote) ⟨0, 0⟩).text = .ok t := by
  have hportable : (notedBox embeddedNote).Portable := by decide +kernel
  refine ⟨hportable, fun ⟨t, ht⟩ => ?_⟩
  obtain ⟨items, values, hitems, -⟩ := (parse_text_eq_ok hportable ⟨0, 0⟩).mp ht
  -- Two members where there should be one: what the embedded text stands for does not matter.
  exact Option.some_ne_none items hitems.symm

end Template

end ThermalLabel

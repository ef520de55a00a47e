import ThermalLabel.Api.Service
import ThermalLabel.CommandLine.Effect
import ThermalLabel.Proofs.Document.Leniency
import ThermalLabel.Proofs.Element.DistinctIds
import ThermalLabel.Proofs.Element.Restated

/-! # Two paths to one job

A label gets to the printer as a template, whose document is put in order, or in the body of a
request, whose document is taken as it is. Putting a document in order changes ids, and no command
of a job depends on an id. So a text that is read on both paths gives the same job on both, and the
only texts that a request may have and a template may not are those that have no value or whose
elements have an object that begins with the reserved name. -/

namespace ThermalLabel

variable {α β : Type} [Scalar α]

/-! ### Ids do not print -/

theorem Document.flatMap_normalize {f : Element α → List β} (hf : ∀ e id, f (e.withId id) = f e)
    (d : Document α) (supply : IdSupply) :
    (d.normalize supply).1.elements.flatMap f = d.elements.flatMap f := by
  rw [List.flatMap_def, List.flatMap_def]
  exact congrArg List.flatten (Sequence.map_repairIds hf StringMap.empty d.elements supply)

theorem Document.labelSize_normalize {d : Document α} (h : d.labelSize.isValid = true)
    (supply : IdSupply) : (d.normalize supply).1.labelSize = d.labelSize := if_pos h

theorem Tspl.commands_normalize {d : Document α} (h : d.labelSize.isValid = true)
    (supply : IdSupply) (vars : Variables) :
    commands (d.normalize supply).1 vars = commands d vars := by
  rw [commands, d.flatMap_normalize fun _ _ => rfl, Document.labelSize_normalize h, commands]

theorem Zpl.lines_normalize {d : Document α} (h : d.labelSize.isValid = true)
    (supply : IdSupply) (vars : Variables) :
    lines (d.normalize supply).1 vars = lines d vars := by
  rw [lines, d.flatMap_normalize fun _ _ => rfl, Document.labelSize_normalize h, lines]

theorem EscPos.commands_normalize {d : Document α} (h : d.labelSize.isValid = true)
    (supply : IdSupply) (vars : Variables) :
    commands (d.normalize supply).1 vars = commands d vars := by
  rw [commands, d.flatMap_normalize fun _ _ => rfl, Document.labelSize_normalize h, commands]

variable [NumberText α]

/-- Documents that give the same job, in every language and with all variables, to look at and to
print. -/
def Job.Same (d d' : Document α) : Prop :=
  ∀ (lang : Language) (vars : Variables),
    (∀ comments, Job.compile lang d vars comments = Job.compile lang d' vars comments) ∧
      Job.payload lang d vars = Job.payload lang d' vars

/-- **Putting a document in order does not change what is printed.** -/
theorem Job.same_normalize {d : Document α} (h : d.labelSize.isValid = true) (supply : IdSupply) :
    Job.Same (d.normalize supply).1 d := by
  intro lang vars
  cases lang with
  | tspl =>
    simp only [compile, payload, Tspl.compile, Tspl.commands_normalize h, implies_true, and_self]
  | zpl =>
    simp only [compile, payload, Zpl.compile, Zpl.lines_normalize h, implies_true, and_self]
  | escpos =>
    simp only [compile, payload, EscPos.compile, EscPos.compileBytes, EscPos.commands_normalize h,
      implies_true, and_self]

/-! ### Elements of a template -/

/-- Elements are found again in their values. -/
theorem Element.filterMap_ofTree? {items : List (Json.Tree α)} {values : List (Json α)}
    {els : List (Element α)} (hvalues : List.Forall₂ (fun t v => t.value? = some v) items values)
    (hels : List.Forall₂ (fun t e => Element.ofTree? t = some e) items els)
    (hplain : ∀ v ∈ values, (Json.Tree.ofValue v).Plain) :
    (values.filterMap fun v => Element.ofTree? (Json.Tree.ofValue v)) = els := by
  induction hvalues generalizing els with
  | nil =>
    cases hels
    rfl
  | cons hv _ ih =>
    cases hels with
    | cons he hrest =>
      obtain ⟨hplain, hplains⟩ := List.forall_mem_cons.mp hplain
      have hfound := Element.ofTree?_of_restated he ⟨_, hv, rfl⟩ hplain
      simp only [List.filterMap_cons, hfound, ih hrest hplains]

/-- **A list of elements is read through its value if nothing in the value begins with the reserved
name**, and then no element is left out. -/
theorem Template.readElements?_eq_some {t : Json.Tree α} {v : Json α} {els found : List (Element α)}
    (hels : Json.Tree.list? Element.ofTree? t = some els) (hv : t.value? = some v) :
    Template.readElements? v = some found ↔ (Json.Tree.ofValue v).Plain ∧ found = els := by
  cases t with
  | array items =>
    rw [readElements?_eq_some_iff (Json.settled_of_value? hv)]
    rw [Json.Tree.value?, Json.Tree.valueWith?_array] at hv
    obtain ⟨values, hvalues, rfl⟩ := Option.map_eq_some_iff.mp hv
    have hfound (hplain : (Json.Tree.ofValue (.array values)).Plain) :=
      Element.filterMap_ofTree? (mapM_eq_some_iff.mp hvalues) (mapM_eq_some_iff.mp hels)
        (Json.Tree.plain_ofValue_array.mp hplain)
    constructor
    · rintro ⟨_, ⟨⟩, hplain, rfl⟩
      exact ⟨hplain, hfound hplain⟩
    · rintro ⟨hplain, rfl⟩
      exact ⟨values, rfl, hplain, (hfound hplain).symm⟩
  | _ => cases hels

namespace Template

/-- A value without version and timestamp is a template if its label size and its elements are
read. -/
theorem ofValue_eq_ok {v size elements : Json α} (hsize : v.member? "labelSize" = some size)
    (helements : v.member? "elements" = some elements) (hversion : v.member? "version" = none)
    (htimestamp : v.member? "timestamp" = none) {labelSize : LabelSize α}
    (hread : LabelSize.ofTree? (Json.Tree.ofValue size) = some labelSize)
    (hnull : elements ≠ .null) {t : Template α} :
    ofValue v = .ok t ↔
      ∃ els, readElements? elements = some els ∧ t = ⟨labelSize, els, "", none⟩ := by
  have hsizeNull : size ≠ .null := by
    rintro rfl
    cases hread
  have hparts : ofParts? v size elements =
      (readElements? elements).map fun els => ⟨labelSize, els, "", none⟩ := by
    unfold ofParts? lenient?
    rw [hread, hversion, htimestamp]
    cases readElements? elements <;> rfl
  cases v with
  | object members =>
    rw [ofValue, require_eq_ok_iff.mpr ⟨hsize, hsizeNull⟩, require_eq_ok_iff.mpr ⟨helements, hnull⟩]
    simp only [bind, Except.bind, pure, Except.pure]
    rw [hparts]
    cases readElements? elements <;> simp [eq_comm]
  | _ => cases hsize

end Template

/-! ### One text on both paths -/

/-- Whether a tree is an object with just a label size and elements. -/
def Json.Tree.isLabelOnly : Json.Tree α → Bool
  | .object members => members.all fun e => e.1 == "labelSize" || e.1 == "elements"
  | _ => false

omit [Scalar α] [NumberText α] in
theorem Json.Tree.exists_members_of_isLabelOnly {t : Option (Json.Tree α)}
    (h : t.any isLabelOnly = true) : ∃ members, t = some (.object members) ∧
      ∀ e ∈ members, e.1 = "labelSize" ∨ e.1 = "elements" := by
  cases t with
  | none => cases h
  | some t =>
    cases t with
    | object members =>
      refine ⟨members, rfl, fun e he => ?_⟩
      simpa using List.all_eq_true.mp h e he
    | _ => cases h

omit [Scalar α] in
theorem Api.readBody_eq_ok_iff {read : Json.Tree α → Option β} {body : String} {b : β} :
    readBody read body = .ok b ↔ (Json.Tree.parse? body).bind read = some b := by
  unfold readBody
  cases (Json.Tree.parse? body).bind read <;> simp

/-- What is read from an object that is a request. -/
theorem Api.JobRequest.parts_of_ofTree? {members : List (String × Json.Tree α)}
    {job : Api.JobRequest α} (h : Api.JobRequest.ofTree? (.object members) = some job) :
    ∃ size elements, members.lookup "labelSize" = some size ∧
      members.lookup "elements" = some elements ∧
      Json.Tree.repeats members "labelSize" = false ∧
      Json.Tree.repeats members "elements" = false ∧
      LabelSize.ofTree? size = some job.document.labelSize ∧
      Json.Tree.list? Element.ofTree? elements = some job.document.elements := by
  simp only [ofTree?, Json.Tree.Fields.require?, Option.bind_eq_bind, Option.bind_eq_some_iff,
    Json.Tree.fields?_object_eq_some] at h
  obtain ⟨fields, ⟨hnone, rfl⟩, labelSize, ⟨size, hsize, hreadSize⟩, els,
    ⟨elements, helements, hreadElements⟩, custom, -, comments, -, heq⟩ := h
  obtain rfl := Option.some.inj heq
  exact ⟨size, elements, hsize, helements, hnone _ (by simp), hnone _ (by simp), hreadSize,
    hreadElements⟩

/-- **A text that is read as a request is read as a template** if it has a value and nothing in the
value of its elements begins with the reserved name, and then both have the same label size and the
same elements. -/
theorem Template.parse_eq_ok_iff {text : String} {job : Api.JobRequest α}
    (honly : (Json.Tree.parse? text : Option (Json.Tree α)).any Json.Tree.isLabelOnly = true)
    (hread : Api.readBody Api.JobRequest.ofTree? text = .ok job) {t : Template α} :
    Template.parse text = .ok t ↔
      (∃ v elements : Json α, Json.parse? text = some v ∧ v.member? "elements" = some elements ∧
        (Json.Tree.ofValue elements).Plain) ∧
      t = ⟨job.document.labelSize, job.document.elements, "", none⟩ := by
  obtain ⟨members, htext, hnames⟩ := Json.Tree.exists_members_of_isLabelOnly honly
  rw [Api.readBody_eq_ok_iff, htext, Option.bind_some] at hread
  obtain ⟨size, elements, hsize, helements, honce, honce', hreadSize, hreadElements⟩ :=
    Api.JobRequest.parts_of_ofTree? hread
  rw [parse, Json.parse?_eq_bind_value?, htext, Option.bind_some]
  cases hv : (Json.Tree.object members).value? with
  | none => simp
  | some v =>
    obtain ⟨sizeValue, hsizeMember, hsizeValue⟩ :=
      Json.Tree.exists_member hv (by decide) honce hsize
    obtain ⟨elementsValue, hmember, helementsValue⟩ :=
      Json.Tree.exists_member hv (by decide) honce' helements
    have hother {k : String} (hk : k ≠ "labelSize" ∧ k ≠ "elements") : v.member? k = none := by
      refine Json.Tree.member?_eq_none hv (by decide) (hsize ▸ Option.some_ne_none size) ?_
      rintro hmem
      obtain ⟨member, hmember, rfl⟩ := List.mem_map.mp hmem
      exact (hnames member hmember).elim hk.1 hk.2
    have hels (found : List (Element α)) : readElements? elementsValue = some found ↔
        (Json.Tree.ofValue elementsValue).Plain ∧ found = job.document.elements :=
      readElements?_eq_some hreadElements helementsValue
    have hnull : elementsValue ≠ .null := by
      rintro rfl
      cases (hels _).mpr ⟨Json.Tree.plain_leafValue .null, rfl⟩
    rw [mapError_eq_ok, ofValue_eq_ok hsizeMember hmember (hother (by decide))
      (hother (by decide)) (LabelSize.steady_ofTree? ⟨_, hsizeValue, rfl⟩ hreadSize) hnull]
    simp only [hels]
    constructor
    · rintro ⟨els, ⟨hplain, rfl⟩, rfl⟩
      exact ⟨⟨v, elementsValue, rfl, hmember, hplain⟩, rfl⟩
    · rintro ⟨⟨_, other, hvalue, hmember', hplain⟩, rfl⟩
      obtain rfl := Option.some.inj hvalue
      obtain rfl := Option.some.inj (hmember'.symm.trans hmember)
      exact ⟨_, ⟨hplain, rfl⟩, rfl⟩

/-- **Ids do not print, and both paths give one job.** A document in order gives the job of the
document, whatever ids it had. So a text with just a label size and elements that is read as a
request and as a template gives one job on both paths; and of the texts that are read as a request,
those are read as a template that have a value in which nothing in the elements begins with the
reserved name. -/
theorem Job.same_on_both_paths :
    (∀ (d : Document α) (supply : IdSupply), d.labelSize.isValid = true →
      Job.Same (d.normalize supply).1 d) ∧
    ∀ (text : String) (job : Api.JobRequest α) (supply : IdSupply),
      (Json.Tree.parse? text : Option (Json.Tree α)).any Json.Tree.isLabelOnly = true →
      Api.readBody Api.JobRequest.ofTree? text = .ok job →
      job.document.labelSize.isValid = true →
      (∀ d, CommandLine.ofTemplate (.ok text) supply = .ok d → Job.Same d job.document) ∧
      ((∃ d : Document α, CommandLine.ofTemplate (.ok text) supply = .ok d) ↔
        ∃ v elements : Json α, Json.parse? text = some v ∧ v.member? "elements" = some elements ∧
          (Json.Tree.ofValue elements).Plain) := by
  refine ⟨fun d supply h => same_normalize h supply, fun text job supply honly hread hsize => ?_⟩
  have htemplate {d : Document α} : CommandLine.ofTemplate (.ok text) supply = .ok d ↔
      ∃ t, Template.parse text = .ok t ∧ (t.toDocument supply).1 = d := by
    show (Template.parse text).bind (fun t : Template α => .ok (t.toDocument supply).1) = .ok d ↔ _
    cases (Template.parse text : Except Error (Template α)) <;> simp [Except.bind]
  simp only [htemplate, Template.parse_eq_ok_iff honly hread]
  constructor
  · rintro d ⟨t, ⟨-, rfl⟩, rfl⟩
    exact same_normalize hsize supply
  · constructor
    · rintro ⟨d, t, ⟨hvalue, -⟩, -⟩
      exact hvalue
    · intro hvalue
      exact ⟨_, _, ⟨hvalue, rfl⟩, rfl⟩

/-- A text with two boxes that have no ids, one of them with a note. -/
def notedBoxes (note : String) : String :=
  "\x7b\"labelSize\":\x7b\"width\":50,\"height\":30\x7d,\"elements\":[\x7b\"type\":\"box\"\x7d,"
    ++ "\x7b\"type\":\"box\",\"note\":" ++ note ++ "\x7d]\x7d"

theorem exists_ok_of_any {ε : Type} {e : Except ε β} {p : β → Bool}
    (h : e.toOption.any p = true) : ∃ b, e = .ok b ∧ p b = true := by
  cases e with
  | ok b => exact ⟨b, rfl, h⟩
  | error _ => cases h

/-- Boxes without ids give one job as a template and as a request. -/
theorem Job.same_noted_boxes : ∃ (job : Api.JobRequest Rat) (d : Document Rat),
    Api.readBody Api.JobRequest.ofTree? (notedBoxes "[1]") = .ok job ∧
      CommandLine.ofTemplate (.ok (notedBoxes "[1]")) (.numbered 0) = .ok d ∧
      Job.Same d job.document := by
  have honly : (Json.Tree.parse? (notedBoxes "[1]") : Option (Json.Tree Rat)).any
      Json.Tree.isLabelOnly = true := by decide +kernel
  obtain ⟨job, hjob, hsize⟩ : ∃ job : Api.JobRequest Rat,
      Api.readBody Api.JobRequest.ofTree? (notedBoxes "[1]") = .ok job ∧
        job.document.labelSize.isValid = true := exists_ok_of_any (by decide +kernel)
  obtain ⟨d, hd, -⟩ : ∃ d : Document Rat,
      CommandLine.ofTemplate (.ok (notedBoxes "[1]")) (.numbered 0) = .ok d ∧
        d.labelSize.isValid = true := exists_ok_of_any (by decide +kernel)
  exact ⟨job, d, hjob, hd, (same_on_both_paths.2 _ job (.numbered 0) honly hjob hsize).1 d hd⟩

/-- A note in which the reserved name stands behind another one, and comes to the front when the
members are put in order. -/
def disguisedNote : String :=
  "\x7b\"b\":1,\"$serde_json::private::RawValue\":\"[1]\"\x7d"

/-- A request with such a note is read, but there is no template of it. -/
theorem Job.disguised_note_on_one_path :
    (Json.Tree.parse? (notedBoxes disguisedNote) : Option (Json.Tree Rat)).any
      Json.Tree.isLabelOnly = true ∧
    (∃ job : Api.JobRequest Rat,
      Api.readBody Api.JobRequest.ofTree? (notedBoxes disguisedNote) = .ok job ∧
        job.document.labelSize.isValid = true) ∧
    ¬ ∃ d : Document Rat,
      CommandLine.ofTemplate (.ok (notedBoxes disguisedNote)) (.numbered 0) = .ok d := by
  refine ⟨by decide +kernel, exists_ok_of_any (by decide +kernel), ?_⟩
  have hnone : (CommandLine.ofTemplate (.ok (notedBoxes disguisedNote)) (.numbered 0) :
      Except Error (Document Rat)).toOption.isNone = true := by decide +kernel
  rintro ⟨d, hd⟩
  rw [hd] at hnone
  cases hnone

end ThermalLabel

import ThermalLabel.Proofs.Element.Record
import ThermalLabel.Proofs.Json.Printed
import ThermalLabel.Session.Store

/-! # Sessions read back

A session is printed as a tree and read from it part by part: the label size, the elements and the
settings. `parse_text` says that it is read back, as long as the text can hold it. -/

namespace ThermalLabel

variable {α : Type}

theorem Variables.stringMap?_toTree (vars : Variables) :
    Json.Tree.stringMap? (vars.toTree : Json.Tree α) = some vars := by
  have hread : ((vars.toList.map fun e => (e.1, (.string e.2 : Json.Tree α))).mapM fun e =>
      (Json.Tree.string? e.2).map fun s => (e.1, s)) = some vars.toList := by
    rw [List.mapM_map]
    exact mapM_eq_some_iff.mpr (List.forall₂_same.mpr fun _ _ => rfl)
  show Option.map StringMap.ofList _ = some vars
  rw [hread, Option.map_some, StringMap.ofList_toList]

theorem Language.choice?_name (language : Language) :
    Json.Tree.choice? Json.Tree.isNull Language.choices
      (.string language.name : Json.Tree α) = some language := by
  cases language <;> rfl

namespace Session

/-- The members of a session, in the order they are written. -/
def members (s : Session α) : List (String × Json.Tree α) :=
  [("labelSize", s.document.labelSize.toTree),
    ("elements", Document.elementsTree s.document.elements),
    ("customVariables", s.settings.custom.toTree),
    ("printerLang", .string s.settings.language.name), ("gridSize", scalarTree s.settings.gridSize)]

theorem toTree_eq (s : Session α) : s.toTree = .object s.members := rfl

theorem nodup_members (s : Session α) : (s.members.map Prod.fst).Nodup := by
  show ["labelSize", "elements", "customVariables", "printerLang", "gridSize"].Nodup
  decide

end Session

variable [Scalar α] [NumberText α]

/-- An element is read back from its tree if its unknown members are. -/
theorem Element.ofTree?_toTree {e : Element α} (h : e.Proper)
    (hplain : ∀ m ∈ e.extra.toList, (Json.Tree.ofValue m.2).Plain)
    (hordered : ∀ m ∈ e.extra.toList, (Json.Tree.ofValue m.2).Ordered) :
    Element.ofTree? e.toTree = some e :=
  ofTree?_of_perm h (fun m hm => Json.Tree.valueWith?_ofValue _ (hplain m hm) (hordered m hm))
    (List.Perm.refl _)

namespace Session

/-- A session that a text can hold. The unknown members of its elements have names of their own, are
in key order and hold no embedded text; every number reads back from its own text, and containers
are not nested too deep. -/
structure Portable (s : Session α) : Prop where
  proper : ∀ e ∈ s.document.elements, e.Proper
  plain : ∀ e ∈ s.document.elements, ∀ m ∈ e.extra.toList, (Json.Tree.ofValue m.2).Plain
  ordered : ∀ e ∈ s.document.elements, ∀ m ∈ e.extra.toList, (Json.Tree.ofValue m.2).Ordered
  legible : s.toTree.Legible
  depth : s.toTree.depth ≤ Json.maxDepth

instance [DecidableEq α] (s : Session α) : Decidable s.Portable :=
  decidable_of_iff
    ((∀ e ∈ s.document.elements, e.Proper) ∧
      (∀ e ∈ s.document.elements, ∀ m ∈ e.extra.toList, (Json.Tree.ofValue m.2).Plain) ∧
      (∀ e ∈ s.document.elements, ∀ m ∈ e.extra.toList, (Json.Tree.ofValue m.2).Ordered) ∧
      s.toTree.Legible ∧ s.toTree.depth ≤ Json.maxDepth)
    ⟨fun ⟨proper, plain, ordered, legible, depth⟩ => ⟨proper, plain, ordered, legible, depth⟩,
    fun h => ⟨h.proper, h.plain, h.ordered, h.legible, h.depth⟩⟩

/-- A session is made of its members again, if its elements are. -/
theorem ofTree?_toTree_of_elements {s : Session α}
    (h : ∀ e ∈ s.document.elements, Element.ofTree? e.toTree = some e) :
    ofTree? s.toTree = some s := by
  have hsize : LabelSize.ofTree? s.document.labelSize.toTree = some s.document.labelSize :=
    s.document.labelSize.ofTree?_of_perm (List.Perm.refl _)
  have helements : Json.Tree.list? Element.ofTree? (Document.elementsTree s.document.elements) =
      some s.document.elements := by
    show (s.document.elements.map Element.toTree).mapM Element.ofTree? = some s.document.elements
    rw [List.mapM_map]
    exact mapM_eq_some_iff.mpr (List.forall₂_same.mpr h)
  have hcustom := Variables.stringMap?_toTree (α := α) s.settings.custom
  have hlanguage := Language.choice?_name (α := α) s.settings.language
  unfold ofTree?
  simp only [toTree_eq, Option.bind_eq_bind, Option.bind_eq_some_iff]
  exact ⟨_, Json.Tree.fields?_object s.nodup_members _, _, hsize, _, helements, _, hcustom, _,
    hlanguage, _, rfl, rfl⟩

theorem Portable.ofTree?_toTree {s : Session α} (h : s.Portable) : ofTree? s.toTree = some s :=
  ofTree?_toTree_of_elements fun e he =>
    Element.ofTree?_toTree (h.proper e he) (h.plain e he) (h.ordered e he)

/-- **A session is read back from its text**, as long as the text can hold it. -/
theorem parse_text {s : Session α} (h : s.Portable) : parse s.text = .ok s := by
  unfold parse text
  rw [Json.Tree.parse?_pretty h.legible h.depth, Option.bind_some, h.ofTree?_toTree]

end Session

end ThermalLabel

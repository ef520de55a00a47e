import ThermalLabel.Proofs.Editor.Lasting
import ThermalLabel.Proofs.Session.Text

/-! # Sessions that come from texts

An element that is read keeps only members that are not its type and not its fields, so that their
names are their own, and nothing that is done to an element afterwards changes its kind or those
members. The elements of a session that comes from a text are therefore proper, and it is read back
as soon as its text says its tree and the unknown values in it stand for themselves
(`SaysItself.ofTree?_toTree`). -/

namespace ThermalLabel

variable {α : Type} [Scalar α]

namespace Element

/-- What is read over the defaults of a kind has that kind. -/
theorem kind_of_bodyOfFields? {fields : Json.Tree.Fields α} {default body : Body α}
    (h : bodyOfFields? fields default = some body) : body.kind = default.kind := by
  cases default <;>
    simp only [bodyOfFields?, Option.bind_eq_bind, Option.bind_eq_some_iff, Option.pure_def,
      Option.some.injEq] at h
  · obtain ⟨_, -, _, -, _, -, _, -, rfl⟩ := h
    rfl
  · obtain ⟨_, -, _, -, _, -, _, -, _, -, rfl⟩ := h
    rfl
  · obtain ⟨_, -, _, -, _, -, rfl⟩ := h
    rfl
  · obtain ⟨_, -, _, -, _, -, rfl⟩ := h
    rfl

omit [Scalar α] in
theorem Proper.of_same {e e' : Element α} (h : e.Proper) (hkind : e'.kind = e.kind)
    (hextra : e'.extra = e.extra) : e'.Proper := by
  unfold Proper
  rw [hkind, hextra]
  exact h

omit [Scalar α] in
theorem kind_withSize (b : Body α) (size : Size α) : (b.withSize size).kind = b.kind := by
  cases b <;> rfl

theorem kind_applyBody (patch : Patch α) (b : Body α) : (patch.applyBody b).kind = b.kind := by
  cases b <;> rfl

theorem Proper.resize {e : Element α} (h : e.Proper) (size : Size α) : (e.resize size).Proper :=
  h.of_same (kind_withSize e.body _) rfl

theorem Proper.apply {e : Element α} (h : e.Proper) (patch : Patch α) : (patch.apply e).Proper := by
  have hposition : (patch.applyPosition e).Proper := by
    unfold Patch.applyPosition
    split_ifs
    · exact h.of_same rfl rfl
    · exact h
  have hsize : (patch.applySize (patch.applyPosition e)).Proper := by
    unfold Patch.applySize
    split
    · split_ifs
      · exact hposition.resize _
      · exact hposition
    · exact hposition
  exact hsize.of_same (kind_applyBody patch _) rfl

theorem lasting_proper : Lasting (Proper (α := α)) where
  sample kind := by cases kind <;> exact fun _ _ => List.not_mem_nil
  withId _ _ h := h.of_same rfl rfl
  moveTo _ _ h := h.of_same rfl rfl
  resize _ size h := h.resize size
  apply _ patch h := h.apply patch

variable [NumberText α]

omit [Scalar α] in
/-- The unknown members have other names than the type and the fields of the kind. -/
theorem not_mem_of_extraOfMembers? {kind : Kind} {members : List (String × Json.Tree α)}
    {extra : StringMap (Json α)} (h : extraOfMembers? kind members = some extra) {name : String}
    (hname : name ∈ extra.keys) : name ∉ "type" :: kind.fieldNames := by
  obtain ⟨values, hvalues, rfl⟩ := Option.map_eq_some_iff.mp h
  rw [StringMap.keys, StringMap.toList_ofList, StringMap.mem_keys_inKeyOrder,
    Json.Tree.keys_of_mapM hvalues] at hname
  obtain ⟨member, hmember, rfl⟩ := List.mem_map.mp hname
  simpa using List.of_mem_filter hmember

/-- **What is read is proper.** -/
theorem proper_of_ofTree? {t : Json.Tree α} {e : Element α} (h : Element.ofTree? t = some e) :
    e.Proper := by
  unfold Element.ofTree? at h
  split at h
  · obtain ⟨_, -, h⟩ := Option.bind_eq_some_iff.mp h
    obtain ⟨kind, -, h⟩ := Option.bind_eq_some_iff.mp h
    have hextra := extraOfMembers?_of_ofMembers? h
    have hkind : e.kind = kind := by
      simp only [ofMembers?, Option.bind_eq_bind, Option.bind_eq_some_iff] at h
      obtain ⟨fields, -, id, -, x, -, y, -, body, hbody, extra, -, heq⟩ := h
      obtain rfl := Option.some.inj heq
      exact (kind_of_bodyOfFields? hbody).trans (kind_default kind)
    intro name hname hmem
    exact not_mem_of_extraOfMembers? hextra hmem (hkind ▸ hname)
  · cases h

end Element

namespace Session

open Sequence (All)

variable [NumberText α] {s : Session α}

theorem proper_of_ofTree? {t : Json.Tree α} (h : ofTree? t = some s) :
    All Element.Proper s.document.elements := by
  simp only [ofTree?, Json.Tree.Fields.require?, Option.bind_eq_bind, Option.bind_eq_some_iff] at h
  obtain ⟨fields, -, size, -, elements, ⟨list, -, hlist⟩, custom, -, language, -, grid, -, heq⟩ := h
  obtain rfl := Option.some.inj heq
  unfold Json.Tree.list? at hlist
  split at hlist
  · intro e he
    obtain ⟨item, -, hitem⟩ := exists_of_mem_mapM hlist he
    exact Element.proper_of_ofTree? hitem
  · cases hlist

/-- What a file holds is proper. -/
theorem proper_stored_file (text : Option String) :
    All Element.Proper (Editor.storedElements (Store.file text : Store α).load) := by
  rcases text with _ | text
  · exact fun e he => absurd he List.not_mem_nil
  · unfold Store.load parse
    dsimp only
    split
    · next session hread =>
      obtain ⟨tree, -, hsession⟩ := Option.bind_eq_some_iff.mp hread
      exact proper_of_ofTree? hsession
    · exact fun e he => absurd he List.not_mem_nil

/-- The texts in which a session is sent say what they were written for: the text of the session
says its tree, and the values of the unknown members stand for themselves. -/
structure SaysItself (s : Session α) : Prop where
  text : Json.Tree.parse? s.toTree.compact = some s.toTree
  values : ∀ e ∈ s.document.elements, ∀ m ∈ e.extra.toList,
    (Json.Tree.ofValue m.2).value? = some m.2

omit [Scalar α] in
theorem Portable.saysItself (h : s.Portable) : s.SaysItself where
  text := Json.Tree.parse?_compact h.legible h.depth
  values e he m hm := Json.Tree.valueWith?_ofValue _ (h.plain e he m hm) (h.ordered e he m hm)

/-- A session of proper elements is made of its records again. -/
theorem SaysItself.ofTree?_toTree (h : s.SaysItself)
    (hproper : All Element.Proper s.document.elements) : ofTree? s.toTree = some s :=
  ofTree?_toTree_of_elements fun e he =>
    Element.ofTree?_of_perm (hproper e he) (h.values e he) (List.Perm.refl _)

end Session

end ThermalLabel

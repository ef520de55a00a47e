import ThermalLabel.Proofs.Element.Kindred
import ThermalLabel.Proofs.Scalar.Bound

/-! # Patches act on elements

A patch changes three parts of an element, each by itself: the position, the size and the other
fields of the body (`Patch.apply_eq`). Position and size are pairs of numbers, and naming one of the
two puts both within their bound; a second patch finds them there, so that it makes no difference
whether the first one or the second one has done it (`held_held`). So two patches, one after the
other, are one patch (`patches_act`). -/

namespace ThermalLabel

variable {α : Type}

namespace Patch

/-- Two patches as one: the fields that the second one names, and those of the first one that the
second one does not name. -/
def andThen (p q : Patch α) : Patch α where
  x := q.x.or p.x
  y := q.y.or p.y
  content := q.content.or p.content
  fontSize := q.fontSize.or p.fontSize
  fontWeight := q.fontWeight.or p.fontWeight
  fontFamily := q.fontFamily.or p.fontFamily
  width := q.width.or p.width
  height := q.height.or p.height
  showBorder := q.showBorder.or p.showBorder
  padding := q.padding.or p.padding
  strokeWidth := q.strokeWidth.or p.strokeWidth

/-- The fields of a patch that elements of a kind have. -/
def within (kind : Kind) (p : Patch α) : Patch α :=
  let kept {β : Type} (name : String) (value : Option β) : Option β :=
    if kind.fieldNames.contains name then value else none
  { x := kept "x" p.x
    y := kept "y" p.y
    content := kept "content" p.content
    fontSize := kept "fontSize" p.fontSize
    fontWeight := kept "fontWeight" p.fontWeight
    fontFamily := kept "fontFamily" p.fontFamily
    width := kept "width" p.width
    height := kept "height" p.height
    showBorder := kept "showBorder" p.showBorder
    padding := kept "padding" p.padding
    strokeWidth := kept "strokeWidth" p.strokeWidth }

theorem andThen_self (p : Patch α) : p.andThen p = p := by
  simp [andThen]

theorem isEmpty_iff (p : Patch α) : p.isEmpty = true ↔ p = empty := by
  obtain ⟨x, y, content, fontSize, fontWeight, fontFamily, width, height, showBorder, padding,
    strokeWidth⟩ := p
  simp [isEmpty, empty, and_assoc]

variable [Scalar α]

/-! ### Pairs of numbers within a bound -/

/-- A pair of numbers after a patch that may name each of them: if it names one, both are put within
the bound. -/
def held (bound : α) (first second : Option α) (pair : α × α) : α × α :=
  if first.isSome || second.isSome then
    (Scalar.max (first.getD pair.1) bound, Scalar.max (second.getD pair.2) bound)
  else pair

/-- **Holding a pair twice is holding it once**, by what was named last. -/
theorem held_held {bound : α} (h : Scalar.IsBound bound) (first second first' second' : Option α)
    (pair : α × α) :
    held bound first' second' (held bound first second pair) =
      held bound (first'.or first) (second'.or second) pair := by
  cases first <;> cases second <;> cases first' <;> cases second' <;> simp [held, h.twice]

/-- The position that a patch gives. -/
def position (p : Patch α) (pos : Point α) : Point α :=
  let pair := held Scalar.zero p.x p.y (pos.x, pos.y)
  ⟨pair.1, pair.2⟩

/-- The size that a patch gives. -/
def size (p : Patch α) (size : Size α) : Size α :=
  let pair := held Scalar.one p.width p.height (size.width, size.height)
  ⟨pair.1, pair.2⟩

/-- The body with the size that a patch gives, for the kinds that have one. -/
def sizeBody (p : Patch α) (b : Body α) : Body α :=
  match b.size? with
  | some size => b.withSize (p.size size)
  | none => b

theorem applyPosition_eq (p : Patch α) (e : Element α) :
    p.applyPosition e =
      { e with x := (p.position e.position).x, y := (p.position e.position).y } := by
  unfold applyPosition position held
  split_ifs <;> rfl

theorem applySize_eq (p : Patch α) (e : Element α) :
    p.applySize e = { e with body := p.sizeBody e.body } := by
  obtain ⟨id, x, y, body, extra⟩ := e
  unfold applySize sizeBody size held
  cases body <;> simp only [Element.size?, Body.size?] <;> split_ifs <;> rfl

/-- **The parts of a patch**: it places the element, stretches it, and changes the other fields. -/
theorem apply_eq (p : Patch α) (e : Element α) :
    p.apply e = { e with
      x := (p.position e.position).x
      y := (p.position e.position).y
      body := p.applyBody (p.sizeBody e.body) } := by
  rw [apply, applySize_eq, applyPosition_eq]

variable [BoundedScalar α]

theorem position_andThen (p q : Patch α) (pos : Point α) :
    q.position (p.position pos) = (p.andThen q).position pos := by
  simp only [position, held_held BoundedScalar.zero, andThen]

theorem size_andThen (p q : Patch α) (size : Size α) :
    q.size (p.size size) = (p.andThen q).size size := by
  simp only [Patch.size, held_held BoundedScalar.one, andThen]

/-- A field that two patches may name. -/
theorem getD_map_or {β : Type} (f : β → β) (p q : Option β) (value : β) :
    (q.map f).getD ((p.map f).getD value) = ((q.or p).map f).getD value := by
  cases q <;> rfl

theorem body_andThen (p q : Patch α) (b : Body α) :
    q.applyBody (q.sizeBody (p.applyBody (p.sizeBody b))) =
      (p.andThen q).applyBody ((p.andThen q).sizeBody b) := by
  cases b <;>
    simp only [sizeBody, Body.size?, Body.withSize, applyBody, ← size_andThen, getD_map_or] <;>
    simp only [andThen, Option.getD_or]

/-- Two patches, one after the other, are one patch. -/
theorem apply_apply (p q : Patch α) (e : Element α) :
    q.apply (p.apply e) = (p.andThen q).apply e := by
  rw [apply_eq, apply_eq, apply_eq, ← position_andThen, ← body_andThen]
  rfl

omit [BoundedScalar α] in
theorem apply_empty (e : Element α) : (empty : Patch α).apply e = e := by
  obtain ⟨id, x, y, body, extra⟩ := e
  cases body <;> rfl

omit [BoundedScalar α] in
theorem apply_within (p : Patch α) (e : Element α) : (p.within e.kind).apply e = p.apply e := by
  obtain ⟨id, x, y, body, extra⟩ := e
  rw [apply_eq, apply_eq]
  cases body <;>
    simp [within, Element.kind, Body.kind, Kind.fieldNames, Element.position, position, sizeBody,
      Body.size?, Body.withSize, size, applyBody]

/-- **Patches act on elements**, whatever their kind and whether they are within their bounds. Two
patches are one patch, so that a patch done twice is a patch done once; a patch that names nothing
does nothing; and a patch changes neither id, kind and unknown members nor anything by a field that
elements of the kind do not have. -/
theorem patches_act (e : Element α) (p q : Patch α) :
    q.apply (p.apply e) = (p.andThen q).apply e ∧
    p.apply (p.apply e) = p.apply e ∧
    (p.isEmpty = true → p.apply e = e) ∧
    Element.Kindred e (p.apply e) ∧
    (p.within e.kind).apply e = p.apply e := by
  refine ⟨apply_apply p q e, ?_, fun hempty => ?_, Element.kindred_apply p e, apply_within p e⟩
  · rw [apply_apply, andThen_self]
  · rw [(isEmpty_iff p).mp hempty, apply_empty]

/-- A barcode left of and above the label, without any width. -/
def strayBarcode : Element Float :=
  ⟨"code", -Scalar.ofNat 5, -Scalar.ofNat 3,
    .barcode ⟨"7312", Scalar.zero, Scalar.ofNat 10⟩, StringMap.empty⟩

/-- A barcode out of its bounds, under two patches that both name `x` and otherwise differ. The
first one has a font size, which barcodes do not have. -/
theorem patches_on_stray :
    let p : Patch Float := { x := some (Scalar.ofNat 4), fontSize := some (Scalar.ofNat 9) }
    let q : Patch Float := { x := some (-Scalar.ofNat 8), height := some (Scalar.ofNat 6) }
    (q.apply (p.apply strayBarcode) ==
      { strayBarcode with
        x := Scalar.zero, y := Scalar.zero
        body := .barcode ⟨"7312", Scalar.one, Scalar.ofNat 6⟩ }) = true ∧
    (p.within .barcode).fontSize.isNone ∧
    q.apply (p.apply strayBarcode) = (p.andThen q).apply strayBarcode ∧
    (p.within .barcode).apply strayBarcode = p.apply strayBarcode := by
  intro p q
  obtain ⟨happly, -, -, -, hwithin⟩ := patches_act strayBarcode p q
  exact ⟨by decide +kernel, by decide +kernel, happly, hwithin⟩

end Patch

end ThermalLabel

import ThermalLabel.Element.Basic
import ThermalLabel.Proofs.Scalar.Bound

/-! # The test for equal elements

Elements are compared member by member, and numbers by their own test. A number that is not ordered
fails the test even against itself, and the test takes both zeros for equal, so it is not equality.
It is symmetric and transitive if the test on numbers is, as that on floating-point numbers is, and
reflexive if the test on numbers is, as that on exact ones is. -/

namespace ThermalLabel

variable {α β : Type} [BEq α] [BEq β]

/-- A test that compares images is symmetric and transitive if the test on the images is. -/
theorem partialEquivBEq_of_image [PartialEquivBEq β] (f : α → β)
    (h : ∀ a b : α, (a == b) = (f a == f b)) : PartialEquivBEq α where
  symm hab := by
    rw [h] at hab ⊢
    exact PartialEquivBEq.symm hab
  trans hab hbc := by
    rw [h] at hab hbc ⊢
    exact PartialEquivBEq.trans hab hbc

/-- A test that compares images is reflexive if the test on the images is. -/
theorem reflBEq_of_image [ReflBEq β] (f : α → β) (h : ∀ a b : α, (a == b) = (f a == f b)) :
    ReflBEq α where
  rfl {a} := by
    rw [h]
    exact BEq.refl (f a)

instance instReflBEqProd [ReflBEq α] [ReflBEq β] : ReflBEq (α × β) where
  rfl := Bool.and_eq_true_iff.mpr ⟨BEq.refl _, BEq.refl _⟩

instance [ReflBEq β] : ReflBEq (StringMap β) := reflBEq_of_image StringMap.toList fun _ _ => rfl

section
variable [PartialEquivBEq α] [PartialEquivBEq β]

instance instPartialEquivBEqProd : PartialEquivBEq (α × β) where
  symm hab := by
    obtain ⟨hfst, hsnd⟩ := Bool.and_eq_true_iff.mp hab
    exact Bool.and_eq_true_iff.mpr ⟨PartialEquivBEq.symm hfst, PartialEquivBEq.symm hsnd⟩
  trans hab hbc := by
    obtain ⟨hfst, hsnd⟩ := Bool.and_eq_true_iff.mp hab
    obtain ⟨hfst', hsnd'⟩ := Bool.and_eq_true_iff.mp hbc
    exact Bool.and_eq_true_iff.mpr
      ⟨PartialEquivBEq.trans hfst hfst', PartialEquivBEq.trans hsnd hsnd'⟩

theorem list_beq_symm {as bs : List α} (h : (as == bs) = true) : (bs == as) = true := by
  induction as generalizing bs with
  | nil => cases bs with
    | nil => rfl
    | cons b bs => cases h
  | cons a as ih => cases bs with
    | nil => cases h
    | cons b bs =>
      rw [List.cons_beq_cons, Bool.and_eq_true] at h ⊢
      exact ⟨PartialEquivBEq.symm h.1, ih h.2⟩

theorem list_beq_trans {as bs cs : List α} (h : (as == bs) = true) (h' : (bs == cs) = true) :
    (as == cs) = true := by
  induction as generalizing bs cs with
  | nil => cases bs with
    | nil => exact h'
    | cons b bs => cases h
  | cons a as ih => cases bs with
    | nil => cases h
    | cons b bs => cases cs with
      | nil => cases h'
      | cons c cs =>
        rw [List.cons_beq_cons, Bool.and_eq_true] at h h' ⊢
        exact ⟨PartialEquivBEq.trans h.1 h'.1, ih h.2 h'.2⟩

instance instPartialEquivBEqList : PartialEquivBEq (List α) := ⟨list_beq_symm, list_beq_trans⟩

end

instance [PartialEquivBEq β] : PartialEquivBEq (StringMap β) :=
  partialEquivBEq_of_image StringMap.toList fun _ _ => rfl

/-! ### Binary floating-point numbers -/

namespace Float64

open Float.Model

/-- What the test sees of an unpacked number: nothing of one that is undefined, no sign of a zero,
and the exponent and the mantissa of a finite one. -/
def seen? : UnpackedFloat → Option (Option UnpackedFloat.Sign × Option (Int × Nat))
  | .notANumber => none
  | .zero _ => some (none, none)
  | .infinity sign => some (some sign, none)
  | .finite sign mantissa exponent _ => some (some sign, some (exponent, mantissa))

theorem compare_sign_eq_iff (s s' : UnpackedFloat.Sign) : compare s s' = .eq ↔ s = s' := by
  cases s <;> cases s' <;> simp <;> decide

/-- Two numbers are equal to the test if it sees the same of them, and sees anything. -/
theorem compare_eq_iff (x y : UnpackedFloat) :
    x.compare y = some .eq ↔ seen? x ≠ none ∧ seen? x = seen? y := by
  -- the order is defined by the kinds and the signs
  rcases x with (_ | _) | _ | _ | ⟨_ | _, mantissa, exponent, _⟩ <;>
    rcases y with (_ | _) | _ | _ | ⟨_ | _, mantissa', exponent', _⟩
  all_goals dsimp only [seen?, UnpackedFloat.compare]
  all_goals simp [Ordering.then_eq_eq, compare_sign_eq_iff]

instance instPartialEquivBEqFloat64 : PartialEquivBEq Float where
  symm {x y} hxy := by
    rw [beq_iff_compare?, compare?, compare_eq_iff] at hxy ⊢
    exact ⟨hxy.2 ▸ hxy.1, hxy.2.symm⟩
  trans {x y z} hxy hyz := by
    rw [beq_iff_compare?, compare?, compare_eq_iff] at hxy hyz ⊢
    exact ⟨hxy.1, hxy.2.trans hyz.2⟩

end Float64

/-! ### Values -/

namespace Json

theorem Number.beq_symm [PartialEquivBEq α] {a b : Number α} (h : a.beq b = true) :
    b.beq a = true := by
  cases a <;> cases b <;> try cases h
  case integer.integer => exact PartialEquivBEq.symm (α := Int) h
  case float.float => exact PartialEquivBEq.symm (α := α) h

theorem Number.beq_trans [PartialEquivBEq α] {a b c : Number α} (h : a.beq b = true)
    (h' : b.beq c = true) : a.beq c = true := by
  cases a <;> cases b <;> try cases h
  all_goals cases c <;> try cases h'
  case integer.integer.integer => exact PartialEquivBEq.trans (α := Int) h h'
  case float.float.float => exact PartialEquivBEq.trans (α := α) h h'

mutual

theorem beq_symm [PartialEquivBEq α] : ∀ {a b : Json α}, beq a b = true → beq b a = true
  | .null, .null, h => h
  | .bool _, .bool _, h => PartialEquivBEq.symm (α := Bool) h
  | .number _, .number _, h => Number.beq_symm h
  | .string _, .string _, h => PartialEquivBEq.symm (α := String) h
  | .array _, .array _, h => beqItems_symm h
  | .object _, .object _, h => beqMembers_symm h

theorem beqItems_symm [PartialEquivBEq α] : ∀ {as bs : List (Json α)},
    beq.beqItems as bs = true → beq.beqItems bs as = true
  | [], [], h => h
  | _ :: _, _ :: _, h => by
    rw [beq.beqItems, Bool.and_eq_true] at h ⊢
    exact ⟨beq_symm h.1, beqItems_symm h.2⟩

theorem beqMembers_symm [PartialEquivBEq α] : ∀ {as bs : List (String × Json α)},
    beq.beqMembers as bs = true → beq.beqMembers bs as = true
  | [], [], h => h
  | (_, _) :: _, (_, _) :: _, h => by
    rw [beq.beqMembers, Bool.and_eq_true, Bool.and_eq_true] at h ⊢
    exact ⟨⟨PartialEquivBEq.symm h.1.1, beq_symm h.1.2⟩, beqMembers_symm h.2⟩

end

mutual

theorem beq_trans [PartialEquivBEq α] : ∀ {a b c : Json α},
    beq a b = true → beq b c = true → beq a c = true
  | .null, .null, .null, h, _ => h
  | .bool _, .bool _, .bool _, h, h' => PartialEquivBEq.trans (α := Bool) h h'
  | .number _, .number _, .number _, h, h' => Number.beq_trans h h'
  | .string _, .string _, .string _, h, h' => PartialEquivBEq.trans (α := String) h h'
  | .array _, .array _, .array _, h, h' => beqItems_trans h h'
  | .object _, .object _, .object _, h, h' => beqMembers_trans h h'

theorem beqItems_trans [PartialEquivBEq α] : ∀ {as bs cs : List (Json α)},
    beq.beqItems as bs = true → beq.beqItems bs cs = true → beq.beqItems as cs = true
  | [], [], [], h, _ => h
  | _ :: _, _ :: _, _ :: _, h, h' => by
    rw [beq.beqItems, Bool.and_eq_true] at h h' ⊢
    exact ⟨beq_trans h.1 h'.1, beqItems_trans h.2 h'.2⟩

theorem beqMembers_trans [PartialEquivBEq α] : ∀ {as bs cs : List (String × Json α)},
    beq.beqMembers as bs = true → beq.beqMembers bs cs = true → beq.beqMembers as cs = true
  | [], [], [], h, _ => h
  | (_, _) :: _, (_, _) :: _, (_, _) :: _, h, h' => by
    rw [beq.beqMembers, Bool.and_eq_true, Bool.and_eq_true] at h h' ⊢
    exact ⟨⟨PartialEquivBEq.trans h.1.1 h'.1.1, beq_trans h.1.2 h'.1.2⟩, beqMembers_trans h.2 h'.2⟩

end

instance [PartialEquivBEq α] : PartialEquivBEq (Json α) := ⟨beq_symm, beq_trans⟩

theorem Number.beq_refl [ReflBEq α] (a : Number α) : a.beq a = true := by
  cases a
  case integer n => exact BEq.refl n
  case float x => exact BEq.refl x

mutual

theorem beq_refl [ReflBEq α] : ∀ a : Json α, beq a a = true
  | .null => rfl
  | .bool b => BEq.refl b
  | .number n => Number.beq_refl n
  | .string s => BEq.refl s
  | .array items => beqItems_refl items
  | .object members => beqMembers_refl members

theorem beqItems_refl [ReflBEq α] : ∀ as : List (Json α), beq.beqItems as as = true
  | [] => rfl
  | a :: as => by
    rw [beq.beqItems, Bool.and_eq_true]
    exact ⟨beq_refl a, beqItems_refl as⟩

theorem beqMembers_refl [ReflBEq α] : ∀ as : List (String × Json α), beq.beqMembers as as = true
  | [] => rfl
  | (k, a) :: as => by
    rw [beq.beqMembers, Bool.and_eq_true, Bool.and_eq_true]
    exact ⟨⟨BEq.refl k, beq_refl a⟩, beqMembers_refl as⟩

end

instance [ReflBEq α] : ReflBEq (Json α) := ⟨beq_refl _⟩

end Json

/-! ### Elements -/

section
variable [PartialEquivBEq α]

instance : PartialEquivBEq (TextBody α) :=
  partialEquivBEq_of_image (fun t => (t.content, t.fontSize, t.fontWeight, t.fontFamily))
    fun _ _ => rfl

instance : PartialEquivBEq (QrBody α) :=
  partialEquivBEq_of_image (fun q => (q.content, q.width, q.height, q.showBorder, q.padding))
    fun _ _ => rfl

instance : PartialEquivBEq (BarcodeBody α) :=
  partialEquivBEq_of_image (fun b => (b.content, b.width, b.height)) fun _ _ => rfl

instance : PartialEquivBEq (BoxBody α) :=
  partialEquivBEq_of_image (fun b => (b.width, b.height, b.strokeWidth)) fun _ _ => rfl

/-- Bodies of different kinds are never equal. -/
instance : PartialEquivBEq (Body α) where
  symm {a b} hab := by
    -- the test fails on all other pairs
    cases a <;> cases b <;> try cases hab
    case text.text => exact PartialEquivBEq.symm (α := TextBody α) hab
    case qrcode.qrcode => exact PartialEquivBEq.symm (α := QrBody α) hab
    case barcode.barcode => exact PartialEquivBEq.symm (α := BarcodeBody α) hab
    case box.box => exact PartialEquivBEq.symm (α := BoxBody α) hab
  trans {a b c} hab hbc := by
    cases a <;> cases b <;> try cases hab
    all_goals cases c <;> try cases hbc
    case text.text.text => exact PartialEquivBEq.trans (α := TextBody α) hab hbc
    case qrcode.qrcode.qrcode => exact PartialEquivBEq.trans (α := QrBody α) hab hbc
    case barcode.barcode.barcode => exact PartialEquivBEq.trans (α := BarcodeBody α) hab hbc
    case box.box.box => exact PartialEquivBEq.trans (α := BoxBody α) hab hbc

instance : PartialEquivBEq (Element α) :=
  partialEquivBEq_of_image (fun e => (e.id, e.x, e.y, e.body, e.extra)) fun _ _ => rfl

/-- Floating-point numbers are compared so. -/
example : PartialEquivBEq (Element Float) := inferInstance

end

section
variable [ReflBEq α]

instance : ReflBEq (TextBody α) :=
  reflBEq_of_image (fun t => (t.content, t.fontSize, t.fontWeight, t.fontFamily)) fun _ _ => rfl

instance : ReflBEq (QrBody α) :=
  reflBEq_of_image (fun q => (q.content, q.width, q.height, q.showBorder, q.padding))
    fun _ _ => rfl

instance : ReflBEq (BarcodeBody α) :=
  reflBEq_of_image (fun b => (b.content, b.width, b.height)) fun _ _ => rfl

instance : ReflBEq (BoxBody α) :=
  reflBEq_of_image (fun b => (b.width, b.height, b.strokeWidth)) fun _ _ => rfl

instance : ReflBEq (Body α) where
  rfl {a} := by
    cases a
    case text t => exact BEq.refl t
    case qrcode q => exact BEq.refl q
    case barcode b => exact BEq.refl b
    case box b => exact BEq.refl b

instance : ReflBEq (Element α) :=
  reflBEq_of_image (fun e => (e.id, e.x, e.y, e.body, e.extra)) fun _ _ => rfl

/-- Exact numbers are compared so. -/
example : ReflBEq (Element Rat) := inferInstance

end

end ThermalLabel

import ThermalLabel.Job.Basic
import ThermalLabel.Proofs.Job.EscPos.Stream
import ThermalLabel.Scalar.Binary64

/-! # Arithmetic on dots

Lengths are held at the ends of the 64-bit range when they become dots. What is computed from dots
afterwards is not: it wraps, and then a coordinate of the job is wrong. Only two things are computed
from dots: the place of a QR symbol in its box, and the second strike of bold text. An element keeps
within the range if these do (`Body.KeepsRange`), and a job has the coordinates that it would have
in unbounded arithmetic exactly when all its elements do (`Job.operations_fit_iff`). A QR code whose
box has a side far below zero does not (`Job.wraps_below_zero`). -/

namespace ThermalLabel

/-- Within the 64-bit range. -/
def InInt64 (n : Int) : Prop := Int64.minValue.toInt ≤ n ∧ n ≤ Int64.maxValue.toInt

instance (n : Int) : Decidable (InInt64 n) := inferInstanceAs (Decidable (_ ∧ _))

theorem inInt64_iff {n : Int} :
    InInt64 n ↔ -9223372036854775808 ≤ n ∧ n ≤ 9223372036854775807 := Iff.rfl

theorem inInt64_toInt (n : Int64) : InInt64 n.toInt :=
  ⟨n.minValue_le_toInt, Int.le_of_lt_add_one n.toInt_lt⟩

/-- A number keeps its value in 64 bits if it is in the range, and no other does. -/
theorem bmod_eq_self_iff {n : Int} : n.bmod 18446744073709551616 = n ↔ InInt64 n := by
  rw [inInt64_iff, Int.bmod_def]
  omega

/-- An operation on dots. -/
inductive DotOperation where
  | sum (a b : Int64)
  | difference (a b : Int64)
  | product (a b : Int64)
deriving DecidableEq

namespace DotOperation

/-- The result in unbounded arithmetic. -/
def exact : DotOperation → Int
  | .sum a b => a.toInt + b.toInt
  | .difference a b => a.toInt - b.toInt
  | .product a b => a.toInt * b.toInt

/-- The result in 64 bits. -/
def result : DotOperation → Int64
  | .sum a b => a + b
  | .difference a b => a - b
  | .product a b => a * b

/-- The exact result is within the range. -/
def Fits (o : DotOperation) : Prop := InInt64 o.exact

instance : DecidablePred Fits := fun o => inferInstanceAs (Decidable (InInt64 o.exact))

theorem toInt_result (o : DotOperation) : o.result.toInt = o.exact.bmod 18446744073709551616 := by
  cases o with
  | sum a b => exact a.toInt_add b
  | difference a b => exact a.toInt_sub b
  | product a b => exact a.toInt_mul b

theorem fits_iff {o : DotOperation} : o.Fits ↔ o.result.toInt = o.exact := by
  rw [toInt_result, bmod_eq_self_iff, Fits]

end DotOperation

/-! ### The place of a QR symbol -/

namespace QrLayout

/-- The operations of a layout and of the corner of its symbol, in their order. -/
def operations (l : QrLayout) : List DotOperation :=
  let steps := Int64.ofNat l.version - 1
  [.difference (Int64.ofNat l.version) 1, .product steps 4, .sum 21 (steps * 4),
    .product l.modules l.cell, .difference l.usable (l.modules * l.cell),
    .sum l.originX l.offset, .sum l.originY l.offset]

/-- What the symbol leaves of the usable width; less than nothing if it runs over. -/
def slack (l : QrLayout) : Int := l.usable.toInt - l.modules.toInt * l.cell.toInt

/-- The corner of the symbol in unbounded arithmetic. -/
def exactCorner (l : QrLayout) : Int × Int :=
  (l.originX.toInt + l.slack / 2, l.originY.toInt + l.slack / 2)

/-- What the symbol leaves and its corner are within the range. -/
structure InRange (l : QrLayout) : Prop where
  slack : InInt64 l.slack
  x : InInt64 l.exactCorner.1
  y : InInt64 l.exactCorner.2

instance : DecidablePred InRange := fun l =>
  decidable_of_iff (InInt64 l.slack ∧ InInt64 l.exactCorner.1 ∧ InInt64 l.exactCorner.2)
    ⟨fun ⟨slack, x, y⟩ => ⟨slack, x, y⟩, fun h => ⟨h.slack, h.x, h.y⟩⟩

theorem toInt_floorDiv {a b : Int64} (hb : 0 < b.toInt) :
    (floorDiv a b).toInt = a.toInt / b.toInt := by
  have ha := inInt64_iff.mp (inInt64_toInt a)
  have hlow : -9223372036854775808 ≤ a.toInt / b.toInt := by
    rw [Int.le_ediv_iff_mul_le hb]
    have hscaled : -9223372036854775808 * b.toInt ≤ -9223372036854775808 * 1 :=
      Int.mul_le_mul_of_nonpos_left (by decide) hb
    omega
  have hhigh : a.toInt / b.toInt ≤ 9223372036854775807 := by
    rcases Int.le_total 0 a.toInt with hpos | hneg
    · exact Int.le_trans (Int.ediv_le_self _ hpos) ha.2
    · exact Int.le_trans (Int.ediv_nonpos_of_nonpos_of_neg hneg hb) (by decide)
  exact Int64.toInt_ofInt_of_le hlow (by omega)

theorem estimatedVersion_le (length : Nat) : estimatedVersion length ≤ 10 := by
  have hprefix := List.takeWhile_prefix (l := capacities) fun capacity => capacity < length
  exact Nat.succ_le_succ hprefix.length_le

/-- Counting the modules stays far within the range. -/
theorem moduleCount_fits {version : Nat} (hpos : 0 < version) (hle : version ≤ 10) :
    (moduleCount version).toInt = 17 + 4 * version ∧
    (DotOperation.difference (Int64.ofNat version) 1).Fits ∧
    (DotOperation.product (Int64.ofNat version - 1) 4).Fits ∧
    (DotOperation.sum 21 ((Int64.ofNat version - 1) * 4)).Fits := by
  revert hpos
  revert version
  decide

/-- What is known of a layout: the symbol has 21 to 57 modules on a side, and it covers no more than
the usable width unless its cell is one dot. -/
structure Measured (l : QrLayout) : Prop where
  version : 0 < l.version ∧ l.version ≤ 10
  modules : l.modules = moduleCount l.version
  covered : 0 ≤ l.modules.toInt * l.cell.toInt ∧
    l.modules.toInt * l.cell.toInt ≤ max l.usable.toInt 57
  offset : l.offset = floorDiv (l.usable - l.modules * l.cell) 2

/-- A cell that fits, or that is held at a limit below it, covers no more than is usable. -/
theorem covered_of_le {modules usable cell : Int} (hmodules : 0 < modules) (hcell : 0 ≤ cell)
    (hle : cell ≤ max (usable / modules) 1) :
    0 ≤ modules * cell ∧ modules * cell ≤ max usable modules := by
  refine ⟨Int.mul_nonneg (Int.le_of_lt hmodules) hcell, ?_⟩
  have hcovered : modules * cell ≤ modules * max (usable / modules) 1 :=
    Int.mul_le_mul_of_nonneg_left hle (Int.le_of_lt hmodules)
  have hfitting : modules * (usable / modules) ≤ usable := Int.mul_ediv_self_le (by omega)
  rcases Int.le_total (usable / modules) 1 with hone | hmore
  · rw [Int.max_eq_right hone, Int.mul_one] at hcovered
    omega
  · rw [Int.max_eq_left hmore] at hcovered
    omega

/-- The modules that are estimated for a number of characters. -/
theorem toInt_modules (length : Nat) :
    (moduleCount (estimatedVersion length)).toInt = 17 + 4 * estimatedVersion length :=
  (moduleCount_fits (Nat.succ_pos _) (estimatedVersion_le length)).1

/-- The cell that fits, in unbounded arithmetic. -/
theorem toInt_fitting (length : Nat) (usable : Int64) :
    (max (floorDiv usable (moduleCount (estimatedVersion length))) 1).toInt =
      max (usable.toInt / (moduleCount (estimatedVersion length)).toInt) 1 := by
  have hmodules := toInt_modules length
  rw [EscPos.toInt_max, toInt_floorDiv (by omega)]
  rfl

theorem measured_ofLength (length : Nat) (usable originX originY : Int64) {maxCell : Option Int64}
    (hmax : ∀ cap ∈ maxCell, 0 ≤ cap.toInt) :
    (ofLength length usable originX originY maxCell).Measured := by
  have hversion : 0 < estimatedVersion length ∧ estimatedVersion length ≤ 10 :=
    ⟨Nat.succ_pos _, estimatedVersion_le length⟩
  have hmodules := toInt_modules length
  have hpos : 0 < (moduleCount (estimatedVersion length)).toInt := by omega
  refine ⟨hversion, rfl, ?_, rfl⟩
  have hfitting := toInt_fitting length usable
  have hcell : 0 ≤ (ofLength length usable originX originY maxCell).cell.toInt ∧
      (ofLength length usable originX originY maxCell).cell.toInt ≤
        max (usable.toInt / (moduleCount (estimatedVersion length)).toInt) 1 := by
    rw [← hfitting]
    cases maxCell with
    | none =>
      simp only [ofLength, Option.map_none, Option.getD_none]
      omega
    | some cap =>
      have hcap := hmax cap rfl
      simp only [ofLength, Option.map_some, Option.getD_some]
      rw [EscPos.toInt_min]
      omega
  obtain ⟨hnonneg, hcovered⟩ := covered_of_le hpos hcell.1 hcell.2
  refine ⟨hnonneg, Int.le_trans hcovered ?_⟩
  show max usable.toInt (moduleCount (estimatedVersion length)).toInt ≤ max usable.toInt 57
  omega

variable {l : QrLayout}

theorem Measured.product_fits (h : l.Measured) : (DotOperation.product l.modules l.cell).Fits := by
  have husable := inInt64_iff.mp (inInt64_toInt l.usable)
  have hcovered := h.covered
  refine inInt64_iff.mpr ?_
  show _ ≤ l.modules.toInt * l.cell.toInt ∧ l.modules.toInt * l.cell.toInt ≤ _
  omega

/-- What the symbol leaves, as the difference that is computed. -/
theorem Measured.exact_difference (h : l.Measured) :
    (DotOperation.difference l.usable (l.modules * l.cell)).exact = l.slack := by
  have hproduct : (l.modules * l.cell).toInt = l.modules.toInt * l.cell.toInt :=
    DotOperation.fits_iff.mp h.product_fits
  rw [DotOperation.exact, hproduct, slack]

theorem Measured.toInt_offset (h : l.Measured) :
    l.offset.toInt = l.slack.bmod 18446744073709551616 / 2 := by
  have hdifference := (DotOperation.difference l.usable (l.modules * l.cell)).toInt_result
  rw [h.exact_difference] at hdifference
  rw [h.offset, toInt_floorDiv (by decide)]
  exact congrArg (· / 2) hdifference

theorem Measured.fit_iff (h : l.Measured) :
    (∀ o ∈ l.operations, o.Fits) ↔ l.InRange := by
  obtain ⟨-, hone, hfour, hmodules⟩ := moduleCount_fits h.version.1 h.version.2
  have hdifference : (DotOperation.difference l.usable (l.modules * l.cell)).Fits ↔
      InInt64 l.slack := by rw [DotOperation.Fits, h.exact_difference]
  simp only [operations, List.forall_mem_cons, hone, hfour, hmodules, h.product_fits, hdifference,
    true_and, List.not_mem_nil, false_imp_iff, implies_true, and_true]
  -- the sums are about the offset, which is exact once the difference is
  constructor
  · rintro ⟨hslack, hx, hy⟩
    have hoffset := h.toInt_offset
    rw [bmod_eq_self_iff.mpr hslack] at hoffset
    rw [DotOperation.Fits, DotOperation.exact, hoffset] at hx hy
    exact ⟨hslack, hx, hy⟩
  · rintro ⟨hslack, hx, hy⟩
    have hoffset := h.toInt_offset
    rw [bmod_eq_self_iff.mpr hslack] at hoffset
    refine ⟨hslack, ?_, ?_⟩
    · rwa [DotOperation.Fits, DotOperation.exact, hoffset]
    · rwa [DotOperation.Fits, DotOperation.exact, hoffset]

/-- A corner is right exactly when nothing wraps. A width that wraps moves the symbol by half of the
range, which no second wrap undoes. -/
theorem Measured.corner_exact_iff (h : l.Measured) :
    (l.x.toInt, l.y.toInt) = l.exactCorner ↔ l.InRange := by
  have hx := (DotOperation.sum l.originX l.offset).toInt_result
  have hy := (DotOperation.sum l.originY l.offset).toInt_result
  rw [DotOperation.exact, h.toInt_offset] at hx hy
  have hslack : l.slack ≤ 9223372036854775807 := by
    have husable := inInt64_iff.mp (inInt64_toInt l.usable)
    have hcovered := h.covered
    unfold slack
    omega
  constructor
  · intro hcorner
    have hcornerX : l.x.toInt = l.originX.toInt + l.slack / 2 := congrArg Prod.fst hcorner
    have hcornerY : l.y.toInt = l.originY.toInt + l.slack / 2 := congrArg Prod.snd hcorner
    have hinX := inInt64_toInt l.x
    have hinY := inInt64_toInt l.y
    rw [hcornerX] at hinX
    rw [hcornerY] at hinY
    refine ⟨?_, hinX, hinY⟩
    have husable := inInt64_iff.mp (inInt64_toInt l.usable)
    have hcovered := h.covered
    rw [x] at hcornerX
    rw [DotOperation.result, hcornerX, Int.bmod_def, Int.bmod_def] at hx
    rw [inInt64_iff]
    unfold slack at *
    omega
  · rintro ⟨hin, hinX, hinY⟩
    rw [bmod_eq_self_iff.mpr hin] at hx hy
    exact Prod.ext (hx.trans (bmod_eq_self_iff.mpr hinX)) (hy.trans (bmod_eq_self_iff.mpr hinY))

end QrLayout

/-! ### Bodies -/

namespace Job

/-- Whether a language draws lines and strikes bold text twice. Page mode does neither. -/
def isGraphic : Language → Bool
  | .tspl | .zpl => true
  | .escpos => false

/-- The largest cell that a language has. -/
def maxCell? : Language → Option Int64
  | .zpl => some Zpl.maxMagnification
  | .tspl | .escpos => none

variable {α : Type} [Scalar α]

/-- The layout of a QR code in a language. -/
def layout (lang : Language) (position : Point α) (vars : Variables) (q : QrBody α) : QrLayout :=
  QrLayout.of position q (vars.resolve q.content) (maxCell? lang)

/-- The operations on dots for a body at a position. -/
def bodyOperations (lang : Language) (position : Point α) (vars : Variables) :
    Body α → List DotOperation
  | .text t => if isGraphic lang && t.fontWeight == .bold then [.sum (dots position.x) 1] else []
  | .qrcode q => (layout lang position vars q).operations
  | .barcode _ | .box _ => []

/-- The corners that a body is drawn from, given how the second strike of a text and the corner of
a QR symbol are computed. -/
def cornersBy (second : Int64 → Int) (corner : QrLayout → Int × Int) (lang : Language)
    (position : Point α) (vars : Variables) (b : Body α) : List (Int × Int) :=
  let x := dots position.x
  let y := (dots position.y).toInt
  match b with
  | .text t =>
    (x.toInt, y) :: if isGraphic lang && t.fontWeight == .bold then [(second x, y)] else []
  | .barcode _ => [(x.toInt, y)]
  | .qrcode q =>
    (if isGraphic lang && q.showBorder then [(x.toInt, y)] else []) ++
      [corner (layout lang position vars q)]
  | .box _ => if isGraphic lang then [(x.toInt, y)] else []

/-- The corners as they are computed. -/
def corners (lang : Language) (position : Point α) (vars : Variables) (b : Body α) :
    List (Int × Int) :=
  cornersBy (fun x => (x + 1).toInt) (fun l => (l.x.toInt, l.y.toInt)) lang position vars b

/-- The corners in unbounded arithmetic. -/
def exactCorners (lang : Language) (position : Point α) (vars : Variables) (b : Body α) :
    List (Int × Int) :=
  cornersBy (fun x => x.toInt + 1) QrLayout.exactCorner lang position vars b

end Job

/-- A body whose second strike is not beyond the range, and whose symbol is within it. -/
def Body.KeepsRange {α : Type} [Scalar α] (lang : Language) (position : Point α)
    (vars : Variables) : Body α → Prop
  | .text t =>
    Job.isGraphic lang = true → t.fontWeight = .bold → dots position.x ≠ Int64.maxValue
  | .qrcode q => (Job.layout lang position vars q).InRange
  | .barcode _ | .box _ => True

namespace Job

variable {α : Type} [Scalar α] {lang : Language} {position : Point α} {vars : Variables}

theorem measured_layout (lang : Language) (position : Point α) (vars : Variables) (q : QrBody α) :
    (layout lang position vars q).Measured := by
  refine QrLayout.measured_ofLength _ _ _ _ fun cap hcap => ?_
  cases lang with
  | zpl =>
    obtain rfl := Option.some.inj hcap
    decide
  | tspl | escpos => cases hcap

/-- The second strike is one dot to the right of every dot but the last. -/
theorem second_fits_iff (x : Int64) : (DotOperation.sum x 1).Fits ↔ x ≠ Int64.maxValue := by
  have hrange := inInt64_iff.mp (inInt64_toInt x)
  rw [DotOperation.Fits, inInt64_iff, ne_eq, ← Int64.toInt_inj]
  show _ ≤ x.toInt + 1 ∧ x.toInt + 1 ≤ _ ↔ ¬ x.toInt = 9223372036854775807
  omega

theorem bodyOperations_fit_iff (b : Body α) :
    (∀ o ∈ bodyOperations lang position vars b, o.Fits) ↔ b.KeepsRange lang position vars := by
  cases b with
  | text t =>
    simp only [bodyOperations, Body.KeepsRange]
    split_ifs with htwice
    · rw [Bool.and_eq_true, beq_iff_eq] at htwice
      simp [htwice, second_fits_iff]
    · rw [Bool.and_eq_true, beq_iff_eq] at htwice
      simp only [List.not_mem_nil, false_imp_iff, implies_true, true_iff]
      exact fun hgraphic hbold => absurd ⟨hgraphic, hbold⟩ htwice
  | qrcode q => exact (measured_layout lang position vars q).fit_iff
  | barcode _ => simp [bodyOperations, Body.KeepsRange]
  | box _ => simp [bodyOperations, Body.KeepsRange]

theorem corners_eq_iff (b : Body α) :
    corners lang position vars b = exactCorners lang position vars b ↔
      b.KeepsRange lang position vars := by
  cases b with
  | text t =>
    rw [← bodyOperations_fit_iff]
    simp only [corners, exactCorners, cornersBy, bodyOperations]
    split_ifs
    · simp only [List.cons.injEq, Prod.mk.injEq, true_and, and_true, List.mem_singleton,
        forall_eq, DotOperation.fits_iff]
      rfl
    · simp
  | qrcode q =>
    rw [Body.KeepsRange, ← (measured_layout lang position vars q).corner_exact_iff]
    simp [corners, exactCorners, cornersBy]
  | barcode _ => simp [corners, exactCorners, cornersBy, Body.KeepsRange]
  | box _ => simp [corners, exactCorners, cornersBy, Body.KeepsRange]

theorem length_corners (b : Body α) :
    (corners lang position vars b).length = (exactCorners lang position vars b).length := by
  cases b <;> simp only [corners, exactCorners, cornersBy] <;> split_ifs <;> rfl

/-! ### Jobs -/

/-- The operations on dots of a job. -/
def operations (lang : Language) (d : Document α) (vars : Variables) : List DotOperation :=
  d.elements.flatMap fun e => bodyOperations lang e.position vars e.body

/-- A corner as a language writes it. Page mode has the row first, and both in sixteen bits. -/
def written : Language → Int × Int → List Int
  | .tspl, (x, y) | .zpl, (x, y) => [x, y]
  | .escpos, (x, y) => [min (max y 0) 65535, min (max x 0) 65535]

/-- The coordinates of a job in unbounded arithmetic. -/
def exactCoordinates (lang : Language) (d : Document α) (vars : Variables) : List Int :=
  (d.elements.flatMap fun e => exactCorners lang e.position vars e.body).flatMap (written lang)

end Job

/-- The coordinates in a line command; those of a box are its top left corner. -/
def Tspl.Command.coordinates {α : Type} : Command α → List Int
  | .text x y _ _ _ | .barcode x y _ _ | .qrcode x y _ _ | .box x y _ _ _ => [x.toInt, y.toInt]
  | _ => []

/-- The coordinates in a caret command. -/
def Zpl.Command.coordinates : Command → List Int
  | .fieldOrigin x y => [x.toInt, y.toInt]
  | _ => []

/-- The coordinates on a line of caret commands. -/
def Zpl.lineCoordinates (l : Line) : List Int := l.flatMap Command.coordinates

/-- The coordinates in a page mode command. -/
def EscPos.Command.coordinates : Command → List Int
  | .verticalPosition n | .horizontalPosition n => [n.toNat]
  | _ => []

namespace Job

variable {α : Type} [Scalar α] {lang : Language} {position : Point α} {vars : Variables}

/-- The coordinates of a job. -/
def coordinates (lang : Language) (d : Document α) (vars : Variables) : List Int :=
  match lang with
  | .tspl => (Tspl.commands d vars).flatMap Tspl.Command.coordinates
  | .zpl => (Zpl.lines d vars).flatMap Zpl.lineCoordinates
  | .escpos => (EscPos.commands d vars).flatMap EscPos.Command.coordinates

theorem coordinates_line_commands (position : Point α) (vars : Variables) (b : Body α) :
    (Tspl.bodyCommands position vars b).flatMap Tspl.Command.coordinates =
      (corners .tspl position vars b).flatMap (written .tspl) := by
  cases b with
  | text t =>
    cases hweight : t.fontWeight <;>
      simp [Tspl.bodyCommands, corners, cornersBy, hweight, Tspl.Command.coordinates, isGraphic,
        written]
  | qrcode q =>
    cases hborder : q.showBorder <;>
      simp [Tspl.bodyCommands, corners, cornersBy, hborder, Tspl.outline, Tspl.Command.coordinates,
        layout, maxCell?, isGraphic, written]
  | barcode _ => rfl
  | box _ => rfl

/-- Data has no coordinates. -/
theorem coordinates_dataCommands (data : String) :
    (Zpl.dataCommands data).flatMap Zpl.Command.coordinates = [] := by
  unfold Zpl.dataCommands
  split_ifs <;> rfl

theorem coordinates_caret_commands (position : Point α) (vars : Variables) (b : Body α) :
    (Zpl.bodyLines position vars b).flatMap Zpl.lineCoordinates =
      (corners .zpl position vars b).flatMap (written .zpl) := by
  cases b with
  | text t =>
    cases hweight : t.fontWeight <;>
      simp [Zpl.bodyLines, corners, cornersBy, hweight, Zpl.lineCoordinates,
        Zpl.Command.coordinates, coordinates_dataCommands, isGraphic, written]
  | qrcode q =>
    cases hborder : q.showBorder <;>
      simp [Zpl.bodyLines, corners, cornersBy, hborder, Zpl.outline, Zpl.lineCoordinates,
        Zpl.Command.coordinates, coordinates_dataCommands, layout, maxCell?, isGraphic, written]
  | barcode _ =>
    simp [Zpl.bodyLines, corners, cornersBy, Zpl.lineCoordinates, Zpl.Command.coordinates,
      coordinates_dataCommands, written]
  | box _ => rfl

theorem coordinates_moveTo (x y : Int64) :
    (EscPos.moveTo (EscPos.clampWord x) (EscPos.clampWord y)).flatMap EscPos.Command.coordinates =
      written .escpos (x.toInt, y.toInt) := by
  simp only [EscPos.moveTo, List.flatMap_cons, List.flatMap_nil, EscPos.Command.coordinates,
    EscPos.toNat_clampWord, EscPos.held, written, List.cons_append, List.nil_append,
    List.cons.injEq, and_true]
  omega

theorem coordinates_page_commands (position : Point α) (vars : Variables) (b : Body α) :
    (EscPos.bodyCommands position vars b).flatMap EscPos.Command.coordinates =
      (corners .escpos position vars b).flatMap (written .escpos) := by
  cases b with
  | text t =>
    simp [EscPos.bodyCommands, EscPos.dotsWord, coordinates_moveTo, corners, cornersBy,
      EscPos.Command.coordinates, isGraphic]
  | qrcode q =>
    simp [EscPos.bodyCommands, EscPos.qrCommands, coordinates_moveTo, corners, cornersBy,
      EscPos.Command.coordinates, layout, maxCell?, isGraphic]
  | barcode _ =>
    simp [EscPos.bodyCommands, EscPos.dotsWord, coordinates_moveTo, corners, cornersBy,
      EscPos.Command.coordinates]
  | box _ => rfl

/-- The coordinates of a job are those of its corners as they are computed. -/
theorem coordinates_eq (lang : Language) (d : Document α) (vars : Variables) :
    coordinates lang d vars =
      (d.elements.flatMap fun e => corners lang e.position vars e.body).flatMap (written lang) := by
  rw [List.flatMap_assoc]
  cases lang with
  | tspl =>
    have helements := List.flatMap_congr fun (e : Element α) (_ : e ∈ d.elements) =>
      coordinates_line_commands e.position vars e.body
    simp only [coordinates, Tspl.commands, List.flatMap_append, List.flatMap_assoc, ← helements]
    simp [Tspl.elementCommands, Tspl.Command.coordinates]
  | zpl =>
    have helements := List.flatMap_congr fun (e : Element α) (_ : e ∈ d.elements) =>
      coordinates_caret_commands e.position vars e.body
    simp only [coordinates, Zpl.lines, List.flatMap_append, List.flatMap_assoc, ← helements]
    simp [Zpl.elementLines, Zpl.lineCoordinates, Zpl.Command.coordinates]
  | escpos =>
    have helements := List.flatMap_congr fun (e : Element α) (_ : e ∈ d.elements) =>
      coordinates_page_commands e.position vars e.body
    simp only [coordinates, EscPos.commands, List.flatMap_append, List.flatMap_assoc, ← helements]
    simp [EscPos.elementCommands, EscPos.Command.coordinates]

/-- Parts of the same lengths put together are equal only if they are equal one by one. -/
theorem flatMap_eq_iff {β γ : Type} {f g : β → List γ} (h : ∀ b, (f b).length = (g b).length)
    (l : List β) : l.flatMap f = l.flatMap g ↔ ∀ b ∈ l, f b = g b := by
  refine ⟨fun heq => ?_, List.flatMap_congr⟩
  induction l with
  | nil => exact fun _ hb => absurd hb List.not_mem_nil
  | cons b l ih =>
    rw [List.flatMap_cons, List.flatMap_cons] at heq
    obtain ⟨hhead, htail⟩ := List.append_inj heq (h b)
    exact List.forall_mem_cons.mpr ⟨hhead, ih htail⟩

/-- What is written can be told apart, but for page mode. -/
theorem flatMap_written_injective (h : isGraphic lang = true) :
    Function.Injective fun corners : List (Int × Int) => corners.flatMap (written lang) := by
  have hpair : ∀ corner, written lang corner = [corner.1, corner.2] := by
    cases lang with
    | tspl | zpl => exact fun _ => rfl
    | escpos => cases h
  intro corners
  induction corners with
  | nil =>
    intro more hmore
    cases more with
    | nil => rfl
    | cons corner more => simp [hpair] at hmore
  | cons corner corners ih =>
    intro more hmore
    cases more with
    | nil => simp [hpair] at hmore
    | cons corner' more =>
      simp only [List.flatMap_cons, hpair, List.cons_append, List.nil_append, List.cons.injEq]
        at hmore
      rw [Prod.ext hmore.1 hmore.2.1, ih hmore.2.2]

/-- **Where a job wraps.** No operation on dots leaves the 64-bit range exactly when every element
keeps within it. Then the job has the coordinates of unbounded arithmetic, and otherwise a job with
lines or carets has not. -/
theorem operations_fit_iff (lang : Language) (d : Document α) (vars : Variables) :
    ((∀ o ∈ operations lang d vars, o.Fits) ↔
      ∀ e ∈ d.elements, e.body.KeepsRange lang e.position vars) ∧
    ((∀ o ∈ operations lang d vars, o.Fits) →
      coordinates lang d vars = exactCoordinates lang d vars) ∧
    (isGraphic lang = true → coordinates lang d vars = exactCoordinates lang d vars →
      ∀ o ∈ operations lang d vars, o.Fits) := by
  have hfit : (∀ o ∈ operations lang d vars, o.Fits) ↔
      ∀ e ∈ d.elements, e.body.KeepsRange lang e.position vars := by
    simp only [operations, List.forall_mem_flatMap, bodyOperations_fit_iff]
  have hcorners : (d.elements.flatMap fun e => corners lang e.position vars e.body) =
      (d.elements.flatMap fun e => exactCorners lang e.position vars e.body) ↔
      ∀ e ∈ d.elements, e.body.KeepsRange lang e.position vars := by
    rw [flatMap_eq_iff fun e : Element α => length_corners e.body]
    exact forall₂_congr fun e _ => corners_eq_iff e.body
  refine ⟨hfit, fun hfits => ?_, fun hgraphic hexact => ?_⟩
  · rw [coordinates_eq, hcorners.mpr (hfit.mp hfits), exactCoordinates]
  · rw [coordinates_eq, exactCoordinates] at hexact
    exact hfit.mpr (hcorners.mp (flatMap_written_injective hgraphic hexact))

/-- A label with a text struck twice and a QR code in a box. -/
def boldAndFramed : Document Float where
  labelSize := LabelSize.standard
  elements := [
    { id := "t", x := 10, y := 5, body := .text ⟨"\x7bname\x7d", 12, .bold, Font.defaultFamily⟩,
      extra := StringMap.empty },
    { id := "q", x := 20, y := 5, body := .qrcode ⟨"\x7bsku\x7d", 15, 15, true, 1⟩,
      extra := StringMap.empty }]

/-- Nothing wraps on an ordinary label. -/
theorem bold_and_framed_exact :
    (coordinates .tspl boldAndFramed StringMap.empty =
      exactCoordinates .tspl boldAndFramed StringMap.empty) ∧
    ∀ o ∈ operations .zpl boldAndFramed StringMap.empty, o.Fits := by
  obtain ⟨-, hexact, -⟩ := operations_fit_iff .tspl boldAndFramed StringMap.empty
  obtain ⟨-, -, hfits⟩ := operations_fit_iff .zpl boldAndFramed StringMap.empty
  exact ⟨hexact (by decide +kernel), hfits rfl (by decide +kernel)⟩

/-- A QR code with a box that reaches far to the left of its corner. -/
def belowZero : Document Float where
  labelSize := ⟨"t", 50, 30⟩
  elements := [{
    id := "a"
    x := 0
    y := 0
    body := .qrcode ⟨"A", -2000000000000000000, 15, false, 0⟩
    extra := StringMap.empty }]

/-- **Not every job keeps within the range.** The width of the box is held at the lower end of the
range, the modules of the symbol are taken from it, and the symbol lands far to the right instead of
far to the left. -/
theorem wraps_below_zero :
    (∃ o ∈ operations .tspl belowZero StringMap.empty, ¬ o.Fits) ∧
    coordinates .tspl belowZero StringMap.empty = [4611686018427387893, 4611686018427387893] ∧
    exactCoordinates .tspl belowZero StringMap.empty =
      [-4611686018427387915, -4611686018427387915] := by
  decide +kernel

end Job

end ThermalLabel

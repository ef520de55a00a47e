import Mathlib.Data.List.TakeWhile
import Mathlib.Order.Bounds.Basic
import ThermalLabel.Proofs.Job.Range

/-! # QR symbols

The cell of a symbol is at least one dot. If the symbol fits at all, it is the largest one that lets
it fit, up to the limit of the printer, and what is left over lies evenly on both sides, also when
the symbol runs over (`QrLayout.Sized`). A longer content never has the larger cell
(`QrLayout.Denser`).

The languages have limits of their own: caret commands know no cell above ten dots, page mode writes
positions in sixteen bits. Within all of these limits the three languages draw the same symbol at
the same place (`Job.elementSymbols_of_portable`). -/

namespace ThermalLabel

namespace QrLayout

/-! ### The cell -/

/-- A cell held at a limit, if there is one. -/
def capped (maxCell : Option Int64) (cell : Int) : Int :=
  (maxCell.map fun cap => min cell cap.toInt).getD cell

variable {maxCell : Option Int64} {short long : Nat}

/-- Below a capped cell is what is below the cell and below the limit. -/
theorem le_capped_iff {n cell : Int} :
    n ≤ capped maxCell cell ↔ n ≤ cell ∧ ∀ cap ∈ maxCell, n ≤ cap.toInt := by
  cases maxCell with
  | none => simp [capped]
  | some cap => simp [capped]

theorem toInt_cell (length : Nat) (usable originX originY : Int64) (maxCell : Option Int64) :
    (ofLength length usable originX originY maxCell).cell.toInt =
      capped maxCell (max (usable.toInt / (moduleCount (estimatedVersion length)).toInt) 1) := by
  rw [← toInt_fitting]
  cases maxCell with
  | none => rfl
  | some cap => exact EscPos.toInt_min _ cap

/-- What a layout makes of the usable width. -/
structure Sized (l : QrLayout) (maxCell : Option Int64) : Prop where
  one_le : 1 ≤ l.cell.toInt
  greatest : l.modules.toInt ≤ l.usable.toInt →
    IsGreatest {cell : Int | (∀ cap ∈ maxCell, cell ≤ cap.toInt) ∧
      l.modules.toInt * cell ≤ l.usable.toInt} l.cell.toInt
  halved : InInt64 l.slack →
    l.slack = 2 * l.offset.toInt ∨ l.slack = 2 * l.offset.toInt + 1

theorem sized_ofLength (hcap : ∀ cap ∈ maxCell, 1 ≤ cap.toInt) (length : Nat)
    (usable originX originY : Int64) :
    (ofLength length usable originX originY maxCell).Sized maxCell := by
  have hmodules := toInt_modules length
  have hpos : 0 < (moduleCount (estimatedVersion length)).toInt := by omega
  refine ⟨?_, fun hfits => ?_, fun hslack => ?_⟩
  · rw [toInt_cell, le_capped_iff]
    exact ⟨Int.le_max_right _ _, hcap⟩
  · change (moduleCount (estimatedVersion length)).toInt ≤ usable.toInt at hfits
    have hone : 1 ≤ usable.toInt / (moduleCount (estimatedVersion length)).toInt := by
      rwa [Int.le_ediv_iff_mul_le hpos, Int.one_mul]
    have hcell := toInt_cell length usable originX originY maxCell
    rw [Int.max_eq_left hone] at hcell
    rw [hcell]
    constructor
    · obtain ⟨hfitting, hcaps⟩ := le_capped_iff.mp (Int.le_refl (capped maxCell _))
      refine ⟨hcaps, ?_⟩
      rwa [Int.le_ediv_iff_mul_le hpos, Int.mul_comm] at hfitting
    · rintro cell ⟨hcaps, hcovered⟩
      refine le_capped_iff.mpr ⟨?_, hcaps⟩
      rwa [Int.le_ediv_iff_mul_le hpos, Int.mul_comm]
  · have hmeasured := measured_ofLength length usable originX originY
      fun cap hmem => Int.le_trans (by decide) (hcap cap hmem)
    have hoffset := hmeasured.toInt_offset
    rw [bmod_eq_self_iff.mpr hslack] at hoffset
    omega

/-! ### Longer contents -/

/-- The layout of a longer content in the same box. -/
structure Denser (l l' : QrLayout) : Prop where
  version : l.version ≤ l'.version
  modules : l.modules.toInt ≤ l'.modules.toInt
  cell : l'.cell.toInt ≤ l.cell.toInt

/-- What passes the lower test passes the higher one too, so it is longer until that one stops. -/
theorem estimatedVersion_le_of_le (h : short ≤ long) :
    estimatedVersion short ≤ estimatedVersion long := by
  have hboth : capacities.takeWhile (fun capacity => capacity < short) =
      (capacities.takeWhile fun capacity => capacity < long).takeWhile
        fun capacity => capacity < short := by
    rw [List.takeWhile_takeWhile]
    congr 1
    funext capacity
    simp only [decide_eq_true_eq, decide_eq_decide]
    omega
  have hprefix := List.takeWhile_prefix (l := capacities.takeWhile fun capacity => capacity < long)
    fun capacity => capacity < short
  rw [← hboth] at hprefix
  exact Nat.succ_le_succ hprefix.length_le

/-- Of more modules in the same width each has no more dots. -/
theorem fitting_le_of_le {modules modules' usable : Int} (hpos : 0 < modules)
    (hle : modules ≤ modules') : max (usable / modules') 1 ≤ max (usable / modules) 1 := by
  rcases Int.le_total (usable / modules') 1 with hone | hmore
  · rw [Int.max_eq_right hone]
    exact Int.le_max_right _ _
  · have hcovered : usable / modules' * modules' ≤ usable :=
      (Int.le_ediv_iff_mul_le (Int.lt_of_lt_of_le hpos hle)).mp (Int.le_refl _)
    have hsmaller : usable / modules' * modules ≤ usable / modules' * modules' :=
      Int.mul_le_mul_of_nonneg_left hle (Int.le_trans (by decide) hmore)
    have hfitting : usable / modules' ≤ usable / modules :=
      (Int.le_ediv_iff_mul_le hpos).mpr (Int.le_trans hsmaller hcovered)
    rw [Int.max_eq_left hmore]
    exact Int.le_trans hfitting (Int.le_max_left _ _)

theorem denser_ofLength (h : short ≤ long) (usable originX originY : Int64)
    (maxCell : Option Int64) :
    Denser (ofLength short usable originX originY maxCell)
      (ofLength long usable originX originY maxCell) := by
  have hversion := estimatedVersion_le_of_le h
  have hshort := toInt_modules short
  have hlong := toInt_modules long
  have hmodules : (moduleCount (estimatedVersion short)).toInt ≤
      (moduleCount (estimatedVersion long)).toInt := by omega
  refine ⟨hversion, hmodules, ?_⟩
  rw [toInt_cell, toInt_cell, le_capped_iff]
  obtain ⟨hfitting, hcaps⟩ := le_capped_iff.mp (Int.le_refl (capped maxCell _))
  exact ⟨Int.le_trans hfitting (fitting_le_of_le (by omega) hmodules), hcaps⟩

/-- A limit that the cell keeps to by itself changes nothing. -/
theorem ofLength_of_cell_le {length : Nat} {usable originX originY cap : Int64}
    (h : (ofLength length usable originX originY none).cell.toInt ≤ cap.toInt) :
    ofLength length usable originX originY (some cap) =
      ofLength length usable originX originY none := by
  have hcell : min (max (floorDiv usable (moduleCount (estimatedVersion length))) 1) cap =
      max (floorDiv usable (moduleCount (estimatedVersion length))) 1 :=
    if_pos (Int64.le_iff_toInt_le.mpr h)
  simp only [ofLength, Option.map_some, Option.getD_some, Option.map_none, Option.getD_none, hcell]

end QrLayout

/-! ### Symbols on paper -/

/-- A QR symbol as it is printed: its top left corner and the side of its modules, in dots. -/
structure PrintedSymbol where
  x : Int
  y : Int
  cell : Int
deriving DecidableEq

/-- The symbol of a layout. -/
def QrLayout.symbol (l : QrLayout) : PrintedSymbol := ⟨l.x.toInt, l.y.toInt, l.cell.toInt⟩

/-- A layout within the limits of all languages. -/
structure QrLayout.Portable (l : QrLayout) : Prop where
  cell : l.cell.toInt ≤ 10
  x : 0 ≤ l.x.toInt ∧ l.x.toInt ≤ 65535
  y : 0 ≤ l.y.toInt ∧ l.y.toInt ≤ 65535

/-- The symbol of a line command. -/
def Tspl.Command.symbol? {α : Type} : Command α → Option PrintedSymbol
  | .qrcode x y cell _ => some ⟨x.toInt, y.toInt, cell.toInt⟩
  | _ => none

/-- The symbol of a line of caret commands: the magnification stands after the origin. -/
def Zpl.lineSymbol? : Line → Option PrintedSymbol
  | .fieldOrigin x y :: .qrcode magnification :: _ =>
    some ⟨x.toInt, y.toInt, magnification.toInt⟩
  | _ => none

namespace EscPos

/-- What a printer in page mode has been told last of a position and of the cell of symbols. -/
structure Pen where
  x : UInt16
  y : UInt16
  cell : UInt8

/-- The pen after a command. -/
def Pen.after (p : Pen) : Command → Pen
  | .verticalPosition y => { p with y }
  | .horizontalPosition x => { p with x }
  | .qrCell cell => { p with cell }
  | _ => p

/-- The symbols that commands print, each one where the pen is by then. -/
def symbols (p : Pen) : List Command → List PrintedSymbol
  | [] => []
  | .qrPrint :: rest => ⟨p.x.toNat, p.y.toNat, p.cell.toNat⟩ :: symbols p rest
  | c :: rest => symbols (p.after c) rest

end EscPos

namespace Job

variable {α : Type} [Scalar α]

/-- The symbols of an element in a language, whatever has been printed before it. -/
def elementSymbols (lang : Language) (before : EscPos.Pen) (vars : Variables) (e : Element α) :
    List PrintedSymbol :=
  match lang with
  | .tspl => (Tspl.elementCommands vars e).filterMap Tspl.Command.symbol?
  | .zpl => (Zpl.elementLines vars e).filterMap Zpl.lineSymbol?
  | .escpos => EscPos.symbols before (EscPos.elementCommands vars e)

theorem symbols_line_commands (position : Point α) (vars : Variables) (q : QrBody α) :
    (Tspl.bodyCommands position vars (.qrcode q)).filterMap Tspl.Command.symbol? =
      [(layout .tspl position vars q).symbol] := by
  cases hborder : q.showBorder
  all_goals
    simp only [Tspl.bodyCommands, hborder]
    rfl

theorem symbols_caret_commands (position : Point α) (vars : Variables) (q : QrBody α) :
    (Zpl.bodyLines position vars (.qrcode q)).filterMap Zpl.lineSymbol? =
      [(layout .zpl position vars q).symbol] := by
  cases hborder : q.showBorder
  all_goals
    simp only [Zpl.bodyLines, hborder]
    rfl

/-- Page mode holds what it writes within its bytes. -/
theorem symbols_page_commands (before : EscPos.Pen) (position : Point α) (vars : Variables)
    (q : QrBody α) :
    EscPos.symbols before (EscPos.bodyCommands position vars (.qrcode q)) =
      [⟨EscPos.held 0 65535 (layout .escpos position vars q).x,
        EscPos.held 0 65535 (layout .escpos position vars q).y,
        EscPos.held 1 255 (layout .escpos position vars q).cell⟩] := by
  rw [← EscPos.toNat_clampWord, ← EscPos.toNat_clampWord, ← EscPos.toNat_clampByte]
  rfl

/-- A symbol within the limits is drawn the same in every language. -/
theorem elementSymbols_of_portable {vars : Variables} {e : Element α} {q : QrBody α}
    (hbody : e.body = .qrcode q) (h : (layout .tspl e.position vars q).Portable) (lang : Language)
    (before : EscPos.Pen) :
    elementSymbols lang before vars e = [(layout .tspl e.position vars q).symbol] := by
  obtain ⟨hcell, hx, hy⟩ := h
  cases lang with
  | tspl =>
    rw [elementSymbols, Tspl.elementCommands, hbody, symbols_line_commands]
  | zpl =>
    have hcapped : layout .zpl e.position vars q = layout .tspl e.position vars q :=
      QrLayout.ofLength_of_cell_le hcell
    rw [elementSymbols, Zpl.elementLines, hbody, symbols_caret_commands, hcapped]
  | escpos =>
    have hone : 1 ≤ (layout .tspl e.position vars q).cell.toInt :=
      (QrLayout.sized_ofLength (fun _ hnone => absurd hnone (Option.not_mem_none _)) _ _ _ _).one_le
    have hsame : layout .escpos e.position vars q = layout .tspl e.position vars q := rfl
    rw [elementSymbols, EscPos.elementCommands, hbody, symbols_page_commands, hsame,
      QrLayout.symbol]
    simp only [EscPos.held, List.cons.injEq, PrintedSymbol.mk.injEq, and_true]
    omega

end Job

namespace QrLayout

/-- **How large a QR symbol is, and where it lies.** The three languages agree within their
limits. -/
theorem symbols_sized_and_shared :
    (∀ (length : Nat) (usable originX originY : Int64) (maxCell : Option Int64),
      (∀ cap ∈ maxCell, 1 ≤ cap.toInt) →
      (ofLength length usable originX originY maxCell).Sized maxCell) ∧
    (∀ (short long : Nat) (usable originX originY : Int64) (maxCell : Option Int64),
      short ≤ long →
      Denser (ofLength short usable originX originY maxCell)
        (ofLength long usable originX originY maxCell)) ∧
    (∀ (α : Type) [Scalar α] (e : Element α) (q : QrBody α) (vars : Variables),
      e.body = .qrcode q → (of e.position q (vars.resolve q.content) none).Portable →
      ∀ lang before, Job.elementSymbols lang before vars e =
        [(of e.position q (vars.resolve q.content) none).symbol]) := by
  refine ⟨fun length usable originX originY maxCell hcap => ?_,
    fun short long usable originX originY maxCell h => ?_, fun α _ e q vars hbody h => ?_⟩
  · exact sized_ofLength hcap length usable originX originY
  · exact denser_ofLength h usable originX originY maxCell
  · exact Job.elementSymbols_of_portable hbody h

/-- A QR code of fifteen millimetres with a border. -/
def bordered : QrBody Float := ⟨"SKU-000123", 15, 15, true, 1⟩

/-- An element that shows it. -/
def borderedElement : Element Float :=
  { id := "q", x := 10, y := 5, body := .qrcode bordered, extra := StringMap.empty }

/-- The code is drawn with a cell of four dots in every language. A content that is too long for its
box runs over by as much on the left as on the right, but for half a dot. -/
theorem bordered_symbol_shared :
    ((ofLength 1000 24 0 0 (some 10)).Sized (some 10) ∧
      (ofLength 1000 24 0 0 (some 10)).cell = 1 ∧
      (ofLength 1000 24 0 0 (some 10)).slack = 2 * -17 + 1) ∧
    Denser (ofLength 10 104 88 48 none) (ofLength 1000 104 88 48 none) ∧
    ∀ lang before, Job.elementSymbols lang before StringMap.empty borderedElement =
      [⟨98, 58, 4⟩] := by
  obtain ⟨hsized, hdenser, hshared⟩ := symbols_sized_and_shared
  have hportable : (of borderedElement.position bordered
      (Variables.resolve StringMap.empty bordered.content) none).Portable :=
    ⟨by decide +kernel, by decide +kernel, by decide +kernel⟩
  have hsymbol : (of borderedElement.position bordered
      (Variables.resolve StringMap.empty bordered.content) none).symbol = ⟨98, 58, 4⟩ := by
    decide +kernel
  have hcap : ∀ cap ∈ some (10 : Int64), 1 ≤ cap.toInt := by
    rintro cap ⟨⟩
    decide
  refine ⟨⟨hsized 1000 24 0 0 (some 10) hcap, by decide, by decide⟩,
    hdenser 10 1000 104 88 48 none (by decide), fun lang before => ?_⟩
  rw [hshared Float borderedElement bordered StringMap.empty rfl hportable lang before, hsymbol]

end QrLayout

end ThermalLabel

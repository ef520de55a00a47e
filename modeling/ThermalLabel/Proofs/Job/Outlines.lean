import Mathlib.Algebra.Order.Group.Int
import ThermalLabel.Proofs.Job.Range
import ThermalLabel.Proofs.Scalar.Rational

/-! # Outlines

Line commands have an outline from corner to corner, and both corners are rounded to dots. Caret
commands have its corner and its sides, and it is the sides that are rounded. Each of the three
numbers along an axis is at most half a dot off, so the two outlines differ by at most one dot
(`Element.outlines_agree`), and they can differ by one (`Element.outlines_one_dot_apart`). -/

namespace ThermalLabel

/-! ### Dots of exact lengths -/

/-- The dots of a length, at whatever distance. -/
def exactDots (millimetres : Rat) : Int := (Rational.round (millimetres * 8)).num

theorem abs_exactDots_sub_le (millimetres : Rat) :
    |(exactDots millimetres : Rat) - millimetres * 8| ≤ 1 / 2 := by
  obtain ⟨n, hround, hnear⟩ := Rational.exists_round_eq (millimetres * 8)
  rwa [exactDots, hround, Rat.num_intCast]

theorem toInt_clampInt64 {n : Int} (h : InInt64 n) : (Scalar.clampInt64 n).toInt = n := by
  obtain ⟨hlow, hhigh⟩ := inInt64_iff.mp h
  have hheld : min (max n Int64.minValue.toInt) Int64.maxValue.toInt = n := by
    rw [Int.max_eq_left h.1, Int.min_eq_left h.2]
  rw [Scalar.clampInt64, hheld]
  exact Int64.toInt_ofInt_of_le hlow (by omega)

/-- Within the range dots are exact. -/
theorem toInt_dots {millimetres : Rat} (h : InInt64 (exactDots millimetres)) :
    (dots millimetres).toInt = exactDots millimetres := by
  obtain ⟨n, hround, -⟩ := Rational.exists_round_eq (millimetres * 8)
  have hexact : exactDots millimetres = n := by rw [exactDots, hround, Rat.num_intCast]
  have hdots : dots millimetres = Scalar.clampInt64 n := by
    show Scalar.clampInt64 ((Rational.round (millimetres * 8)).num.tdiv
      (Rational.round (millimetres * 8)).den) = _
    rw [hround, Rat.num_intCast, Rat.den_intCast, Nat.cast_one, Int.tdiv_one]
  rw [hexact] at h ⊢
  rw [hdots, toInt_clampInt64 h]

/-- **Of a side it does not matter by more than one dot whether its ends are rounded or its
length.** -/
theorem abs_exactDots_add_sub_le (start length : Rat) :
    |exactDots (start + length) - exactDots start - exactDots length| ≤ 1 := by
  have hstart := abs_le.mp (abs_exactDots_sub_le start)
  have hlength := abs_le.mp (abs_exactDots_sub_le length)
  have hfinish := abs_le.mp (abs_exactDots_sub_le (start + length))
  have hlow : (-2 : Rat) < exactDots (start + length) - exactDots start - exactDots length := by
    linarith
  have hhigh : (exactDots (start + length) - exactDots start - exactDots length : Rat) < 2 := by
    linarith
  have hlow' : -2 < exactDots (start + length) - exactDots start - exactDots length := by
    exact_mod_cast hlow
  have hhigh' : exactDots (start + length) - exactDots start - exactDots length < 2 := by
    exact_mod_cast hhigh
  exact abs_le.mpr ⟨by omega, by omega⟩

/-- The dots of a side, of its start and of its end are within the range. -/
structure SideInRange (start length : Rat) : Prop where
  begins : InInt64 (exactDots start)
  ends : InInt64 (exactDots (start + length))
  covers : InInt64 (exactDots length)

theorem SideInRange.abs_sub_le {start length : Rat} (h : SideInRange start length) :
    |(dots (start + length)).toInt - (dots start).toInt - (dots length).toInt| ≤ 1 := by
  rw [toInt_dots h.begins, toInt_dots h.ends, toInt_dots h.covers]
  exact abs_exactDots_add_sub_le start length

/-! ### The outlines of an element -/

/-- The outline of a rectangle on paper, in dots. -/
structure DrawnOutline where
  x : Int
  y : Int
  width : Int
  height : Int
  thickness : Int
deriving DecidableEq

/-- The outline of a line command, its sides taken from its corners. -/
def Tspl.Command.outline? {α : Type} : Command α → Option DrawnOutline
  | .box left top right bottom thickness =>
    some ⟨left.toInt, top.toInt, right.toInt - left.toInt, bottom.toInt - top.toInt,
      thickness.toInt⟩
  | _ => none

/-- The outline of a line of caret commands: its sides stand after its corner. -/
def Zpl.lineOutline? : Line → Option DrawnOutline
  | .fieldOrigin x y :: .graphicBox width height thickness :: _ =>
    some ⟨x.toInt, y.toInt, width.toInt, height.toInt, thickness.toInt⟩
  | _ => none

variable {α : Type} [Scalar α]

/-- The size and the thickness of the outline of a body. Boxes have one, and QR codes if they have a
border. -/
def Body.outline? : Body α → Option (Size α × Int64)
  | .box b => some (⟨b.width, b.height⟩, max (dots b.strokeWidth) 1)
  | .qrcode q => if q.showBorder then some (⟨q.width, q.height⟩, QrLayout.borderDots) else none
  | .text _ | .barcode _ => none

theorem outlines_line_commands (position : Point α) (vars : Variables) (b : Body α) :
    (Tspl.bodyCommands position vars b).filterMap Tspl.Command.outline? =
      b.outline?.toList.map fun (size, thickness) =>
        ⟨(dots position.x).toInt, (dots position.y).toInt,
          (dots (position.x + size.width)).toInt - (dots position.x).toInt,
          (dots (position.y + size.height)).toInt - (dots position.y).toInt, thickness.toInt⟩ := by
  cases b with
  | text t => cases hweight : t.fontWeight <;> simp only [Tspl.bodyCommands, hweight] <;> rfl
  | barcode _ => rfl
  | qrcode q =>
    cases hborder : q.showBorder <;> simp only [Tspl.bodyCommands, Body.outline?, hborder] <;> rfl
  | box _ => rfl

theorem outlines_caret_commands (position : Point α) (vars : Variables) (b : Body α) :
    (Zpl.bodyLines position vars b).filterMap Zpl.lineOutline? =
      b.outline?.toList.map fun (size, thickness) =>
        ⟨(dots position.x).toInt, (dots position.y).toInt, (dots size.width).toInt,
          (dots size.height).toInt, thickness.toInt⟩ := by
  cases b with
  | text t => cases hweight : t.fontWeight <;> simp only [Zpl.bodyLines, hweight] <;> rfl
  | barcode _ => rfl
  | qrcode q =>
    cases hborder : q.showBorder <;> simp only [Zpl.bodyLines, Body.outline?, hborder] <;> rfl
  | box _ => rfl

namespace Element

/-- **Line commands and caret commands draw the same outline**, but for a dot on the right and at
the bottom. -/
theorem outlines_agree (vars : Variables) {e : Element Rat} {size : Size Rat} {thickness : Int64}
    (houtline : e.body.outline? = some (size, thickness)) :
    ∃ line caret : DrawnOutline,
      (Tspl.elementCommands vars e).filterMap Tspl.Command.outline? = [line] ∧
      (Zpl.elementLines vars e).filterMap Zpl.lineOutline? = [caret] ∧
      line.x = caret.x ∧ line.y = caret.y ∧ line.thickness = caret.thickness ∧
      (SideInRange e.x size.width → |line.width - caret.width| ≤ 1) ∧
      (SideInRange e.y size.height → |line.height - caret.height| ≤ 1) := by
  have hline := outlines_line_commands e.position vars e.body
  have hcaret := outlines_caret_commands e.position vars e.body
  rw [houtline] at hline hcaret
  exact ⟨_, _, hline, hcaret, rfl, rfl, rfl, fun hside => hside.abs_sub_le,
    fun hside => hside.abs_sub_le⟩

/-- A box one sixteenth of a millimetre from the left edge and just as wide, which begins above the
top edge. -/
def narrowBox : Element Rat :=
  { id := "b", x := 1 / 16, y := -3 / 10, body := .box ⟨1 / 16, 7 / 10, 1 / 2⟩,
    extra := StringMap.empty }

/-- Half a dot at either end: from corner to corner nothing is left of the width of one dot. -/
theorem outlines_one_dot_apart :
    (∃ line caret : DrawnOutline,
      (Tspl.elementCommands StringMap.empty narrowBox).filterMap Tspl.Command.outline? = [line] ∧
      (Zpl.elementLines StringMap.empty narrowBox).filterMap Zpl.lineOutline? = [caret] ∧
      line.x = caret.x ∧ line.y = caret.y ∧ line.thickness = caret.thickness ∧
      |line.width - caret.width| ≤ 1 ∧ |line.height - caret.height| ≤ 1) ∧
    (Tspl.elementCommands StringMap.empty narrowBox).filterMap Tspl.Command.outline? =
      [⟨1, -2, 0, 5, 4⟩] ∧
    (Zpl.elementLines StringMap.empty narrowBox).filterMap Zpl.lineOutline? =
      [⟨1, -2, 1, 6, 4⟩] := by
  obtain ⟨line, caret, hline, hcaret, hx, hy, hthickness, hwidth, hheight⟩ :=
    outlines_agree StringMap.empty (e := narrowBox) rfl
  refine ⟨⟨line, caret, hline, hcaret, hx, hy, hthickness, hwidth ?_, hheight ?_⟩, ?_, ?_⟩
  · exact ⟨by decide +kernel, by decide +kernel, by decide +kernel⟩
  · exact ⟨by decide +kernel, by decide +kernel, by decide +kernel⟩
  · decide +kernel
  · decide +kernel

end Element

end ThermalLabel

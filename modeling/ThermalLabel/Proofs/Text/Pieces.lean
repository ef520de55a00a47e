import ThermalLabel.Decimal.Text

/-! # Texts in pieces

A job is read by taking it apart at a character that ends a command or begins one. What is written
around that character comes back in one piece each, as long as it does not hold the character
itself. Numbers hold nothing but digits, signs and points, so no job is cut inside of a number. -/

namespace ThermalLabel.Text

/-- The pieces of a text between the occurrences of a character. -/
def cut (separator : Char) (s : String) : List (List Char) := s.toList.splitOn separator

section
variable {c : Char} {pieces : List (List Char)}

theorem splitOn_append_flatMap_cons (h : ∀ p ∈ pieces, c ∉ p) {front : List Char}
    (hfront : c ∉ front) :
    (front ++ pieces.flatMap (c :: ·)).splitOn c = front :: pieces := by
  -- the first piece of the rest becomes the next front
  induction pieces generalizing front with
  | nil =>
    rw [List.flatMap_nil, List.append_nil]
    exact List.splitOn_eq_singleton hfront
  | cons p pieces ih =>
    have hp : c ∉ p := h p List.mem_cons_self
    have hrest : ∀ q ∈ pieces, c ∉ q := fun q hq => h q (List.mem_cons_of_mem p hq)
    rw [List.flatMap_cons, List.cons_append, List.splitOn_append_cons_self_of_not_mem hfront,
      ih hrest hp]

/-- A text in which the character begins every piece. -/
theorem cut_of_begins {s : String} (hs : s.toList = pieces.flatMap (c :: ·))
    (h : ∀ p ∈ pieces, c ∉ p) : cut c s = [] :: pieces := by
  unfold cut
  rw [hs]
  exact splitOn_append_flatMap_cons h List.not_mem_nil

/-- A text in which the character ends every piece. -/
theorem cut_of_ends {s : String} (hs : s.toList = pieces.flatMap (· ++ [c]))
    (h : ∀ p ∈ pieces, c ∉ p) : cut c s = pieces ++ [[]] := by
  unfold cut
  rw [hs]
  clear hs
  induction pieces with
  | nil => rfl
  | cons p pieces ih =>
    have hp : c ∉ p := h p List.mem_cons_self
    have hrest : ∀ q ∈ pieces, c ∉ q := fun q hq => h q (List.mem_cons_of_mem p hq)
    rw [List.flatMap_cons, List.append_assoc, List.singleton_append,
      List.splitOn_append_cons_self_of_not_mem hp, ih hrest, List.cons_append]

theorem not_mem_of_mem_splitOn {cs p : List Char} (h : p ∈ cs.splitOn c) : c ∉ p := by
  induction cs generalizing p with
  | nil =>
    obtain rfl : p = [] := List.mem_singleton.mp h
    exact List.not_mem_nil
  | cons d cs ih =>
    rw [List.splitOn_cons_eq_if_modifyHead] at h
    by_cases hd : d = c
    · rw [if_pos (beq_iff_eq.mpr hd)] at h
      rcases List.mem_cons.mp h with rfl | h
      · exact List.not_mem_nil
      · exact ih h
    · rw [if_neg (by simpa using hd)] at h
      obtain ⟨first, rest, hsplit⟩ := List.exists_cons_of_ne_nil (List.splitOn_ne_nil c cs)
      rw [hsplit] at ih
      rw [hsplit, List.modifyHead_cons] at h
      rcases List.mem_cons.mp h with rfl | h
      · exact List.not_mem_cons_of_ne_of_not_mem (Ne.symm hd) (ih List.mem_cons_self)
      · exact ih (List.mem_cons_of_mem first h)

theorem length_cut (s : String) : (cut c s).length = s.toList.count c + 1 := by
  unfold cut
  induction s.toList with
  | nil => rfl
  | cons d cs ih =>
    rw [List.splitOn_cons_eq_if_modifyHead, List.count_cons]
    by_cases hd : (d == c) = true
    · rw [if_pos hd, if_pos hd, List.length_cons, ih]
    · rw [if_neg hd, if_neg hd, List.length_modifyHead, ih]

theorem count_intercalate (h : pieces ≠ []) :
    ([c].intercalate pieces).count c + 1 = pieces.length + pieces.flatten.count c := by
  induction pieces with
  | nil => exact absurd rfl h
  | cons p pieces ih =>
    cases pieces with
    | nil =>
      rw [List.intercalate_singleton, List.flatten_singleton, List.length_singleton]
      omega
    | cons q pieces =>
      have hrest := ih (List.cons_ne_nil q pieces)
      rw [List.intercalate_cons_cons, List.count_append, List.count_append,
        List.count_singleton_self, List.flatten_cons, List.count_append, List.length_cons]
      omega

/-- A text in which the character stands between the pieces is cut into as many pieces exactly when
none of them holds it. -/
theorem length_cut_iff {s : String} (hs : s.toList = [c].intercalate pieces) (h : pieces ≠ []) :
    (cut c s).length = pieces.length ↔ ∀ p ∈ pieces, c ∉ p := by
  have hcount := count_intercalate (c := c) h
  have hflatten : c ∉ pieces.flatten ↔ ∀ p ∈ pieces, c ∉ p := by simp
  rw [length_cut, hs, hcount, ← hflatten, ← List.count_eq_zero]
  omega

end

/-! ### Numbers -/

section
variable {c : Char}

theorem not_mem_toDigits (h : c.isDigit = false) (n : Nat) : c ∉ Nat.toDigits 10 n := by
  intro hc
  have hdigit := Nat.isDigit_of_mem_toDigits (by decide) (by decide) hc
  rw [h] at hdigit
  cases hdigit

theorem not_mem_int (h : c.isDigit = false) (hminus : c ≠ '-') (n : Int) :
    c ∉ (toString n).toList := by
  rw [Int.toString_eq_repr, Int.repr_eq_if]
  split
  · rw [Nat.toList_repr]
    exact not_mem_toDigits h _
  · rw [String.toList_append, Nat.toList_repr]
    intro hc
    rcases List.mem_append.mp hc with hc | hc
    · exact hminus (List.mem_singleton.mp hc)
    · exact not_mem_toDigits h _ hc

theorem not_mem_zeros (h : c ≠ '0') (n : Nat) : c ∉ (Decimal.zeros n).toList := by
  unfold Decimal.zeros
  rw [String.toList_ofList]
  exact fun hc => h (List.eq_of_mem_replicate hc)

/-- Without a power of ten, a decimal has digits and at most a point. -/
theorem not_mem_positional (h : c.isDigit = false) (hpoint : c ≠ '.') (d : Decimal.Digits) :
    c ∉ (d.positional false).toList := by
  have hdigits : c ∉ d.text := not_mem_toDigits h d.significand
  have hzero : c ≠ '0' := by rintro rfl; cases h
  have hzeros : ∀ n, c ∉ (Decimal.zeros n).toList := not_mem_zeros hzero
  have htake : ∀ n, c ∉ d.text.take n := fun n hc => hdigits (List.mem_of_mem_take hc)
  have hdrop : ∀ n, c ∉ d.text.drop n := fun n hc => hdigits (List.mem_of_mem_drop hc)
  unfold Decimal.Digits.positional
  cases d.exponent with
  | ofNat e => simp [hdigits, hzeros]
  | negSucc e =>
    by_cases hplaces : e + 1 < d.text.length
    · simp [hplaces, htake, hdrop, hpoint]
    · simp [hplaces, hdigits, hzeros, hzero, hpoint]

end

/-- Floating-point numbers are written on one line, also those that have no digits. -/
theorem newline_not_mem_plain (x : Float) : '\n' ∉ (NumberText.plain x).toList := by
  show '\n' ∉ (Decimal.plainBinary64 (Binary64.ofFloat x)).toList
  cases Binary64.ofFloat x with
  | finite negative m q =>
    have hwrite : ∀ d : Decimal.Digits, '\n' ∉ (Decimal.plainStyle.write d).toList :=
      not_mem_positional rfl (by decide)
    have hzero : '\n' ∉ Decimal.plainStyle.zero.toList := by decide
    by_cases hm : m = 0
    · cases negative <;> simp [Decimal.plainBinary64, Decimal.writeBinary64, hm, hzero]
    · cases negative <;> simp [Decimal.plainBinary64, Decimal.writeBinary64, hm, hwrite]
  | infinite negative => cases negative <;> decide
  | undefined => decide

end ThermalLabel.Text

import ThermalLabel.Proofs.Text.Pieces
import ThermalLabel.Text.Hex

/-! # Hexadecimal text read back

Every row of bytes is read back from its pairs of digits. -/

namespace ThermalLabel.Text

/-- The value of a hexadecimal digit in upper case. -/
def hexDigitValue? (c : Char) : Option Nat :=
  if '0' ≤ c ∧ c ≤ '9' then some (c.toNat - 48)
  else if 'A' ≤ c ∧ c ≤ 'F' then some (c.toNat - 55)
  else none

/-- The number that two digits stand for. -/
def pairValue? (high low : Char) : Option Nat := do
  let high ← hexDigitValue? high
  let low ← hexDigitValue? low
  return 16 * high + low

/-- The byte that is written as a pair of digits. -/
def byte? : List Char → Option UInt8
  | [high, low] => (pairValue? high low).map Nat.toUInt8
  | _ => none

/-- The bytes of a text of pairs with single blanks between them. -/
def unhex? (s : String) : Option (List UInt8) :=
  match cut ' ' s with
  | [[]] => some []
  | pairs => pairs.mapM byte?

theorem hexDigitValue?_hexDigit {n : Nat} (h : n < 16) : hexDigitValue? (hexDigit n) = some n := by
  revert n
  decide

theorem pairValue?_hexDigit {n : Nat} (h : n < 256) :
    pairValue? (hexDigit (n / 16)) (hexDigit (n % 16)) = some n := by
  have hhigh : n / 16 < 16 := by omega
  have hlow : n % 16 < 16 := by omega
  have hsum : 16 * (n / 16) + n % 16 = n := by omega
  unfold pairValue?
  rw [hexDigitValue?_hexDigit hhigh, hexDigitValue?_hexDigit hlow]
  exact congrArg some hsum

theorem byte?_hexPair (b : UInt8) : byte? (hexPair b).toList = some b := by
  have hpair : byte? (hexPair b).toList =
      (pairValue? (hexDigit (b.toNat / 16)) (hexDigit (b.toNat % 16))).map Nat.toUInt8 := by
    unfold hexPair
    rw [String.toList_ofList]
    rfl
  rw [hpair, pairValue?_hexDigit b.toNat_lt]
  exact congrArg some (UInt8.ofNat_toNat ..)

theorem hexDigit_ne {c : Char} (h : hexDigitValue? c = none) {n : Nat} (hn : n < 16) :
    c ≠ hexDigit n := by
  rintro rfl
  rw [hexDigitValue?_hexDigit hn] at h
  cases h

/-- A pair has two digits and nothing else. -/
theorem not_mem_hexPair {c : Char} (h : hexDigitValue? c = none) (b : UInt8) :
    c ∉ (hexPair b).toList := by
  have hb : b.toNat < 256 := b.toNat_lt
  have hhigh : c ≠ hexDigit (b.toNat / 16) := hexDigit_ne h (by omega)
  have hlow : c ≠ hexDigit (b.toNat % 16) := hexDigit_ne h (by omega)
  simp [hexPair, hhigh, hlow]

theorem mapM_byte?_hexPair (bytes : List UInt8) :
    (bytes.map fun b => (hexPair b).toList).mapM byte? = some bytes := by
  induction bytes with
  | nil => rfl
  | cons b bytes ih => simp [byte?_hexPair, ih]

theorem toList_hexBytes (bytes : List UInt8) :
    (hexBytes bytes).toList = [' '].intercalate (bytes.map fun b => (hexPair b).toList) := by
  unfold hexBytes
  rw [String.toList_intercalate, List.map_map]
  rfl

theorem cut_hexBytes {bytes : List UInt8} (h : bytes ≠ []) :
    cut ' ' (hexBytes bytes) = bytes.map fun b => (hexPair b).toList := by
  unfold cut
  rw [toList_hexBytes]
  refine List.splitOn_intercalate ' ' (fun pair hpair => ?_) (by simpa using h)
  obtain ⟨b, -, rfl⟩ := List.mem_map.mp hpair
  exact not_mem_hexPair rfl b

theorem unhex?_hexBytes (bytes : List UInt8) : unhex? (hexBytes bytes) = some bytes := by
  -- a text without bytes is one empty piece, which is not a pair
  cases bytes with
  | nil => rfl
  | cons b bytes =>
    have hread := mapM_byte?_hexPair (b :: bytes)
    unfold unhex?
    rw [cut_hexBytes (List.cons_ne_nil b bytes)]
    split
    · next hempty => simp [hexPair] at hempty
    · exact hread

/-! ### Rows of bytes -/

/-- Between the digits there are blanks only. -/
theorem not_mem_hexBytes {c : Char} (h : hexDigitValue? c = none) (hblank : c ≠ ' ')
    (bytes : List UInt8) : c ∉ (hexBytes bytes).toList := by
  rw [toList_hexBytes]
  induction bytes with
  | nil => exact List.not_mem_nil
  | cons b bytes ih =>
    cases bytes with
    | nil =>
      rw [List.map_singleton, List.intercalate_singleton]
      exact not_mem_hexPair h b
    | cons b' bytes =>
      rw [List.map_cons, List.map_cons, List.intercalate_cons_cons]
      rw [List.map_cons] at ih
      simp [not_mem_hexPair h b, hblank, ih]

theorem hexBytes_eq_empty {bytes : List UInt8} : hexBytes bytes = "" ↔ bytes = [] := by
  refine ⟨fun h => ?_, fun h => by rw [h]; rfl⟩
  have hread := unhex?_hexBytes bytes
  rw [h] at hread
  exact (Option.some.inj hread).symm

theorem hexBytes_append {bytes bytes' : List UInt8} (h : bytes ≠ []) (h' : bytes' ≠ []) :
    hexBytes (bytes ++ bytes') = hexBytes bytes ++ " " ++ hexBytes bytes' := by
  unfold hexBytes
  rw [List.map_append]
  exact String.intercalate_append_of_ne_nil (by simpa using h) (by simpa using h')

/-- Rows one after another are written as one row. -/
theorem hexBytes_flatten {rows : List (List UInt8)} (h : ∀ row ∈ rows, row ≠ []) :
    hexBytes rows.flatten = " ".intercalate (rows.map hexBytes) := by
  induction rows with
  | nil => rfl
  | cons row rows ih =>
    have hrow : row ≠ [] := h row List.mem_cons_self
    have hrest : ∀ row' ∈ rows, row' ≠ [] := fun row' hr => h row' (List.mem_cons_of_mem row hr)
    cases rows with
    | nil => simp
    | cons row' rows =>
      have hflatten : (row' :: rows).flatten ≠ [] := by
        have hrow' := hrest row' List.mem_cons_self
        simp [hrow']
      rw [List.flatten_cons, hexBytes_append hrow hflatten, ih hrest, List.map_cons, List.map_cons,
        List.map_cons, String.intercalate_cons_cons]

end ThermalLabel.Text

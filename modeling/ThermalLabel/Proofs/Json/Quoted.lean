import ThermalLabel.Json.Quoted

/-! # JSON strings read back

Every string is read back from between its quotes, whatever follows them. The reader takes it in two
steps, from characters to pieces and from pieces to characters, and what one character is escaped to
is one piece: a control character without a short escape is a UTF-16 unit, which is never half of a
pair. -/

namespace ThermalLabel.Json.Quoted

theorem unit?_hexChar {n : Nat} (h : n < 0x20) :
    unit? '0' '0' (hexChar (n / 16)) (hexChar (n % 16)) = some n := by
  revert n
  decide

/-- The piece that a character is escaped to. -/
def pieceOf (c : Char) : Piece :=
  if c.toNat < 0x20 ∧ c ∉ ['\x08', '\x0c', '\n', '\r', '\t'] then .unit c.toNat else .plain c

theorem scan_unit {a b c d : Char} {n : Nat} (h : unit? a b c d = some n) (read : List Piece)
    (rest : List Char) :
    scan read ('\\' :: 'u' :: a :: b :: c :: d :: rest) = scan (.unit n :: read) rest := by
  rw [scan]
  simp only [h]

theorem scan_short {e c : Char} (h : shortEscape? e = some c) (read : List Piece)
    (rest : List Char) : scan read ('\\' :: e :: rest) = scan (.plain c :: read) rest := by
  have hu : e ≠ 'u' := by
    rintro rfl
    cases h
  rw [scan.eq_4 _ _ _ (fun _ _ _ _ _ heq => absurd heq hu)]
  simp only [h]

theorem scan_plain {c : Char} (h : ¬ c.toNat < 0x20) (hquote : c ≠ '"') (hback : c ≠ '\\')
    (read : List Piece) (rest : List Char) :
    scan read (c :: rest) = scan (.plain c :: read) rest := by
  have htest : ¬ (decide (c.toNat < 0x20) || c == '\\') = true := by
    simp [hback, Nat.le_of_not_lt h]
  rw [scan.eq_5 _ _ _ hquote (fun _ _ _ _ _ heq => absurd heq hback)
    (fun _ _ heq => absurd heq hback), if_neg htest]

/-- What a character is escaped to is read as its piece. -/
theorem scan_escape (c : Char) (read : List Piece) (rest : List Char) :
    scan read (escape c ++ rest) = scan (pieceOf c :: read) rest := by
  unfold escape
  split
  iterate 7 exact scan_short rfl read rest
  next hquote hback hb hf hn hr ht =>
    unfold pieceOf
    by_cases hcontrol : c.toNat < 0x20
    · have hnone : c ∉ ['\x08', '\x0c', '\n', '\r', '\t'] := by
        simp only [List.mem_cons, List.not_mem_nil, or_false, not_or]
        exact ⟨hb, hf, hn, hr, ht⟩
      rw [if_pos hcontrol, if_pos ⟨hcontrol, hnone⟩]
      exact scan_unit (unit?_hexChar hcontrol) read rest
    · rw [if_neg hcontrol, if_neg fun h => hcontrol h.1]
      exact scan_plain hcontrol hquote hback read rest

theorem scan_flatMap_escape (cs : List Char) (read : List Piece) (rest : List Char) :
    scan read (cs.flatMap escape ++ '"' :: rest) = some (read.reverse ++ cs.map pieceOf, rest) := by
  induction cs generalizing read with
  | nil => rw [List.map_nil, List.append_nil]; rfl
  | cons c cs ih =>
    rw [List.flatMap_cons, List.append_assoc, scan_escape, ih, List.reverse_cons, List.append_assoc,
      List.map_cons]
    rfl

theorem characters_unit {n : Nat} (h : n < 0x20) (read : List Char) (pieces : List Piece) :
    characters read (.unit n :: pieces) = characters (Char.ofNat n :: read) pieces := by
  have hleading : isLeading n = false := by
    simp only [isLeading, Bool.and_eq_false_imp, decide_eq_true_eq]
    omega
  have htrailing : isTrailing n = false := by
    simp only [isTrailing, Bool.and_eq_false_imp, decide_eq_true_eq]
    omega
  rw [characters.eq_def]
  split <;> simp_all

theorem characters_pieceOf (c : Char) (read : List Char) (pieces : List Piece) :
    characters read (pieceOf c :: pieces) = characters (c :: read) pieces := by
  unfold pieceOf
  split
  · next h => rw [characters_unit h.1, Char.ofNat_toNat]
  · rfl

theorem characters_map_pieceOf (cs read : List Char) :
    characters read (cs.map pieceOf) = some (read.reverse ++ cs) := by
  induction cs generalizing read with
  | nil => rw [List.append_nil]; rfl
  | cons c cs ih =>
    rw [List.map_cons, characters_pieceOf, ih, List.reverse_cons, List.append_assoc]
    rfl

/-- **Every string is read back**, and nothing after its closing quote is touched. -/
theorem read_escape (s : String) (rest : List Char) :
    read (s.toList.flatMap escape ++ '"' :: rest) = some (some s, rest) := by
  unfold read
  rw [scan_flatMap_escape]
  simp only [List.reverse_nil, List.nil_append, Option.map_some, characters_map_pieceOf,
    String.ofList_toList]

theorem toList_write (s : String) :
    (write s).toList = '"' :: (s.toList.flatMap escape ++ ['"']) := String.toList_ofList

theorem escape_ne_nil (c : Char) : escape c ≠ [] := by
  unfold escape
  split
  iterate 7 exact List.cons_ne_nil _ _
  split <;> exact List.cons_ne_nil _ _

theorem length_le_flatMap_escape (cs : List Char) : cs.length ≤ (cs.flatMap escape).length := by
  induction cs with
  | nil => exact Nat.le_refl _
  | cons c cs ih =>
    have hpos := List.length_pos_iff.mpr (escape_ne_nil c)
    rw [List.flatMap_cons, List.length_append, List.length_cons]
    omega

theorem length_lt_write (s : String) : s.toList.length < (write s).toList.length := by
  rw [toList_write, List.length_cons, List.length_append]
  exact Nat.lt_succ_of_le (Nat.le_add_right_of_le (length_le_flatMap_escape s.toList))

end ThermalLabel.Json.Quoted

import Mathlib.Data.List.DropRight
import ThermalLabel.Json.Reader
import ThermalLabel.Proofs.Json.Quoted
import ThermalLabel.Proofs.Json.Tree

/-! # Trees read back from their text

What is printed is read as the tree that it was printed from. A text reads as a tree if the reader
takes it for the tree wherever it stands: behind blanks, inside of containers as far as the depth
allows, and before anything that does not go on with a numeral. The texts of items and members read
so, and then so does the text of the container, however blanks are spread between them. -/

namespace ThermalLabel.Json

variable {α : Type}

/-! ### Blanks -/

/-- A text of nothing but blanks. -/
def Blank (cs : List Char) : Prop := ∀ c ∈ cs, isBlank c = true

theorem skipBlanks_append {blanks : List Char} (h : Blank blanks) (cs : List Char) :
    skipBlanks (blanks ++ cs) = skipBlanks cs := List.dropWhile_append_of_pos h

theorem skipBlanks_cons {c : Char} (h : isBlank c = false) (cs : List Char) :
    skipBlanks (c :: cs) = c :: cs :=
  List.dropWhile_cons_of_neg (Bool.eq_false_iff.mp h)

theorem stops_of_blank {c : Char} (h : isBlank c = true) (cs : List Char) :
    Numeral.Stops (c :: cs) := by
  unfold isBlank at h
  simp only [Bool.or_eq_true, beq_iff_eq] at h
  apply Numeral.stops_cons
  rcases h with ((rfl | rfl) | rfl) | rfl <;> decide

theorem stops_append {blanks more : List Char} (h : Blank blanks) (hmore : Numeral.Stops more) :
    Numeral.Stops (blanks ++ more) := by
  cases blanks with
  | nil => exact hmore
  | cons c blanks => exact stops_of_blank (h c List.mem_cons_self) _

theorem skipBlanks_skipBlanks (cs : List Char) : skipBlanks (skipBlanks cs) = skipBlanks cs :=
  List.dropWhile_idempotent isBlank cs

theorem atDepth_of_le {depth : Nat} {t : Tree α} (h : depth ≤ maxDepth) : atDepth depth t = t :=
  if_pos h

theorem mapM_named (members : List (String × Tree α)) :
    (members.map fun e => (some e.1, e.2)).mapM (fun (name, t) => name.map fun k => (k, t)) =
      some members := by
  induction members with
  | nil => rfl
  | cons e rest ih => rw [List.map_cons, List.mapM_cons, ih]; rfl

theorem closeObject_reverse (members : List (String × Tree α)) :
    closeObject (members.map fun e => (some e.1, e.2)).reverse = .object members := by
  unfold closeObject
  rw [← List.map_reverse, mapM_named]
  exact congrArg Tree.object members.reverse_reverse

variable [NumberText α]

/-- The reader of values begins with skipping blanks. -/
theorem readValue_congr {cs cs' : List Char} (h : skipBlanks cs = skipBlanks cs')
    (fuel depth : Nat) : readValue (α := α) fuel depth cs = readValue fuel depth cs' := by
  cases fuel with
  | zero => rw [readValue_zero, readValue_zero]
  | succ fuel => rw [readValue, readValue, h]

theorem readItems_congr {cs cs' : List Char} (h : skipBlanks cs = skipBlanks cs') (fuel depth : Nat)
    (read : List (Tree α)) : readItems fuel depth read cs = readItems fuel depth read cs' := by
  cases fuel with
  | zero => rw [readItems_zero, readItems_zero]
  | succ fuel => rw [readItems, readItems, readValue_congr h]

theorem readMembers_congr {cs cs' : List Char} (h : skipBlanks cs = skipBlanks cs')
    (fuel depth : Nat) (read : List (Option String × Tree α)) :
    readMembers fuel depth read cs = readMembers fuel depth read cs' := by
  cases fuel with
  | zero => rw [readMembers_zero, readMembers_zero]
  | succ fuel => rw [readMembers, readMembers, h]

/-! ### One step of the reader -/

theorem readValue_string {cs rest : List Char} (h : skipBlanks cs = '"' :: rest)
    (fuel depth : Nat) :
    readValue (α := α) (fuel + 1) depth cs =
      (Quoted.read rest).map fun (s, rest) => (s.elim .illegible .string, rest) := by
  rw [readValue, h]
  rfl

theorem readValue_array {cs rest : List Char} (h : skipBlanks cs = '[' :: rest)
    (hrest : ∀ more, skipBlanks rest ≠ ']' :: more) (fuel depth : Nat) :
    readValue (α := α) (fuel + 1) depth cs =
      (readItems fuel (depth + 1) [] rest).map fun (items, rest) =>
        (atDepth (depth + 1) (.array items), rest) := by
  rw [readValue]
  -- by `hrest` the container is not closed at once
  simp only [h]
  rw [readItems_congr (skipBlanks_skipBlanks rest)]

theorem readValue_object {cs rest : List Char} (h : skipBlanks cs = '\x7b' :: rest)
    (hrest : ∀ more, skipBlanks rest ≠ '\x7d' :: more) (fuel depth : Nat) :
    readValue (α := α) (fuel + 1) depth cs =
      (readMembers fuel (depth + 1) [] rest).map fun (members, rest) =>
        (atDepth (depth + 1) (closeObject members), rest) := by
  rw [readValue]
  -- by `hrest` the container is not closed at once
  simp only [h]
  rw [readMembers_congr (skipBlanks_skipBlanks rest)]

theorem readValue_numeral {cs rest : List Char} {c : Char} (h : skipBlanks cs = c :: rest)
    (hc : c = '-' ∨ c.isDigit = true) (fuel depth : Nat) :
    readValue (α := α) (fuel + 1) depth cs =
      (Numeral.scan (c :: rest)).map fun (n, rest) => (n.value.elim .illegible .number, rest) := by
  rw [readValue, h]
  split
  case h_7 => rfl
  all_goals
    next heq =>
      cases heq
      exact absurd hc (by decide)

/-- No value begins with a closing bracket. -/
theorem skipBlanks_ne_closing {fuel depth : Nat} {cs : List Char} {r : Tree α × List Char}
    (h : readValue fuel depth cs = some r) (rest : List Char) : skipBlanks cs ≠ ']' :: rest := by
  intro hclosing
  cases fuel with
  | zero => rw [readValue_zero] at h; cases h
  | succ fuel =>
    rw [readValue, hclosing] at h
    obtain ⟨numeral, hscan, -⟩ := Option.map_eq_some_iff.mp h
    obtain ⟨c, rest', heq, hc⟩ := Numeral.scan_head hscan
    cases heq
    exact absurd hc (by decide)

theorem readItems_last {fuel depth : Nat} {cs after more : List Char} {t : Tree α}
    (h : readValue fuel depth cs = some (t, after)) (hafter : skipBlanks after = ']' :: more)
    (read : List (Tree α)) :
    readItems (fuel + 1) depth read cs = some ((t :: read).reverse, more) := by
  rw [readItems, h]
  dsimp only
  rw [hafter]
  rfl

theorem readItems_next {fuel depth : Nat} {cs after more : List Char} {t : Tree α}
    (h : readValue fuel depth cs = some (t, after)) (hafter : skipBlanks after = ',' :: more)
    (read : List (Tree α)) :
    readItems (fuel + 1) depth read cs = readItems fuel depth (t :: read) more := by
  rw [readItems, h]
  dsimp only
  rw [hafter]
  rfl

theorem readMembers_last {fuel depth : Nat} {cs quoted colon value after more : List Char}
    {name : Option String} {t : Tree α} (hcs : skipBlanks cs = '"' :: quoted)
    (hname : Quoted.read quoted = some (name, colon)) (hcolon : skipBlanks colon = ':' :: value)
    (h : readValue fuel depth value = some (t, after))
    (hafter : skipBlanks after = '\x7d' :: more) (read : List (Option String × Tree α)) :
    readMembers (fuel + 1) depth read cs = some ((name, t) :: read, more) := by
  rw [readMembers]
  simp only [hcs, hname, hcolon, h, hafter]

theorem readMembers_next {fuel depth : Nat} {cs quoted colon value after more : List Char}
    {name : Option String} {t : Tree α} (hcs : skipBlanks cs = '"' :: quoted)
    (hname : Quoted.read quoted = some (name, colon)) (hcolon : skipBlanks colon = ':' :: value)
    (h : readValue fuel depth value = some (t, after))
    (hafter : skipBlanks after = ',' :: more) (read : List (Option String × Tree α)) :
    readMembers (fuel + 1) depth read cs =
      readMembers fuel depth ((name, t) :: read) more := by
  rw [readMembers]
  simp only [hcs, hname, hcolon, h, hafter]

namespace Tree

/-! ### Texts that read as a tree -/

/-- A text that reads as a tree wherever it stands. Every step of the reader takes a character, so
that the length of the text bounds the steps. -/
def Reads (t : Tree α) (text : List Char) : Prop :=
  ∀ ⦃fuel depth : Nat⦄ ⦃more : List Char⦄, text.length < fuel → depth + t.depth ≤ maxDepth →
    Numeral.Stops more → readValue fuel depth (text ++ more) = some (t, more)

theorem reads_of_step {t : Tree α} {text : List Char}
    (h : ∀ (fuel depth : Nat) (more : List Char), text.length ≤ fuel → depth + t.depth ≤ maxDepth →
      Numeral.Stops more → readValue (fuel + 1) depth (text ++ more) = some (t, more)) :
    Reads t text := by
  intro fuel depth more hfuel hdepth hstops
  cases fuel with
  | zero => cases hfuel
  | succ fuel => exact h fuel depth more (Nat.le_of_lt_succ hfuel) hdepth hstops

theorem reads_null : Reads (null : Tree α) "null".toList :=
  reads_of_step fun fuel depth more _ _ _ => by rw [readValue]; rfl

theorem reads_bool (b : Bool) : Reads (bool b : Tree α) (if b then "true" else "false").toList := by
  refine reads_of_step fun fuel depth more _ _ _ => ?_
  rw [readValue]
  cases b <;> rfl

theorem reads_string (s : String) : Reads (string s : Tree α) (Quoted.write s).toList := by
  refine reads_of_step fun fuel depth more _ _ _ => ?_
  rw [Quoted.toList_write, List.cons_append, List.append_assoc, List.singleton_append,
    readValue_string (skipBlanks_cons rfl _), Quoted.read_escape]
  rfl

theorem reads_number {n : Number α} (h : n.ReadsBack) : Reads (number n) n.text.toList := by
  refine reads_of_step fun fuel depth more _ _ hstops => ?_
  obtain ⟨numeral, hscan, hvalue⟩ := h.scan_append hstops
  obtain ⟨c, rest, heq, hc⟩ := Numeral.scan_head hscan
  have hblank : isBlank c = false := by
    by_contra hblank
    unfold isBlank at hblank
    simp only [Bool.not_eq_false, Bool.or_eq_true, beq_iff_eq] at hblank
    rcases hblank with ((rfl | rfl) | rfl) | rfl <;> exact absurd hc (by decide)
  rw [heq] at hscan ⊢
  rw [readValue_numeral (skipBlanks_cons hblank rest) hc, hscan]
  simp only [Option.map_some, hvalue, Option.elim_some]

theorem reads_array_nil : Reads (array [] : Tree α) ['[', ']'] := by
  refine reads_of_step fun fuel depth more _ hdepth _ => ?_
  rw [readValue]
  exact congrArg (fun t => some (t, more)) (atDepth_of_le hdepth)

theorem reads_object_nil : Reads (object [] : Tree α) ['\x7b', '\x7d'] := by
  refine reads_of_step fun fuel depth more _ hdepth _ => ?_
  rw [readValue]
  exact congrArg (fun t => some (t, more)) (atDepth_of_le hdepth)

/-! ### Rows of items and members -/

/-- What follows the first text in a container: the others, each behind a comma and blanks, and the
closing bracket. -/
def row (inner outer : List Char) (closing : Char) : List (List Char) → List Char
  | [] => outer ++ [closing]
  | text :: rest => ',' :: (inner ++ (text ++ row inner outer closing rest))

/-- The text of a member: its name between quotes, a colon, blanks and the text of its value. -/
def memberText (gap : List Char) (write : Tree α → List Char) (e : String × Tree α) : List Char :=
  '"' :: (e.1.toList.flatMap Quoted.escape ++ '"' :: ':' :: (gap ++ write e.2))

theorem row_ne_nil (inner outer : List Char) (closing : Char) (texts : List (List Char)) :
    0 < (row inner outer closing texts).length := by
  cases texts <;> simp [row]

variable {inner outer gap : List Char} {write : Tree α → List Char} {depth : Nat}

theorem stops_row (houter : Blank outer) {closing : Char}
    (h : closing.isDigit = false ∧ closing ≠ '.' ∧ (closing == 'e' || closing == 'E') = false)
    (texts : List (List Char)) (more : List Char) :
    Numeral.Stops (row inner outer closing texts ++ more) := by
  cases texts with
  | nil =>
    rw [row, List.append_assoc]
    exact stops_append houter (Numeral.stops_cons h)
  | cons text rest => exact Numeral.stops_cons (by decide)

theorem skipBlanks_row_nil (houter : Blank outer) {closing : Char}
    (h : isBlank closing = false) (more : List Char) :
    skipBlanks (row inner outer closing [] ++ more) = closing :: more := by
  rw [row, List.append_assoc, skipBlanks_append houter, List.singleton_append, skipBlanks_cons h]

theorem skipBlanks_row_cons (inner outer : List Char) (closing : Char) (text : List Char)
    (texts : List (List Char)) (more : List Char) :
    skipBlanks (row inner outer closing (text :: texts) ++ more) =
      ',' :: (inner ++ (text ++ row inner outer closing texts ++ more)) := by
  rw [row, List.cons_append, skipBlanks_cons rfl, List.append_assoc]

/-- A row of items is read item by item. -/
theorem readItems_row (hinner : Blank inner) (houter : Blank outer) {t : Tree α}
    {rest : List (Tree α)} (hreads : ∀ t' ∈ t :: rest, Reads t' (write t'))
    (hdepth : ∀ t' ∈ t :: rest, depth + t'.depth ≤ maxDepth) {fuel : Nat}
    (hfuel : (write t ++ row inner outer ']' (rest.map write)).length ≤ fuel)
    (read : List (Tree α)) (more : List Char) :
    readItems (fuel + 1) depth read (write t ++ row inner outer ']' (rest.map write) ++ more) =
      some (read.reverse ++ t :: rest, more) := by
  induction rest generalizing t fuel read with
  | nil =>
    have hpos := row_ne_nil inner outer ']' ([] : List (List Char))
    rw [List.map_nil, List.length_append] at hfuel
    have ht : readValue fuel depth (write t ++ (row inner outer ']' [] ++ more)) = _ :=
      hreads t List.mem_cons_self (by omega) (hdepth t List.mem_cons_self)
        (stops_row houter (by decide) [] more)
    rw [List.map_nil, List.append_assoc, readItems_last ht (skipBlanks_row_nil houter rfl more),
      List.reverse_cons]
  | cons t' rest ih =>
    rw [List.map_cons, row, List.length_append, List.length_cons, List.length_append] at hfuel
    obtain ⟨fuel, rfl⟩ : ∃ n, fuel = n + 1 := ⟨fuel - 1, by omega⟩
    have ht : readValue (fuel + 1) depth
        (write t ++ (row inner outer ']' ((t' :: rest).map write) ++ more)) = _ :=
      hreads t List.mem_cons_self (by omega) (hdepth t List.mem_cons_self)
        (stops_row houter (by decide) _ more)
    have hnext : readItems (fuel + 1) depth (t :: read)
        (write t' ++ row inner outer ']' (rest.map write) ++ more) = _ :=
      ih (fun t'' h => hreads t'' (List.mem_cons_of_mem t h))
        (fun t'' h => hdepth t'' (List.mem_cons_of_mem t h)) (by omega) (t :: read)
    rw [List.append_assoc, readItems_next ht (skipBlanks_row_cons ..),
      readItems_congr (skipBlanks_append hinner _), hnext, List.reverse_cons, List.append_assoc,
      List.singleton_append]

/-- The reader of members comes from the name to the value. -/
theorem readMember (hgap : Blank gap) {e : String × Tree α} (hreads : Reads e.2 (write e.2))
    (hdepth : depth + e.2.depth ≤ maxDepth) {fuel : Nat}
    (hfuel : (memberText gap write e).length ≤ fuel) {more : List Char}
    (hstops : Numeral.Stops more) :
    ∃ quoted colon value, skipBlanks (memberText gap write e ++ more) = '"' :: quoted ∧
      Quoted.read quoted = some (some e.1, colon) ∧ skipBlanks colon = ':' :: value ∧
      readValue fuel depth value = some (e.2, more) := by
  refine ⟨_, _, _, ?_, Quoted.read_escape e.1 (':' :: (gap ++ write e.2 ++ more)),
    skipBlanks_cons rfl _, ?_⟩
  · rw [memberText, List.cons_append, skipBlanks_cons rfl]
    simp only [List.append_assoc, List.cons_append]
  · simp only [memberText, List.length_cons, List.length_append] at hfuel
    rw [List.append_assoc, readValue_congr (skipBlanks_append hgap _)]
    exact hreads (by omega) hdepth hstops

/-- A row of members is read member by member. -/
theorem readMembers_row (hinner : Blank inner) (houter : Blank outer) (hgap : Blank gap)
    {e : String × Tree α} {rest : List (String × Tree α)}
    (hreads : ∀ e' ∈ e :: rest, Reads e'.2 (write e'.2))
    (hdepth : ∀ e' ∈ e :: rest, depth + e'.2.depth ≤ maxDepth) {fuel : Nat}
    (hfuel : (memberText gap write e ++
      row inner outer '\x7d' (rest.map (memberText gap write))).length ≤ fuel)
    (read : List (Option String × Tree α)) (more : List Char) :
    readMembers (fuel + 1) depth read (memberText gap write e ++
        row inner outer '\x7d' (rest.map (memberText gap write)) ++ more) =
      some (((e :: rest).map fun e => (some e.1, e.2)).reverse ++ read, more) := by
  induction rest generalizing e fuel read with
  | nil =>
    have hstops : Numeral.Stops (row inner outer '\x7d' [] ++ more) :=
      stops_row houter (by decide) [] more
    rw [List.length_append] at hfuel
    obtain ⟨quoted, colon, value, hcs, hname, hcolon, hvalue⟩ :=
      readMember hgap (hreads e List.mem_cons_self) (hdepth e List.mem_cons_self)
        (Nat.le_of_add_right_le hfuel) hstops
    rw [List.map_nil, List.append_assoc,
      readMembers_last hcs hname hcolon hvalue (skipBlanks_row_nil houter rfl more)]
    rfl
  | cons e' rest ih =>
    have hstops :
        Numeral.Stops (row inner outer '\x7d' ((e' :: rest).map (memberText gap write)) ++ more) :=
      stops_row houter (by decide) _ more
    rw [List.length_append] at hfuel
    obtain ⟨quoted, colon, value, hcs, hname, hcolon, hvalue⟩ :=
      readMember hgap (hreads e List.mem_cons_self) (hdepth e List.mem_cons_self)
        (Nat.le_of_add_right_le hfuel) hstops
    rw [List.map_cons, row, List.length_cons, List.length_append] at hfuel
    obtain ⟨fuel, rfl⟩ : ∃ n, fuel = n + 1 := ⟨fuel - 1, by omega⟩
    have hnext : readMembers (fuel + 1) depth ((some e.1, e.2) :: read)
        (memberText gap write e' ++ row inner outer '\x7d' (rest.map (memberText gap write)) ++
          more) = _ :=
      ih (fun e'' h => hreads e'' (List.mem_cons_of_mem e h))
        (fun e'' h => hdepth e'' (List.mem_cons_of_mem e h)) (by omega) ((some e.1, e.2) :: read)
    rw [List.append_assoc,
      readMembers_next hcs hname hcolon hvalue (skipBlanks_row_cons ..),
      readMembers_congr (skipBlanks_append hinner _), hnext]
    simp

/-! ### Containers -/

/-- A container of texts: the opening bracket, the texts and the closing bracket. -/
def container (inner outer : List Char) (opening closing : Char) :
    List (List Char) → List Char
  | [] => [opening, closing]
  | text :: rest => opening :: (inner ++ (text ++ row inner outer closing rest))

theorem reads_array (hinner : Blank inner) (houter : Blank outer) {items : List (Tree α)}
    (hreads : ∀ t ∈ items, Reads t (write t)) :
    Reads (array items) (container inner outer '[' ']' (items.map write)) := by
  cases items with
  | nil => exact reads_array_nil
  | cons t rest =>
    refine reads_of_step fun fuel depth more hfuel hdepth _ => ?_
    have hitems : ∀ t' ∈ t :: rest, depth + 1 + t'.depth ≤ maxDepth := by
      intro t' ht'
      have hlt := depth_lt_array ht'
      omega
    rw [List.map_cons, container, List.length_cons, List.length_append] at hfuel
    obtain ⟨fuel, rfl⟩ : ∃ n, fuel = n + 1 := ⟨fuel - 1, by omega⟩
    have hrow := readItems_row hinner houter hreads hitems
      (Nat.le_trans (Nat.le_add_left _ inner.length) (Nat.le_of_succ_le_succ hfuel)) [] more
    have hskip : skipBlanks (inner ++ (write t ++ row inner outer ']' (rest.map write)) ++ more) =
        skipBlanks (write t ++ row inner outer ']' (rest.map write) ++ more) := by
      rw [List.append_assoc, skipBlanks_append hinner]
    have hvalue : readValue ((write t).length + 1) (depth + 1)
        (write t ++ (row inner outer ']' (rest.map write) ++ more)) = _ :=
      hreads t List.mem_cons_self (Nat.lt_succ_self _) (hitems t List.mem_cons_self)
        (stops_row houter (by decide) _ more)
    have hne : ∀ cs, skipBlanks
        (inner ++ (write t ++ row inner outer ']' (rest.map write)) ++ more) ≠ ']' :: cs := by
      intro cs
      rw [hskip, List.append_assoc]
      exact skipBlanks_ne_closing hvalue cs
    rw [List.map_cons, container, List.cons_append, readValue_array (skipBlanks_cons rfl _) hne,
      readItems_congr hskip, hrow, Option.map_some]
    dsimp only
    rw [atDepth_of_le (Nat.le_trans (Nat.le_add_right _ _) (hitems t List.mem_cons_self))]
    rfl

theorem reads_object (hinner : Blank inner) (houter : Blank outer) (hgap : Blank gap)
    {members : List (String × Tree α)} (hreads : ∀ e ∈ members, Reads e.2 (write e.2)) :
    Reads (object members)
      (container inner outer '\x7b' '\x7d' (members.map (memberText gap write))) := by
  cases members with
  | nil => exact reads_object_nil
  | cons e rest =>
    refine reads_of_step fun fuel depth more hfuel hdepth _ => ?_
    have hmembers : ∀ e' ∈ e :: rest, depth + 1 + e'.2.depth ≤ maxDepth := by
      intro e' he'
      have hlt := depth_lt_object he'
      omega
    rw [List.map_cons, container, List.length_cons, List.length_append] at hfuel
    obtain ⟨fuel, rfl⟩ : ∃ n, fuel = n + 1 := ⟨fuel - 1, by omega⟩
    have hrow := readMembers_row hinner houter hgap hreads hmembers
      (Nat.le_trans (Nat.le_add_left _ inner.length) (Nat.le_of_succ_le_succ hfuel)) [] more
    have hskip : skipBlanks (inner ++ (memberText gap write e ++
          row inner outer '\x7d' (rest.map (memberText gap write))) ++ more) =
        skipBlanks (memberText gap write e ++
          row inner outer '\x7d' (rest.map (memberText gap write)) ++ more) := by
      rw [List.append_assoc, skipBlanks_append hinner]
    have hne : ∀ cs, skipBlanks (inner ++ (memberText gap write e ++
        row inner outer '\x7d' (rest.map (memberText gap write))) ++ more) ≠ '\x7d' :: cs := by
      intro cs heq
      rw [hskip, memberText, List.cons_append, List.cons_append, skipBlanks_cons rfl] at heq
      exact absurd (List.cons.inj heq).1 (by decide)
    rw [List.map_cons, container, List.cons_append, readValue_object (skipBlanks_cons rfl _) hne,
      readMembers_congr hskip, hrow, Option.map_some, List.append_nil]
    dsimp only
    rw [closeObject_reverse,
      atDepth_of_le (Nat.le_trans (Nat.le_add_right _ _) (hmembers e List.mem_cons_self))]

theorem parse?_of_reads {t : Tree α} {text : String} (h : Reads t text.toList)
    (hdepth : t.depth ≤ maxDepth) : parse? text = some t := by
  have hread := h (Nat.lt_succ_self _) (by rwa [Nat.zero_add]) Numeral.stops_nil
  rw [List.append_nil] at hread
  unfold parse?
  dsimp only
  rw [hread]
  rfl

/-! ### Texts spread over lines -/

theorem blank_space : Blank [' '] := by
  intro c hc
  obtain rfl := List.mem_singleton.mp hc
  rfl

theorem blank_newline (level : Nat) : Blank (newline level).toList := by
  intro c hc
  rw [newline, String.toList_append, List.mem_append] at hc
  rcases hc with hc | hc
  · obtain rfl := List.mem_singleton.mp hc
    rfl
  · rw [String.toList_ofList] at hc
    rw [(List.mem_replicate.mp hc).2]
    rfl

theorem append_row (inner outer : List Char) (closing : Char) (text : List Char)
    (rest : List (List Char)) :
    text ++ row inner outer closing rest =
      (',' :: inner).intercalate (text :: rest) ++ (outer ++ [closing]) := by
  induction rest generalizing text with
  | nil => rw [row, List.intercalate_singleton]
  | cons text' rest ih =>
    rw [row, ih text', List.intercalate_cons_cons]
    simp only [List.append_assoc, List.cons_append]

theorem toList_spread (level : Nat) {opening closing : String} {o c : Char}
    (ho : opening.toList = [o]) (hc : closing.toList = [c]) (texts : List String) :
    (spread level opening closing texts).toList =
      container (newline (level + 1)).toList (newline level).toList o c
        (texts.map String.toList) := by
  cases texts with
  | nil => simp [spread, container, ho, hc]
  | cons text rest =>
    rw [List.map_cons, container, append_row, spread]
    · simp [ho, hc, String.toList_intercalate]
    · exact nofun

theorem prettyItems_eq_map (level : Nat) (items : List (Tree α)) :
    pretty.prettyItems level items = items.map (pretty level) := by
  induction items with
  | nil => rfl
  | cons t rest ih => rw [pretty.prettyItems, ih]; rfl

theorem prettyMembers_eq_map (level : Nat) (members : List (String × Tree α)) :
    pretty.prettyMembers level members =
      members.map fun e => Quoted.write e.1 ++ ": " ++ pretty level e.2 := by
  induction members with
  | nil => rfl
  | cons e rest ih => rw [pretty.prettyMembers, ih]; rfl

/-- What is printed of a legible tree reads as the tree. -/
theorem reads_pretty {t : Tree α} (h : t.Legible) (level : Nat) :
    Reads t (t.pretty level).toList := by
  induction t using Tree.induction generalizing level with
  | illegible => exact absurd h.self id
  | null => exact reads_null
  | bool b => exact reads_bool b
  | number n => exact reads_number h.self
  | string s => exact reads_string s
  | array items ih =>
    have hitems : ∀ t ∈ items, Reads t (t.pretty (level + 1)).toList :=
      fun t ht => ih t ht ((allParts_array.mp h).2 t ht) (level + 1)
    rw [pretty, toList_spread level rfl rfl, prettyItems_eq_map, List.map_map]
    exact reads_array (blank_newline _) (blank_newline _) hitems
  | object members ih =>
    have hmembers : ∀ e ∈ members, Reads e.2 (e.2.pretty (level + 1)).toList :=
      fun e he => ih e he ((allParts_object.mp h).2 e he) (level + 1)
    have htexts : (pretty.prettyMembers (level + 1) members).map String.toList =
        members.map (memberText [' '] fun t => (t.pretty (level + 1)).toList) := by
      rw [prettyMembers_eq_map, List.map_map]
      refine List.map_congr_left fun e _ => ?_
      simp [memberText, Quoted.toList_write]
    rw [pretty, toList_spread level rfl rfl, htexts]
    exact reads_object (blank_newline _) (blank_newline _) blank_space hmembers

/-- **A legible tree is read back from its text**, if its containers are not nested too deep. -/
theorem parse?_pretty {t : Tree α} (h : t.Legible) (hdepth : t.depth ≤ maxDepth) :
    parse? (t.pretty 0) = some t := parse?_of_reads (reads_pretty h 0) hdepth

/-! ### Texts on one line -/

theorem toList_bracketed {opening closing : String} {o c : Char} (ho : opening.toList = [o])
    (hc : closing.toList = [c]) (texts : List String) :
    (opening ++ ",".intercalate texts ++ closing).toList =
      container [] [] o c (texts.map String.toList) := by
  cases texts with
  | nil => simp [container, ho, hc]
  | cons text rest =>
    rw [List.map_cons, container, append_row]
    simp [ho, hc, String.toList_intercalate]

theorem compactItems_eq_map (items : List (Tree α)) :
    compact.compactItems items = items.map compact := by
  induction items with
  | nil => rfl
  | cons t rest ih => rw [compact.compactItems, ih]; rfl

theorem compactMembers_eq_map (members : List (String × Tree α)) :
    compact.compactMembers members =
      members.map fun e => Quoted.write e.1 ++ ":" ++ compact e.2 := by
  induction members with
  | nil => rfl
  | cons e rest ih => rw [compact.compactMembers, ih]; rfl

theorem toList_compact_array (items : List (Tree α)) :
    (array items).compact.toList =
      container [] [] '[' ']' (items.map fun t => t.compact.toList) := by
  rw [compact, toList_bracketed rfl rfl, compactItems_eq_map, List.map_map]
  rfl

theorem toList_compact_object (members : List (String × Tree α)) :
    (object members).compact.toList =
      container [] [] '\x7b' '\x7d' (members.map (memberText [] fun t => t.compact.toList)) := by
  rw [compact, toList_bracketed rfl rfl, compactMembers_eq_map, List.map_map]
  congr 1
  refine List.map_congr_left fun e _ => ?_
  simp [memberText, Quoted.toList_write]

theorem blank_nil : Blank [] := fun _ h => absurd h List.not_mem_nil

/-- What is written of a legible tree on one line reads as the tree. -/
theorem reads_compact {t : Tree α} (h : t.Legible) : Reads t t.compact.toList := by
  induction t using Tree.induction with
  | illegible => exact absurd h.self id
  | null => exact reads_null
  | bool b => exact reads_bool b
  | number n => exact reads_number h.self
  | string s => exact reads_string s
  | array items ih =>
    have hitems : ∀ t ∈ items, Reads t t.compact.toList :=
      fun t ht => ih t ht ((allParts_array.mp h).2 t ht)
    rw [toList_compact_array]
    exact reads_array blank_nil blank_nil hitems
  | object members ih =>
    have hmembers : ∀ e ∈ members, Reads e.2 e.2.compact.toList :=
      fun e he => ih e he ((allParts_object.mp h).2 e he)
    rw [toList_compact_object]
    exact reads_object blank_nil blank_nil blank_nil hmembers

/-- On one line, too, a legible tree is read back from its text. -/
theorem parse?_compact {t : Tree α} (h : t.Legible) (hdepth : t.depth ≤ maxDepth) :
    parse? t.compact = some t := parse?_of_reads (reads_compact h) hdepth

/-! ### Texts of parts -/

theorem infix_row (inner outer : List Char) (closing : Char) {text : List Char}
    {texts : List (List Char)} (h : text ∈ texts) : text <:+: row inner outer closing texts := by
  induction texts with
  | nil => cases h
  | cons head rest ih =>
    rcases List.mem_cons.mp h with rfl | h
    · exact ⟨',' :: inner, row inner outer closing rest, by simp [row]⟩
    · exact (ih h).trans ⟨',' :: (inner ++ head), [], by simp [row]⟩

theorem infix_container (inner outer : List Char) (opening closing : Char) {text : List Char}
    {texts : List (List Char)} (h : text ∈ texts) :
    text <:+: container inner outer opening closing texts := by
  cases texts with
  | nil => cases h
  | cons head rest =>
    rcases List.mem_cons.mp h with rfl | h
    · exact ⟨opening :: inner, row inner outer closing rest, by simp [container]⟩
    · exact (infix_row inner outer closing h).trans
        ⟨opening :: (inner ++ head), [], by simp [container]⟩

omit [NumberText α] in
theorem infix_memberText (gap : List Char) (write : Tree α → List Char) (e : String × Tree α) :
    write e.2 <:+: memberText gap write e :=
  ⟨'"' :: (e.1.toList.flatMap Quoted.escape ++ '"' :: ':' :: gap), [], by simp [memberText]⟩

/-- The text of a tree holds the texts of its parts. -/
theorem compact_infix (t : Tree α) :
    t.AllParts fun part => part.compact.toList <:+: t.compact.toList := by
  induction t using Tree.induction with
  | illegible | null | bool | number | string =>
    intro part hpart
    obtain rfl := List.mem_singleton.mp hpart
    exact List.infix_rfl
  | array items ih =>
    refine allParts_array.mpr
      ⟨List.infix_rfl, fun t ht part hpart => (ih t ht part hpart).trans ?_⟩
    rw [toList_compact_array]
    exact infix_container [] [] '[' ']' (List.mem_map_of_mem ht)
  | object members ih =>
    refine allParts_object.mpr
      ⟨List.infix_rfl, fun e he part hpart => (ih e he part hpart).trans ?_⟩
    rw [toList_compact_object]
    exact (infix_memberText [] (fun t => t.compact.toList) e).trans
      (infix_container [] [] '\x7b' '\x7d' (List.mem_map_of_mem he))

end Tree

end ThermalLabel.Json

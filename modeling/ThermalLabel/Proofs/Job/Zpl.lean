import Mathlib.Data.List.Basic
import ThermalLabel.Job.Zpl
import ThermalLabel.Proofs.Text.Hex

/-! # Caret commands read back

A printer takes a job apart at its carets. Each piece is a command, known by the letters it begins
with, and the data after `FH` has its escapes undone. A job is read as the commands that it was made
of, and its data as the contents of the elements, whatever these contents are: data never holds a
caret or a tilde (`job_reads_back`). -/

namespace ThermalLabel.Zpl

/-! ### Reading a job -/

/-- What commands begin with. No name begins another one. -/
def names : List String :=
  ["XA", "PW", "MMT", "FO", "A0N", "BY2", "BCN", "GB", "BQN", "FH", "FD", "FS", "XZ"]

/-- The name of the command in a piece. -/
def name? (piece : List Char) : Option String :=
  names.find? fun name => name.toList.isPrefixOf piece

/-- Data with the escapes undone. -/
def unescape : List Char → List Char
  | '_' :: high :: low :: rest =>
    match Text.pairValue? high low with
    | some n => Char.ofNat n :: unescape rest
    | none => '_' :: unescape (high :: low :: rest)
  | c :: rest => c :: unescape rest
  | [] => []

/-- The data of the fields among some pieces. The data right after `FH` is coded. -/
def fieldsData (coded : Bool) : List (List Char) → List (List Char)
  | ('F' :: 'H' :: _) :: pieces => fieldsData true pieces
  | ('F' :: 'D' :: data) :: pieces =>
    (if coded then unescape data else data) :: fieldsData false pieces
  | _ :: pieces => fieldsData false pieces
  | [] => []

/-! ### Data -/

theorem unescape_cons {c : Char} (h : c ≠ '_') (rest : List Char) :
    unescape (c :: rest) = c :: unescape rest := by
  rw [unescape.eq_def (c :: rest)]
  split <;> simp_all

theorem unescape_coded {high low : Char} {n : Nat} (h : Text.pairValue? high low = some n)
    (rest : List Char) : unescape ('_' :: high :: low :: rest) = Char.ofNat n :: unescape rest := by
  rw [unescape, h]

theorem unescape_escape (data : List Char) : unescape (data.flatMap escape) = data := by
  induction data with
  | nil => rfl
  | cons c data ih =>
    rw [List.flatMap_cons]
    -- the indicator is special itself, so a character that is kept does not begin an escape
    by_cases hc : isSpecial c = true
    · have hsmall : c.toNat < 256 := by
        simp only [isSpecial, Bool.or_eq_true, beq_iff_eq] at hc
        rcases hc with (rfl | rfl) | rfl <;> decide
      have hescape : escape c = ['_', Text.hexDigit (c.toNat / 16), Text.hexDigit (c.toNat % 16)] :=
        if_pos hc
      rw [hescape]
      show unescape ('_' :: _ :: _ :: data.flatMap escape) = c :: data
      rw [unescape_coded (Text.pairValue?_hexDigit hsmall), ih, Char.ofNat_toNat]
    · have hplain : c ≠ '_' := by
        rintro rfl
        exact hc rfl
      have hescape : escape c = [c] := if_neg hc
      rw [hescape, List.singleton_append, unescape_cons hplain, ih]

/-- Neither a caret nor a tilde. -/
def Clean (cs : List Char) : Prop := '^' ∉ cs ∧ '~' ∉ cs

theorem Clean.append {as bs : List Char} (ha : Clean as) (hb : Clean bs) : Clean (as ++ bs) := by
  refine ⟨fun h => ?_, fun h => ?_⟩
  · exact (List.mem_append.mp h).elim ha.1 hb.1
  · exact (List.mem_append.mp h).elim ha.2 hb.2

theorem clean_int (n : Int64) : Clean (int n).toList :=
  ⟨Text.not_mem_int rfl (by decide) _, Text.not_mem_int rfl (by decide) _⟩

theorem clean_escape (c : Char) : Clean (escape c) := by
  by_cases hc : isSpecial c = true
  · simp only [isSpecial, Bool.or_eq_true, beq_iff_eq] at hc
    rcases hc with (rfl | rfl) | rfl <;> exact ⟨by decide, by decide⟩
  · have hescape : escape c = [c] := if_neg hc
    simp only [isSpecial, Bool.or_eq_true, beq_iff_eq, not_or] at hc
    rw [hescape]
    exact ⟨by simpa using Ne.symm hc.1.1, by simpa using Ne.symm hc.1.2⟩

theorem clean_flatMap_escape (data : List Char) : Clean (data.flatMap escape) := by
  refine ⟨fun h => ?_, fun h => ?_⟩
  · obtain ⟨c, -, hc⟩ := List.mem_flatMap.mp h
    exact (clean_escape c).1 hc
  · obtain ⟨c, -, hc⟩ := List.mem_flatMap.mp h
    exact (clean_escape c).2 hc

theorem clean_of_any_isSpecial {data : List Char} (h : ¬ data.any isSpecial = true) :
    Clean data := by
  refine ⟨fun hc => h ?_, fun hc => h ?_⟩
  · exact List.any_eq_true.mpr ⟨'^', hc, rfl⟩
  · exact List.any_eq_true.mpr ⟨'~', hc, rfl⟩

/-! ### Commands -/

namespace Command

/-- A command without its caret. -/
def piece (c : Command) : List Char := c.text.toList.tail

/-- The name of a command. -/
def name : Command → String
  | .startFormat => "XA"
  | .printWidth _ => "PW"
  | .tearOff => "MMT"
  | .fieldOrigin _ _ => "FO"
  | .scalableFont _ => "A0N"
  | .barcodeDefaults => "BY2"
  | .code128 _ => "BCN"
  | .graphicBox _ _ _ => "GB"
  | .qrcode _ => "BQN"
  | .hexIndicator => "FH"
  | .fieldData _ => "FD"
  | .fieldSeparator => "FS"
  | .endFormat => "XZ"

theorem toList_text (c : Command) : c.text.toList = '^' :: c.piece := by
  cases c <;> simp [piece, text]

theorem name?_piece (c : Command) (rest : List Char) :
    name? (c.piece ++ rest) = some c.name := by
  cases c <;> simp [piece, text, name, name?, names]

/-- A command that neither carries data nor says that data is coded. -/
def IsPlain (c : Command) : Prop := c ≠ .hexIndicator ∧ ∀ written, c ≠ .fieldData written

theorem clean_piece {c : Command} (h : ∀ written, c = .fieldData written → Clean written.toList) :
    Clean c.piece := by
  have hcaret : ∀ n, '^' ∉ (int n).toList := fun n => (clean_int n).1
  have htilde : ∀ n, '~' ∉ (int n).toList := fun n => (clean_int n).2
  cases c with
  | fieldData written =>
    obtain ⟨hc, ht⟩ := h written rfl
    simp [Clean, piece, text, hc, ht]
  | _ => simp [Clean, piece, text, hcaret, htilde]

theorem IsPlain.clean_piece {c : Command} (h : c.IsPlain) : Clean c.piece :=
  Command.clean_piece fun written hc => absurd hc (h.2 written)

theorem IsPlain.fieldsData_cons {c : Command} (h : c.IsPlain) (coded : Bool) (rest : List Char)
    (pieces : List (List Char)) :
    fieldsData coded ((c.piece ++ rest) :: pieces) = fieldsData false pieces := by
  cases c with
  | hexIndicator => exact absurd rfl h.1
  | fieldData written => exact absurd rfl (h.2 written)
  | _ => simp [piece, text, fieldsData]

end Command

/-! ### Lines -/

/-- The pieces of a line: its commands, and the end of the line with the last one. -/
def linePieces : Line → List (List Char)
  | [] => []
  | [c] => [c.piece ++ ['\n']]
  | c :: next :: l => c.piece :: linePieces (next :: l)

/-- A line that is cut at its own carets only. -/
structure Line.Sound (l : Line) : Prop where
  ne_nil : l ≠ []
  clean : ∀ c ∈ l, Clean c.piece

theorem toList_lineText {l : Line} (h : l ≠ []) :
    (lineText l ++ "\n").toList = (linePieces l).flatMap ('^' :: ·) := by
  induction l with
  | nil => exact absurd rfl h
  | cons c l ih =>
    cases l with
    | nil => simp [lineText, linePieces, Command.toList_text]
    | cons c' l =>
      have hrest := ih (List.cons_ne_nil c' l)
      simp only [lineText, String.toList_append, String.toList_join] at hrest ⊢
      simp only [List.map_cons, List.flatMap_cons, Command.toList_text, List.append_assoc]
        at hrest ⊢
      rw [hrest]
      rfl

theorem clean_of_mem_linePieces {l : Line} (h : ∀ c ∈ l, Clean c.piece) :
    ∀ p ∈ linePieces l, Clean p := by
  intro p hp
  induction l with
  | nil => cases hp
  | cons c l ih =>
    have hc : Clean c.piece := h c List.mem_cons_self
    cases l with
    | nil =>
      obtain rfl : p = c.piece ++ ['\n'] := List.mem_singleton.mp hp
      exact hc.append ⟨by decide, by decide⟩
    | cons next l =>
      rcases List.mem_cons.mp hp with rfl | hp
      · exact hc
      · exact ih (fun c' hc' => h c' (List.mem_cons_of_mem c hc')) hp

theorem map_name?_linePieces (l : Line) :
    (linePieces l).map name? = l.map fun c => some c.name := by
  induction l with
  | nil => rfl
  | cons c l ih =>
    cases l with
    | nil => simp [linePieces, Command.name?_piece]
    | cons next l =>
      have hname : name? c.piece = some c.name := by
        simpa using c.name?_piece []
      rw [linePieces, List.map_cons, hname, ih]
      rfl

theorem linePieces_append (front : Line) {l : Line} (h : l ≠ []) :
    linePieces (front ++ l) = front.map Command.piece ++ linePieces l := by
  induction front with
  | nil => rfl
  | cons c front ih =>
    obtain ⟨next, rest, hnext⟩ :=
      List.exists_cons_of_ne_nil (List.append_ne_nil_of_right_ne_nil front h)
    rw [List.cons_append, hnext, linePieces, ← hnext, ih]
    rfl

/-! ### Fields -/

theorem fieldsData_map_piece {front : Line} (hplain : ∀ c ∈ front, c.IsPlain)
    (pieces : List (List Char)) :
    fieldsData false (front.map Command.piece ++ pieces) = fieldsData false pieces := by
  induction front with
  | nil => rfl
  | cons c front ih =>
    have hc := (hplain c List.mem_cons_self).fieldsData_cons false []
    rw [List.map_cons, List.cons_append, ← List.append_nil c.piece, hc,
      ih fun c' hc' => hplain c' (List.mem_cons_of_mem c hc')]

theorem clean_dataCommands (data : String) : ∀ c ∈ dataCommands data, Clean c.piece := by
  intro c hc
  refine Command.clean_piece ?_
  rintro written rfl
  unfold dataCommands at hc
  split at hc
  · obtain rfl : written = String.ofList (data.toList.flatMap escape) := by simpa using hc
    rw [String.toList_ofList]
    exact clean_flatMap_escape data.toList
  · next hplain =>
    obtain rfl : written = data := by simpa using hc
    exact clean_of_any_isSpecial hplain

/-- The end of a field with data. -/
def fieldEnd (data : String) : Line := dataCommands data ++ [.fieldSeparator]

theorem clean_fieldEnd (data : String) : ∀ c ∈ fieldEnd data, Clean c.piece := by
  intro c hc
  rcases List.mem_append.mp hc with hc | hc
  · exact clean_dataCommands data c hc
  · obtain rfl : c = .fieldSeparator := List.mem_singleton.mp hc
    exact ⟨by decide, by decide⟩

/-- The data of a field is read as it was given, coded or not. -/
theorem fieldsData_fieldEnd (data : String) (pieces : List (List Char)) :
    fieldsData false (linePieces (fieldEnd data) ++ pieces) =
      data.toList :: fieldsData false pieces := by
  by_cases hany : data.toList.any isSpecial = true
  · have hcoded := unescape_escape data.toList
    simp [fieldEnd, dataCommands, hany, linePieces, Command.piece, Command.text, fieldsData, hcoded]
  · simp [fieldEnd, dataCommands, hany, linePieces, Command.piece, Command.text, fieldsData]

/-- Lines with the data of their fields, in order. -/
inductive Holds : List Line → List String → Prop
  | nil : Holds [] []
  | plain {front c lines data} (hfront : ∀ c' ∈ front, Command.IsPlain c') (hc : c.IsPlain)
    (rest : Holds lines data) : Holds ((front ++ [c]) :: lines) data
  | field {front lines data} (hfront : ∀ c ∈ front, Command.IsPlain c) (content : String)
    (rest : Holds lines data) : Holds ((front ++ fieldEnd content) :: lines) (content :: data)

namespace Holds

theorem append {lines lines' : List Line} {data data' : List String} (h : Holds lines data)
    (h' : Holds lines' data') : Holds (lines ++ lines') (data ++ data') := by
  induction h with
  | nil => exact h'
  | plain hfront hc _ ih => exact .plain hfront hc ih
  | field hfront content _ ih => exact .field hfront content ih

theorem sound {lines : List Line} {data : List String} (h : Holds lines data) :
    ∀ l ∈ lines, l.Sound := by
  induction h with
  | nil => exact fun l hl => by cases hl
  | @plain front c lines data hfront hc _ ih =>
    have hline : Line.Sound (front ++ [c]) := by
      refine ⟨by simp, fun c' hc' => ?_⟩
      rcases List.mem_append.mp hc' with hc' | hc'
      · exact (hfront c' hc').clean_piece
      · exact List.mem_singleton.mp hc' ▸ hc.clean_piece
    exact List.forall_mem_cons.mpr ⟨hline, ih⟩
  | @field front lines data hfront content _ ih =>
    have hline : Line.Sound (front ++ fieldEnd content) := by
      refine ⟨by simp [fieldEnd], fun c hc => ?_⟩
      rcases List.mem_append.mp hc with hc | hc
      · exact (hfront c hc).clean_piece
      · exact clean_fieldEnd content c hc
    exact List.forall_mem_cons.mpr ⟨hline, ih⟩

theorem fieldsData_eq {lines : List Line} {data : List String} (h : Holds lines data) :
    fieldsData false (lines.flatMap linePieces) = data.map String.toList := by
  induction h with
  | nil => rfl
  | @plain front c lines data hfront hc _ ih =>
    rw [List.flatMap_cons, linePieces_append front (List.cons_ne_nil c []), List.append_assoc,
      fieldsData_map_piece hfront]
    exact (hc.fieldsData_cons false ['\n'] _).trans ih
  | @field front lines data hfront content _ ih =>
    rw [List.flatMap_cons, linePieces_append front (by simp [fieldEnd]), List.append_assoc,
      fieldsData_map_piece hfront, fieldsData_fieldEnd, ih]
    rfl

end Holds

/-! ### Elements -/

/-- The commands that carry a content, coded or not. -/
def dataNames (content : String) : List String :=
  if content.toList.any isSpecial then ["FH", "FD"] else ["FD"]

variable {α : Type} [Scalar α]

/-- The commands that draw a body. Bold text is struck twice. -/
def bodyNames (vars : Variables) : Body α → List String
  | .text t =>
    let strike := ["FO", "A0N"] ++ dataNames (vars.resolve t.content) ++ ["FS"]
    if t.fontWeight = .bold then strike ++ strike else strike
  | .barcode b => ["FO", "BY2", "BCN"] ++ dataNames (vars.resolve b.content) ++ ["FS"]
  | .qrcode q =>
    (if q.showBorder then ["FO", "GB", "FS"] else []) ++
      (["FO", "BQN"] ++ dataNames (vars.resolve q.content) ++ ["FS"])
  | .box _ => ["FO", "GB", "FS"]

/-- The data that the fields of a body hold. -/
def bodyData (vars : Variables) : Body α → List String
  | .text t =>
    let content := vars.resolve t.content
    if t.fontWeight = .bold then [content, content] else [content]
  | .barcode b => [vars.resolve b.content]
  | .qrcode q => ["LA," ++ vars.resolve q.content]
  | .box _ => []

theorem map_name_dataCommands (data : String) :
    (dataCommands data).map Command.name = dataNames data := by
  unfold dataCommands dataNames
  split <;> rfl

theorem dataNames_append (content : String) : dataNames ("LA," ++ content) = dataNames content := by
  have hany : ("LA," ++ content).toList.any isSpecial = content.toList.any isSpecial := by
    rw [String.toList_append, List.any_append]
    rfl
  unfold dataNames
  rw [hany]

theorem map_name_bodyLines (position : Point α) (vars : Variables) (b : Body α) :
    (bodyLines position vars b).flatten.map Command.name = bodyNames vars b := by
  cases b with
  | text t => cases hw : t.fontWeight <;>
      simp [bodyLines, bodyNames, hw, map_name_dataCommands, Command.name]
  | barcode b => simp [bodyLines, bodyNames, map_name_dataCommands, Command.name]
  | qrcode q => cases hb : q.showBorder <;>
      simp [bodyLines, bodyNames, outline, hb, map_name_dataCommands, dataNames_append,
        Command.name]
  | box b => simp [bodyLines, bodyNames, outline, Command.name]

theorem holds_outline (position : Point α) (width height : α) (thickness : Int64)
    {lines : List Line} {data : List String} (rest : Holds lines data) :
    Holds (outline position width height thickness :: lines) data := by
  have hrect : ∀ (x y width height thickness : Int64),
      ∀ c ∈ [Command.fieldOrigin x y, .graphicBox width height thickness], c.IsPlain := by
    simp [Command.IsPlain]
  exact .plain (hrect _ _ _ _ _) (by simp [Command.IsPlain]) rest

theorem holds_bodyLines (position : Point α) (vars : Variables) (b : Body α) :
    Holds (bodyLines position vars b) (bodyData vars b) := by
  have hstrike : ∀ (x y height : Int64), ∀ c ∈ [Command.fieldOrigin x y, .scalableFont height],
      c.IsPlain := by simp [Command.IsPlain]
  have hbars : ∀ (x y height : Int64),
      ∀ c ∈ [Command.fieldOrigin x y, .barcodeDefaults, .code128 height], c.IsPlain := by
    simp [Command.IsPlain]
  have hsymbol : ∀ (x y cell : Int64), ∀ c ∈ [Command.fieldOrigin x y, .qrcode cell],
      c.IsPlain := by simp [Command.IsPlain]
  cases b with
  | text t =>
    cases hw : t.fontWeight with
    | normal =>
      simp only [bodyLines, bodyData, hw, reduceCtorEq, reduceIte]
      exact .field (hstrike _ _ _) _ .nil
    | bold =>
      simp only [bodyLines, bodyData, hw, reduceIte]
      exact .field (hstrike _ _ _) _ (.field (hstrike _ _ _) _ .nil)
  | barcode b => exact .field (hbars _ _ _) _ .nil
  | qrcode q =>
    cases hb : q.showBorder with
    | false =>
      simp only [bodyLines, bodyData, hb, Bool.false_eq_true, reduceIte]
      exact .field (hsymbol _ _ _) _ .nil
    | true =>
      simp only [bodyLines, bodyData, hb, reduceIte]
      exact holds_outline _ _ _ _ (.field (hsymbol _ _ _) _ .nil)
  | box b => exact holds_outline _ _ _ _ .nil

theorem holds_elements (vars : Variables) (elements : List (Element α)) :
    Holds (elements.flatMap (elementLines vars))
      (elements.flatMap fun e => bodyData vars e.body) := by
  induction elements with
  | nil => exact .nil
  | cons e elements ih => exact (holds_bodyLines e.position vars e.body).append ih

theorem holds_lines (d : Document α) (vars : Variables) :
    Holds (lines d vars) (d.elements.flatMap fun e => bodyData vars e.body) := by
  have hnone : ∀ c ∈ ([] : Line), c.IsPlain := List.forall_mem_nil _
  have hbare : ∀ c : Command, c.IsPlain → ∀ {lines data}, Holds lines data →
      Holds ([c] :: lines) data := fun c hc _ _ rest => .plain hnone hc rest
  have hend : Holds [[.endFormat]] [] := hbare _ (by simp [Command.IsPlain]) .nil
  have helements := (holds_elements vars d.elements).append hend
  rw [List.append_nil] at helements
  exact hbare _ (by simp [Command.IsPlain])
    (hbare _ (by simp [Command.IsPlain]) (hbare _ (by simp [Command.IsPlain]) helements))

theorem toList_compile (d : Document α) (vars : Variables) :
    (compile d vars).toList = ((lines d vars).flatMap linePieces).flatMap ('^' :: ·) := by
  have hsound := (holds_lines d vars).sound
  unfold compile
  rw [String.toList_join, List.flatMap_map, List.flatMap_assoc]
  exact List.flatMap_congr fun l hl => toList_lineText (hsound l hl).ne_nil

theorem map_name_lines (d : Document α) (vars : Variables) :
    (lines d vars).flatten.map Command.name =
      ["XA", "PW", "MMT"] ++ d.elements.flatMap (fun e => bodyNames vars e.body) ++ ["XZ"] := by
  have helements : (d.elements.flatMap (elementLines vars)).flatten.map Command.name =
      d.elements.flatMap fun e => bodyNames vars e.body := by
    rw [← List.flatMap_id, List.flatMap_assoc, List.map_flatMap]
    exact List.flatMap_congr fun e _ => by
      rw [List.flatMap_id]
      exact map_name_bodyLines e.position vars e.body
  unfold lines
  rw [List.flatten_append, List.flatten_append, List.map_append, List.map_append, helements]
  rfl

/-- **A job says what it was made of.** Cut at its carets, it has the commands of the label and of
its elements in drawing order, and no others; a tilde it has nowhere. The data of its fields are the
contents of the elements. -/
theorem job_reads_back (d : Document α) (vars : Variables) :
    ∃ pieces, Text.cut '^' (compile d vars) = [] :: pieces ∧
      pieces = (lines d vars).flatMap linePieces ∧
      pieces.map name? = (["XA", "PW", "MMT"] ++
        d.elements.flatMap (fun e => bodyNames vars e.body) ++ ["XZ"]).map some ∧
      fieldsData false pieces =
        (d.elements.flatMap fun e => bodyData vars e.body).map String.toList ∧
      '~' ∉ (compile d vars).toList := by
  have hholds := holds_lines d vars
  have hclean : ∀ p ∈ (lines d vars).flatMap linePieces, Clean p := by
    intro p hp
    obtain ⟨l, hl, hp⟩ := List.mem_flatMap.mp hp
    exact clean_of_mem_linePieces (hholds.sound l hl).clean p hp
  have hjob := toList_compile d vars
  refine ⟨_, Text.cut_of_begins hjob fun p hp => (hclean p hp).1, rfl, ?_, hholds.fieldsData_eq, ?_⟩
  · rw [← map_name_lines, List.map_flatMap, List.map_map, List.map_flatten]
    rw [← List.flatMap_def]
    exact List.flatMap_congr fun l _ => map_name?_linePieces l
  · rw [hjob]
    intro htilde
    obtain ⟨p, hp, htilde⟩ := List.mem_flatMap.mp htilde
    rcases List.mem_cons.mp htilde with h | h
    · cases h
    · exact (hclean p hp).2 h

end ThermalLabel.Zpl

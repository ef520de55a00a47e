import Mathlib.Data.List.Basic
import ThermalLabel.Job.Tspl
import ThermalLabel.Proofs.Text.Pieces
import ThermalLabel.Proofs.Text.Replace

/-! # Line commands read back

A printer takes a job apart at its line breaks, and knows a command by the first word of its line.
In a string only quotes are written in another way: a line break goes into the job as it is, and
what comes after it is read as a command. So a job has the commands that it was made of exactly when
no content has a line break in it (`line_per_command_iff`). -/

namespace ThermalLabel.Tspl

/-! ### Reading a job -/

/-- The first word of a line. -/
def keyword (line : List Char) : String := String.ofList (line.takeWhile (· ≠ ' '))

/-- The commands that draw a body. Bold text is struck twice, and a border is a box. -/
def bodyKeywords {α : Type} : Body α → List String
  | .text t => if t.fontWeight = .bold then ["TEXT", "TEXT"] else ["TEXT"]
  | .barcode _ => ["BARCODE"]
  | .qrcode q => if q.showBorder then ["BOX", "QRCODE"] else ["QRCODE"]
  | .box _ => ["BOX"]

/-- A job is cut at its line breaks into the lines of its commands, every one of them ended: those
of the label, those of the elements in drawing order, and the end. -/
structure LinePerCommand {α : Type} [Scalar α] [NumberText α] (d : Document α) (vars : Variables) :
    Prop where
  lines : Text.cut '\n' (compile d vars) = (commands d vars).map (fun c => c.line.toList) ++ [[]]
  keywords : (Text.cut '\n' (compile d vars)).dropLast.map keyword =
    ["SIZE", "GAP", "DIRECTION", "CLS"] ++ d.elements.flatMap (fun e => bodyKeywords e.body) ++
      ["PRINT", "EOP"]

/-! ### Strings -/

theorem newline_mem_quote (s : String) : '\n' ∈ (quote s).toList ↔ '\n' ∈ s.toList := by
  have hother : '\n' ≠ '"' := by decide
  have hescaped : '\n' ∉ "\\[\"]".toList := by decide
  have hreplaced := Text.mem_replace_singleton hother hescaped s
  have hquote : "\"" = String.singleton '"' := rfl
  unfold quote
  rw [String.toList_append, String.toList_append, hquote, List.mem_append, List.mem_append,
    hreplaced]
  simp

theorem mem_arguments {c : Char} (h : c ≠ ',') (args : List String) :
    c ∈ (arguments args).toList ↔ ∃ arg ∈ args, c ∈ arg.toList := by
  induction args with
  | nil => simp [arguments]
  | cons arg args ih =>
    cases args with
    | nil => simp [arguments]
    | cons arg' args =>
      have hcons : arguments (arg :: arg' :: args) = arg ++ "," ++ arguments (arg' :: args) :=
        String.intercalate_cons_cons
      rw [hcons, List.exists_mem_cons_iff, ← ih]
      simp [h]

theorem newline_not_mem_code (family : String) : '\n' ∉ (Font.code family).toList := by
  have hcodes : ∀ e ∈ Font.table, '\n' ∉ e.2.toList := by decide
  unfold Font.code
  cases h : Font.table.lookup family with
  | none => decide
  | some code =>
    obtain ⟨before, after, htable, -⟩ := List.lookup_eq_some_iff.mp h
    have hmem : (family, code) ∈ Font.table := by
      rw [htable]
      exact List.mem_append_right before List.mem_cons_self
    exact hcodes _ hmem

/-! ### Lines -/

namespace Command

variable {α : Type}

/-- The word that a command begins with. -/
def name : Command α → String
  | .size _ _ => "SIZE"
  | .gap => "GAP"
  | .direction => "DIRECTION"
  | .clear => "CLS"
  | .text _ _ _ _ _ => "TEXT"
  | .barcode _ _ _ _ => "BARCODE"
  | .qrcode _ _ _ _ => "QRCODE"
  | .box _ _ _ _ _ => "BOX"
  | .print => "PRINT"
  | .endOfProgram => "EOP"

/-- The strings of a command that are not fixed. -/
def strings : Command α → List String
  | .text _ _ font _ content => [font, content]
  | .barcode _ _ _ content => [content]
  | .qrcode _ _ _ content => [content]
  | _ => []

theorem keyword_line [NumberText α] (c : Command α) : keyword c.line.toList = c.name := by
  unfold line name
  cases c <;> simp [keyword]

theorem newline_mem_line (c : Command Float) :
    '\n' ∈ c.line.toList ↔ ∃ s ∈ c.strings, '\n' ∈ s.toList := by
  have hint : ∀ n : Int64, '\n' ∉ (int n).toList := fun n => Text.not_mem_int rfl (by decide) _
  have hnat : ∀ n : Nat, '\n' ∉ Nat.toDigits 10 n := Text.not_mem_toDigits rfl
  have hcomma : '\n' ≠ ',' := by decide
  unfold line strings
  cases c <;>
    simp [mem_arguments hcomma, newline_mem_quote, hint, hnat, Text.newline_not_mem_plain]

end Command

/-! ### Jobs -/

variable {α : Type} [Scalar α]

theorem map_name_bodyCommands (position : Point α) (vars : Variables) (b : Body α) :
    (bodyCommands position vars b).map Command.name = bodyKeywords b := by
  cases b with
  | text t => cases hw : t.fontWeight <;> simp [bodyCommands, bodyKeywords, hw, Command.name]
  | barcode b => rfl
  | qrcode q =>
    cases hb : q.showBorder <;> simp [bodyCommands, bodyKeywords, outline, hb, Command.name]
  | box b => rfl

theorem map_name_commands (d : Document α) (vars : Variables) :
    (commands d vars).map Command.name = ["SIZE", "GAP", "DIRECTION", "CLS"] ++
      d.elements.flatMap (fun e => bodyKeywords e.body) ++ ["PRINT", "EOP"] := by
  have helements : (d.elements.flatMap (elementCommands vars)).map Command.name =
      d.elements.flatMap fun e => bodyKeywords e.body := by
    rw [List.map_flatMap]
    exact List.flatMap_congr fun e _ => map_name_bodyCommands e.position vars e.body
  unfold commands
  rw [List.map_append, List.map_append, helements]
  rfl

/-- The strings of an element are its content, and the code of a font. -/
theorem strings_bodyCommands (position : Point α) (vars : Variables) (b : Body α) :
    (∀ c ∈ bodyCommands position vars b, ∀ s ∈ c.strings, '\n' ∉ s.toList) ↔
      ∀ content ∈ b.content?, '\n' ∉ (vars.resolve content).toList := by
  cases b with
  | text t =>
    cases hw : t.fontWeight <;>
      simp [bodyCommands, hw, Command.strings, Body.content?, newline_not_mem_code]
  | barcode b => simp [bodyCommands, Command.strings, Body.content?]
  | qrcode q =>
    cases hb : q.showBorder <;> simp [bodyCommands, outline, hb, Command.strings, Body.content?]
  | box b => simp [bodyCommands, outline, Command.strings, Body.content?]

theorem strings_commands (d : Document α) (vars : Variables) :
    (∀ c ∈ commands d vars, ∀ s ∈ c.strings, '\n' ∉ s.toList) ↔
      ∀ e ∈ d.elements, ∀ content ∈ e.content?, '\n' ∉ (vars.resolve content).toList := by
  have helement : ∀ e : Element α,
      (∀ c ∈ elementCommands vars e, ∀ s ∈ c.strings, '\n' ∉ s.toList) ↔
        ∀ content ∈ e.content?, '\n' ∉ (vars.resolve content).toList :=
    fun e => strings_bodyCommands e.position vars e.body
  unfold commands
  simp only [List.forall_mem_append, List.forall_mem_cons, List.forall_mem_flatMap, helement]
  simp [Command.strings]

theorem linePerCommand_iff_forall_line [NumberText α] (d : Document α) (vars : Variables) :
    LinePerCommand d vars ↔ ∀ c ∈ commands d vars, '\n' ∉ c.line.toList := by
  have hjob : (compile d vars).toList =
      ((commands d vars).map fun c => c.line.toList).flatMap (· ++ ['\n']) := by
    unfold compile
    rw [String.toList_join, List.flatMap_map, List.flatMap_map]
    exact List.flatMap_congr fun c _ => String.toList_append
  constructor
  · intro hjobLines c hc
    have hpiece : c.line.toList ∈ Text.cut '\n' (compile d vars) := by
      rw [hjobLines.lines]
      exact List.mem_append_left _ (List.mem_map_of_mem hc)
    exact Text.not_mem_of_mem_splitOn hpiece
  · intro hlines
    have hcut := Text.cut_of_ends hjob (List.forall_mem_map.mpr hlines)
    refine ⟨hcut, ?_⟩
    rw [hcut, List.dropLast_concat, List.map_map, ← map_name_commands d vars]
    exact List.map_congr_left fun c _ => c.keyword_line

/-- **One command per line.** A job is cut at its line breaks into the commands that it was made of
exactly when no content has a line break in it. -/
theorem line_per_command_iff (d : Document Float) (vars : Variables) :
    LinePerCommand d vars ↔
      ∀ e ∈ d.elements, ∀ content ∈ e.content?, '\n' ∉ (vars.resolve content).toList := by
  rw [linePerCommand_iff_forall_line, ← strings_commands]
  simp only [Command.newline_mem_line, not_exists, not_and]

/-- The second line of a text is a line of the job. -/
theorem not_linePerCommand_of_line_break :
    ¬ LinePerCommand
      (⟨LabelSize.standard, [Element.text (Variables.token "name")]⟩ : Document Float)
      (StringMap.ofList [(Variables.token "name", "A\nB")]) := by
  intro hjob
  have hlines := (linePerCommand_iff_forall_line _ _).mp hjob
  simp only [Command.newline_mem_line, not_exists, not_and] at hlines
  have hcontents := (strings_commands _ _).mp hlines
  have hbreak : '\n' ∈ (Variables.resolve (StringMap.ofList [(Variables.token "name", "A\nB")])
      (Variables.token "name")).toList := by decide +kernel
  exact hcontents _ List.mem_cons_self _ rfl hbreak

end ThermalLabel.Tspl

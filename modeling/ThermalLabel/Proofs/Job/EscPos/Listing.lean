import Mathlib.Data.List.Basic
import ThermalLabel.Job.Basic
import ThermalLabel.Proofs.Text.Hex

/-! # Listings

A job of bytes is shown as a row of pairs of digits, or as a listing: a line for every command, with
a comment that describes it. The comment of a text or of a barcode shows the content as it is. What
it looks like does not matter, as a comment ends only with its line; a line break in it makes one
line too many, with a part of the comment on it (`listed_iff`). -/

namespace ThermalLabel.EscPos

/-! ### Comments taken away -/

/-- A line without its comment and without the blank before it. -/
def uncommented : List Char → List Char
  | ' ' :: '/' :: '/' :: _ => []
  | '/' :: '/' :: _ => []
  | c :: cs => c :: uncommented cs
  | [] => []

/-- What is left of a text without comments, all on one line. -/
def withoutComments (s : String) : String :=
  " ".intercalate ((((Text.cut '\n' s).map uncommented).filter (· ≠ [])).map String.ofList)

theorem uncommented_cons {c : Char} (hc : c ≠ '/') {cs : List Char} (hcs : cs.head? ≠ some '/') :
    uncommented (c :: cs) = c :: uncommented cs := by
  rw [uncommented.eq_def (c :: cs)]
  split <;> simp_all

theorem uncommented_append {front : List Char} (h : '/' ∉ front) (rest : List Char) :
    uncommented (front ++ ' ' :: '/' :: '/' :: rest) = front := by
  induction front with
  | nil => rfl
  | cons c front ih =>
    have hc : c ≠ '/' := Ne.symm (List.ne_of_not_mem_cons h)
    have hfront : '/' ∉ front := List.not_mem_of_not_mem_cons h
    -- also when `c` is a blank, no comment begins at it
    have hhead : (front ++ ' ' :: '/' :: '/' :: rest).head? ≠ some '/' := by
      cases front with
      | nil => simp
      | cons c' front => simpa using Ne.symm (List.ne_of_not_mem_cons hfront)
    rw [List.cons_append, uncommented_cons hc hhead, ih hfront]

namespace Command

theorem toList_line (c : Command) :
    c.line.toList = (Text.hexBytes c.bytes).toList ++
      (if c.bytes = [] then [] else [' ']) ++ '/' :: '/' :: ' ' :: c.label.toList := by
  unfold line
  by_cases h : c.bytes = []
  · simp [h, Text.hexBytes]
  · simp [h]

theorem uncommented_line (c : Command) :
    uncommented c.line.toList = (Text.hexBytes c.bytes).toList := by
  have hslash : '/' ∉ (Text.hexBytes c.bytes).toList := Text.not_mem_hexBytes rfl (by decide) _
  rw [toList_line]
  by_cases h : c.bytes = []
  · rw [h]
    rfl
  · rw [if_neg h, List.append_assoc]
    exact uncommented_append hslash (' ' :: c.label.toList)

/-- The line of a command is broken where its label is. -/
theorem newline_mem_line (c : Command) : '\n' ∈ c.line.toList ↔ '\n' ∈ c.label.toList := by
  have hbytes : '\n' ∉ (Text.hexBytes c.bytes).toList := Text.not_mem_hexBytes rfl (by decide) _
  have hblank : '\n' ∉ (if c.bytes = [] then [] else [' ']) := by split <;> decide
  rw [toList_line]
  simp [hbytes, hblank]

/-- The text of its own that a command shows in its label. -/
def shown? : Command → Option String
  | .text content => some content
  | .code128 content => some content
  | .note label => some label
  | _ => none

theorem newline_mem_label (c : Command) :
    '\n' ∈ c.label.toList ↔ ∃ shown ∈ c.shown?, '\n' ∈ shown.toList := by
  have hdigits : ∀ n : Nat, '\n' ∉ Nat.toDigits 10 n := Text.not_mem_toDigits rfl
  unfold label shown?
  cases c with
  | selectFont small => cases small <;> simp
  | emphasis isOn => cases isOn <;> simp
  | _ => simp [hdigits]

end Command

/-! ### The listing -/

variable {α : Type} [Scalar α]

/-- A job with comments has a line for every command, and without its comments it is the row. -/
structure Listed (d : Document α) (vars : Variables) : Prop where
  lines : (Text.cut '\n' (compile d vars true)).length = (commands d vars).length
  plain : withoutComments (compile d vars true) = compile d vars false

theorem commands_ne_nil (d : Document α) (vars : Variables) : commands d vars ≠ [] := by
  simp [commands]

theorem toList_compile_commented (d : Document α) (vars : Variables) :
    (compile d vars true).toList =
      ['\n'].intercalate ((commands d vars).map fun c => c.line.toList) := by
  unfold compile
  rw [if_pos rfl, String.toList_intercalate, List.map_map]
  rfl

/-- A row is what the rows of the commands make together; notes have none. -/
theorem compile_plain (d : Document α) (vars : Variables) :
    compile d vars false =
      " ".intercalate
        ((((commands d vars).map Command.bytes).filter (· ≠ [])).map Text.hexBytes) := by
  have hflatten : compileBytes d vars =
      (((commands d vars).map Command.bytes).filter (· ≠ [])).flatten := by
    unfold compileBytes
    rw [List.flatMap_def, List.flatten_filter_ne_nil]
  unfold compile
  rw [if_neg Bool.false_ne_true, hflatten]
  exact Text.hexBytes_flatten fun row hrow => by simpa using List.of_mem_filter hrow

theorem withoutComments_compile {d : Document α} {vars : Variables}
    (h : ∀ c ∈ commands d vars, '\n' ∉ c.line.toList) :
    withoutComments (compile d vars true) = compile d vars false := by
  have hcut : Text.cut '\n' (compile d vars true) =
      (commands d vars).map fun c => c.line.toList := by
    unfold Text.cut
    rw [toList_compile_commented]
    refine List.splitOn_intercalate '\n' (fun l hl => ?_) (by simpa using commands_ne_nil d vars)
    obtain ⟨c, hc, rfl⟩ := List.mem_map.mp hl
    exact h c hc
  have hempty : ∀ c : Command, (Text.hexBytes c.bytes).toList ≠ [] ↔ c.bytes ≠ [] := fun c => by
    rw [Ne, String.toList_eq_nil_iff, Text.hexBytes_eq_empty]
  -- both sides are joined from the rows of the commands with bytes
  rw [compile_plain]
  unfold withoutComments
  rw [hcut, List.map_map, List.filter_map, List.filter_map, List.map_map, List.map_map]
  simp only [Function.comp_def, Command.uncommented_line, hempty, String.ofList_toList]

theorem listed_iff_forall_line (d : Document α) (vars : Variables) :
    Listed d vars ↔ ∀ c ∈ commands d vars, '\n' ∉ c.line.toList := by
  have hne : ((commands d vars).map fun c => c.line.toList) ≠ [] := by
    simpa using commands_ne_nil d vars
  have hlength := Text.length_cut_iff (toList_compile_commented d vars) hne
  rw [List.length_map, List.forall_mem_map] at hlength
  constructor
  · intro hlisted
    exact hlength.mp hlisted.lines
  · intro hlines
    exact ⟨hlength.mpr hlines, withoutComments_compile hlines⟩

/-! ### Labels -/

/-- QR codes are described by the length of their data only. -/
theorem shown_bodyCommands (position : Point α) (vars : Variables) (b : Body α) :
    (∀ c ∈ bodyCommands position vars b, '\n' ∉ c.label.toList) ↔
      (b.kind ≠ .qrcode → ∀ content ∈ b.content?, '\n' ∉ (vars.resolve content).toList) := by
  cases b with
  | text t =>
    simp [bodyCommands, moveTo, Command.newline_mem_label, Command.shown?, Body.kind, Body.content?]
  | qrcode q =>
    simp [bodyCommands, qrCommands, moveTo, Command.newline_mem_label, Command.shown?, Body.kind]
  | barcode b =>
    simp [bodyCommands, moveTo, Command.newline_mem_label, Command.shown?, Body.kind, Body.content?]
  | box b =>
    simp [bodyCommands, Command.newline_mem_label, Command.shown?, Body.content?]

theorem shown_commands (d : Document α) (vars : Variables) :
    (∀ c ∈ commands d vars, '\n' ∉ c.label.toList) ↔ ∀ e ∈ d.elements, e.kind ≠ .qrcode →
      ∀ content ∈ e.content?, '\n' ∉ (vars.resolve content).toList := by
  have helement : ∀ e : Element α, (∀ c ∈ elementCommands vars e, '\n' ∉ c.label.toList) ↔
      (e.kind ≠ .qrcode → ∀ content ∈ e.content?, '\n' ∉ (vars.resolve content).toList) :=
    fun e => shown_bodyCommands e.position vars e.body
  unfold commands
  simp only [List.forall_mem_append, List.forall_mem_cons, List.forall_mem_flatMap, helement]
  simp [Command.newline_mem_label, Command.shown?]

variable [NumberText α]

/-- **The renderings of a job agree.** The row of a job is read as the bytes for the printer. The
listing has a line for every command and is the row without its comments, exactly when no text and
no barcode has a line break in it. -/
theorem listed_iff (d : Document α) (vars : Variables) :
    Text.unhex? (Job.compile .escpos d vars false) = some (Job.payload .escpos d vars) ∧
      (Listed d vars ↔ ∀ e ∈ d.elements, e.kind ≠ .qrcode →
        ∀ content ∈ e.content?, '\n' ∉ (vars.resolve content).toList) := by
  constructor
  · unfold Job.compile Job.payload compile
    rw [if_neg Bool.false_ne_true]
    exact Text.unhex?_hexBytes (compileBytes d vars)
  · rw [listed_iff_forall_line, ← shown_commands]
    simp only [Command.newline_mem_line]

/-- The comment of a text of two lines is on two lines. -/
theorem not_listed_of_line_break :
    ¬ Listed (⟨LabelSize.standard, [Element.text (Variables.token "name")]⟩ : Document Float)
      (StringMap.ofList [(Variables.token "name", "A\nB")]) := by
  intro hlisted
  have hlines := (listed_iff_forall_line _ _).mp hlisted
  simp only [Command.newline_mem_line] at hlines
  have hcontents := (shown_commands _ _).mp hlines
  have hbreak : '\n' ∈ (Variables.resolve (StringMap.ofList [(Variables.token "name", "A\nB")])
      (Variables.token "name")).toList := by decide +kernel
  exact hcontents _ List.mem_cons_self (by decide) _ rfl hbreak

end ThermalLabel.EscPos

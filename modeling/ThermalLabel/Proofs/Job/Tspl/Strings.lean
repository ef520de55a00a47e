import ThermalLabel.Decimal.Exact
import ThermalLabel.Proofs.Job.Tspl

/-! # Strings in line commands

A string ends at the first quote that is not in the middle of an escaped one. The pieces of the
escape, a backslash and two brackets, are not escaped themselves, and need not be: after what is
written for a string only a closing bracket could be taken for a part of it. So every string is read
back, whatever pieces of the escape it holds or ends with, and nothing of what follows is lost.

In a command a comma or the end of the line follows. The last argument of a command that prints a
content is therefore read as this content (`strings_read_back`). -/

namespace ThermalLabel.Tspl

/-! ### Reading a string -/

/-- What is written for a quote inside of a string. -/
def escapedQuote : List Char := ['\\', '[', '"', ']']

/-- Whether a quote between two texts ends a string; the one before it is given in reverse. -/
def closes (before after : List Char) : Bool :=
  !(['[', '\\'].isPrefixOf before && [']'].isPrefixOf after)

/-- A text cut at the first quote that ends a string, after what was passed already, in reverse. -/
def cutAtClosing? (passed : List Char) : List Char → Option (List Char × List Char)
  | [] => none
  | c :: cs =>
    if c = '"' ∧ closes passed cs = true then some (passed.reverse, cs)
    else cutAtClosing? (c :: passed) cs

/-- The string that a text begins with, and what follows it. -/
def readString? : List Char → Option (List Char × List Char)
  | '"' :: cs => (cutAtClosing? [] cs).map fun (written, rest) =>
    (Text.replaceChars escapedQuote ['"'] written, rest)
  | _ => none

/-- The characters of a string as they are written between its quotes. -/
def written (cs : List Char) : List Char := cs.flatMap (Text.substitute '"' escapedQuote)

theorem toList_quote (s : String) : (quote s).toList = '"' :: written s.toList ++ ['"'] := by
  have hwritten := Text.toList_replace_singleton '"' "\\[\"]" s
  unfold quote
  rw [String.toList_append, String.toList_append]
  exact congrArg (fun cs => '"' :: cs ++ ['"']) hwritten

theorem written_quote (cs : List Char) : written ('"' :: cs) = escapedQuote ++ written cs := rfl

theorem written_of_ne {c : Char} (h : c ≠ '"') (cs : List Char) :
    written (c :: cs) = c :: written cs := by
  have hkept : Text.substitute '"' escapedQuote c = [c] := if_neg h
  unfold written
  rw [List.flatMap_cons, hkept, List.singleton_append]

/-! ### The end of a string -/

theorem cutAtClosing?_of_ne {c : Char} (h : c ≠ '"') (passed cs : List Char) :
    cutAtClosing? passed (c :: cs) = cutAtClosing? (c :: passed) cs :=
  if_neg fun hclosing => h hclosing.1

/-- An escaped quote is passed: it stands between its brackets. -/
theorem cutAtClosing?_escapedQuote (passed cs : List Char) :
    cutAtClosing? passed (escapedQuote ++ cs) =
      cutAtClosing? (escapedQuote.reverse ++ passed) cs := by
  have hinside : closes ('[' :: '\\' :: passed) (']' :: cs) = false := by simp [closes]
  show cutAtClosing? passed ('\\' :: '[' :: '"' :: ']' :: cs) = _
  rw [cutAtClosing?_of_ne (by decide), cutAtClosing?_of_ne (by decide), cutAtClosing?,
    if_neg (by simp [hinside]), cutAtClosing?_of_ne (by decide)]
  rfl

/-- What is written for a string ends at the quote behind it, unless a bracket makes that quote the
middle of an escaped one. -/
theorem cutAtClosing?_written (cs : List Char) {rest : List Char} (h : rest.head? ≠ some ']')
    (passed : List Char) :
    cutAtClosing? passed (written cs ++ '"' :: rest) =
      some (passed.reverse ++ written cs, rest) := by
  -- whatever was passed before, so that the last characters of a string may be pieces of an escape
  induction cs generalizing passed with
  | nil =>
    have hbracket : [']'].isPrefixOf rest = false := by
      cases rest with
      | nil => rfl
      | cons c rest =>
        have hc : ']' ≠ c := fun heq => h (congrArg some heq.symm)
        simp [List.isPrefixOf, hc]
    have hend : closes passed rest = true := by simp [closes, hbracket]
    show cutAtClosing? passed ('"' :: rest) = _
    rw [cutAtClosing?, if_pos ⟨rfl, hend⟩]
    exact congrArg (fun front => some (front, rest)) (List.append_nil _).symm
  | cons c cs ih =>
    by_cases hc : c = '"'
    · subst hc
      have hrest := ih (escapedQuote.reverse ++ passed)
      rw [written_quote, List.append_assoc, cutAtClosing?_escapedQuote, hrest]
      simp
    · have hrest := ih (c :: passed)
      rw [written_of_ne hc, List.cons_append, cutAtClosing?_of_ne hc, hrest]
      simp

/-! ### Escapes undone -/

theorem head?_written (cs : List Char) : (written cs).head? ≠ some '"' := by
  cases cs with
  | nil => exact nofun
  | cons c cs =>
    by_cases hc : c = '"'
    · subst hc
      exact fun hhead => absurd (Option.some.inj hhead) (by decide)
    · rw [written_of_ne hc]
      exact fun hhead => hc (Option.some.inj hhead)

/-- An escape begins nowhere but where a quote was written: behind a backslash and a bracket of the
string itself no quote follows at once, and a quote that was written begins with a backslash. -/
theorem not_isPrefixOf_written (c : Char) (cs : List Char) :
    escapedQuote.isPrefixOf (c :: written cs) = false := by
  rw [Bool.eq_false_iff]
  intro hprefix
  obtain ⟨rest, hrest⟩ := List.isPrefixOf_iff_prefix.mp hprefix
  obtain ⟨-, hbracket⟩ := List.cons.inj hrest
  cases cs with
  | nil => cases hbracket
  | cons d cs =>
    by_cases hd : d = '"'
    · subst hd
      exact absurd (List.cons.inj hbracket).1 (by decide)
    · rw [written_of_ne hd] at hbracket
      obtain ⟨-, hquote⟩ := List.cons.inj hbracket
      have hhead := head?_written cs
      rw [← hquote] at hhead
      exact hhead rfl

theorem replaceFrom_written (cs done : List Char) :
    Text.replaceFrom escapedQuote ['"'] done 0 (written cs) = done.reverse ++ cs := by
  induction cs generalizing done with
  | nil => exact (List.append_nil _).symm
  | cons c cs ih =>
    by_cases hc : c = '"'
    · subst hc
      have hescape : Text.replaceFrom escapedQuote ['"'] done 0 (escapedQuote ++ written cs) =
          Text.replaceFrom escapedQuote ['"'] ('"' :: done) 0 (written cs) := rfl
      rw [written_quote, hescape, ih]
      simp
    · have hplain := not_isPrefixOf_written c cs
      rw [written_of_ne hc, Text.replaceFrom, if_neg (by simp [hplain]), ih]
      simp

theorem replaceChars_written (cs : List Char) :
    Text.replaceChars escapedQuote ['"'] (written cs) = cs :=
  replaceFrom_written cs []

/-- **A string is read back from its quotes.** -/
theorem readString?_quote (s : String) {rest : List Char} (h : rest.head? ≠ some ']') :
    readString? ((quote s).toList ++ rest) = some (s.toList, rest) := by
  have hcut := cutAtClosing?_written s.toList h []
  have htext : (quote s).toList ++ rest = '"' :: (written s.toList ++ '"' :: rest) := by
    rw [toList_quote]
    simp
  rw [htext, readString?, hcut, Option.map_some]
  exact congrArg (fun cs => some (cs, rest)) (replaceChars_written s.toList)

/-! ### Arguments -/

/-- An argument of a command: a string, or a word that stands as it is. -/
inductive Argument where
  | string (s : String)
  | word (s : String)
deriving DecidableEq

namespace Argument

/-- An argument as it is written. -/
def text : Argument → String
  | .string s => quote s
  | .word s => s

/-- A word holds nothing that ends an argument, and does not begin a string. -/
def Fits : Argument → Prop
  | .string _ => True
  | .word s => ',' ∉ s.toList ∧ '\n' ∉ s.toList ∧ '"' ∉ s.toList

end Argument

/-- Whether a word goes on with a character. -/
def inWord (c : Char) : Bool := c != ',' && c != '\n'

/-- The argument that a text begins with, and what follows it. -/
def readArgument? (cs : List Char) : Option (Argument × List Char) :=
  if cs.head? = some '"' then
    (readString? cs).map fun (s, rest) => (.string (String.ofList s), rest)
  else some (.word (String.ofList (cs.takeWhile inWord)), cs.dropWhile inWord)

theorem length_cutAtClosing? {passed cs front rest : List Char}
    (h : cutAtClosing? passed cs = some (front, rest)) : rest.length < cs.length := by
  induction cs generalizing passed with
  | nil => cases h
  | cons c cs ih =>
    rw [cutAtClosing?] at h
    split_ifs at h
    · obtain ⟨-, rfl⟩ := Prod.mk.inj (Option.some.inj h)
      exact Nat.lt_succ_self _
    · exact Nat.lt_succ_of_lt (ih h)

theorem length_readArgument? {cs rest : List Char} {a : Argument}
    (h : readArgument? cs = some (a, rest)) : rest.length ≤ cs.length := by
  unfold readArgument? at h
  split_ifs at h with hhead
  · cases cs with
    | nil => cases hhead
    | cons c cs =>
      obtain rfl := Option.some.inj hhead
      obtain ⟨⟨s, after⟩, hread, heq⟩ := Option.map_eq_some_iff.mp h
      obtain ⟨⟨front, last⟩, hcut, heq'⟩ := Option.map_eq_some_iff.mp hread
      obtain ⟨-, rfl⟩ := Prod.mk.inj heq
      obtain ⟨-, rfl⟩ := Prod.mk.inj heq'
      exact Nat.le_succ_of_le (Nat.le_of_lt (length_cutAtClosing? hcut))
  · obtain ⟨-, rfl⟩ := Prod.mk.inj (Option.some.inj h)
    exact (List.dropWhile_suffix inWord).length_le

/-- Arguments with commas between them, and what follows the last one. -/
def readArguments? (cs : List Char) : Option (List Argument × List Char) :=
  match _h : readArgument? cs with
  | none => none
  | some (a, ',' :: more) => (readArguments? more).map fun (args, rest) => (a :: args, rest)
  | some (a, rest) => some ([a], rest)
termination_by cs.length
decreasing_by exact length_readArgument? (by assumption)

/-- The arguments of a command, which follow its first word. -/
def commandArguments? (cs : List Char) : Option (List Argument × List Char) :=
  readArguments? ((cs.dropWhile (· ≠ ' ')).drop 1)

theorem readArguments?_next {cs more : List Char} {a : Argument}
    (h : readArgument? cs = some (a, ',' :: more)) :
    readArguments? cs = (readArguments? more).map fun (args, rest) => (a :: args, rest) := by
  rw [readArguments?]
  split <;> simp_all

theorem readArguments?_last {cs rest : List Char} {a : Argument}
    (h : readArgument? cs = some (a, '\n' :: rest)) :
    readArguments? cs = some ([a], '\n' :: rest) := by
  rw [readArguments?]
  split <;> simp_all

/-- An argument is read back in front of a character that ends it. -/
theorem readArgument?_text {a : Argument} (h : a.Fits) {c : Char} (hc : inWord c = false)
    (rest : List Char) : readArgument? (a.text.toList ++ c :: rest) = some (a, c :: rest) := by
  have hstop : c = ',' ∨ c = '\n' := by
    simpa [inWord, imp_iff_not_or] using hc
  cases a with
  | string s =>
    have hbracket : (c :: rest).head? ≠ some ']' := by
      rcases hstop with rfl | rfl <;> exact fun heq => absurd (Option.some.inj heq) (by decide)
    have hread := readString?_quote s hbracket
    have hquote : ((quote s).toList ++ c :: rest).head? = some '"' := by
      rw [toList_quote]
      rfl
    show readArgument? ((quote s).toList ++ c :: rest) = _
    rw [readArgument?, if_pos hquote, hread]
    exact congrArg (fun s => some (Argument.string s, c :: rest)) String.ofList_toList
  | word s =>
    obtain ⟨hcomma, hline, hquote⟩ := h
    have hword : ∀ d ∈ s.toList, inWord d = true := by
      intro d hd
      have hne : d ≠ ',' := fun heq => hcomma (heq ▸ hd)
      have hne' : d ≠ '\n' := fun heq => hline (heq ▸ hd)
      simp [inWord, hne, hne']
    have hhead : (s.toList ++ c :: rest).head? ≠ some '"' := by
      intro hhead
      cases hs : s.toList with
      | nil =>
        rw [hs] at hhead
        rcases hstop with rfl | rfl <;> exact absurd (Option.some.inj hhead) (by decide)
      | cons d ds =>
        rw [hs] at hhead hquote
        exact hquote (Option.some.inj hhead ▸ List.mem_cons_self)
    have htake : (s.toList ++ c :: rest).takeWhile inWord = s.toList := by
      rw [List.takeWhile_append_of_pos hword, List.takeWhile_cons_of_neg (by simp [hc]),
        List.append_nil]
    have hdrop : (s.toList ++ c :: rest).dropWhile inWord = c :: rest := by
      rw [List.dropWhile_append_of_pos hword, List.dropWhile_cons_of_neg (by simp [hc])]
    show readArgument? (s.toList ++ c :: rest) = _
    rw [readArgument?, if_neg hhead, htake, hdrop, String.ofList_toList]

/-- **Arguments are read back**, up to the end of the line. -/
theorem readArguments?_arguments {args : List Argument} (hne : args ≠ [])
    (h : ∀ a ∈ args, a.Fits) (rest : List Char) :
    readArguments? ((arguments (args.map Argument.text)).toList ++ '\n' :: rest) =
      some (args, '\n' :: rest) := by
  induction args with
  | nil => exact absurd rfl hne
  | cons a args ih =>
    obtain ⟨ha, hargs⟩ := List.forall_mem_cons.mp h
    cases args with
    | nil => exact readArguments?_last (readArgument?_text ha rfl rest)
    | cons b args =>
      have hrest := ih (List.cons_ne_nil b args) hargs
      have hcons : arguments ((a :: b :: args).map Argument.text) =
          a.text ++ "," ++ arguments ((b :: args).map Argument.text) :=
        String.intercalate_cons_cons
      have htext : (arguments ((a :: b :: args).map Argument.text)).toList ++ '\n' :: rest =
          a.text.toList ++
            ',' :: ((arguments ((b :: args).map Argument.text)).toList ++ '\n' :: rest) := by
        rw [hcons, String.toList_append, String.toList_append]
        simp
      rw [htext, readArguments?_next (readArgument?_text ha rfl _), hrest]
      rfl

/-! ### Commands that print a content -/

namespace Command

variable {α : Type}

/-- The arguments before the content of a command that prints one, and the content. -/
def printed? : Command α → Option (List Argument × String)
  | .text x y font scale content =>
    some ([.word (int x), .word (int y), .string font, .word "0", .word (toString scale),
      .word (toString scale)], content)
  | .barcode x y height content =>
    some ([.word (int x), .word (int y), .string "128", .word (int height), .word "1", .word "0",
      .word "2", .word "2"], content)
  | .qrcode x y cell content =>
    some ([.word (int x), .word (int y), .word "L", .word (int cell), .word "A", .word "0"],
      content)
  | _ => none

theorem isSome_printed? {c : Command α} :
    c.printed?.isSome = true ↔ c.name ∈ ["TEXT", "BARCODE", "QRCODE"] := by
  cases c <;> simp [printed?, name]

theorem toList_line_of_printed? [NumberText α] {c : Command α} {args : List Argument}
    {content : String} (h : c.printed? = some (args, content)) :
    c.line.toList = c.name.toList ++ ' ' ::
      (arguments ((args ++ [Argument.string content]).map Argument.text)).toList := by
  cases c with
  | text | barcode | qrcode =>
    obtain ⟨rfl, rfl⟩ := Prod.mk.inj (Option.some.inj h)
    simp [line, name, Argument.text]
  | _ => cases h

theorem fits_of_printed? {c : Command α} {args : List Argument} {content : String}
    (h : c.printed? = some (args, content)) : ∀ a ∈ args, a.Fits := by
  have hint (n : Int64) : (Argument.word (int n)).Fits :=
    ⟨Text.not_mem_int rfl (by decide) _, Text.not_mem_int rfl (by decide) _,
      Text.not_mem_int rfl (by decide) _⟩
  have hnat (n : Nat) : (Argument.word (toString n)).Fits := by
    have hdigits : (toString n).toList = Nat.toDigits 10 n := Nat.toList_repr
    refine ⟨?_, ?_, ?_⟩ <;> rw [hdigits] <;> exact Text.not_mem_toDigits rfl n
  have hfixed : ∀ s ∈ ["0", "1", "2", "L", "A"], (Argument.word s).Fits := by
    simp only [List.forall_mem_cons]
    refine ⟨?_, ?_, ?_, ?_, ?_, nofun⟩ <;> exact ⟨by decide, by decide, by decide⟩
  simp only [List.forall_mem_cons] at hfixed
  obtain ⟨hzero, hone, htwo, hlevel, hmode, -⟩ := hfixed
  cases c with
  | text x y font scale =>
    obtain ⟨rfl, -⟩ := Prod.mk.inj (Option.some.inj h)
    simp only [List.forall_mem_cons]
    exact ⟨hint x, hint y, trivial, hzero, hnat scale, hnat scale, nofun⟩
  | barcode x y height =>
    obtain ⟨rfl, -⟩ := Prod.mk.inj (Option.some.inj h)
    simp only [List.forall_mem_cons]
    exact ⟨hint x, hint y, trivial, hint height, hone, hzero, htwo, htwo, nofun⟩
  | qrcode x y cell =>
    obtain ⟨rfl, -⟩ := Prod.mk.inj (Option.some.inj h)
    simp only [List.forall_mem_cons]
    exact ⟨hint x, hint y, hlevel, hint cell, hmode, hzero, nofun⟩
  | _ => cases h

/-- The arguments of a command that prints a content are read back. -/
theorem commandArguments?_line [NumberText α] {c : Command α} {args : List Argument}
    {content : String} (h : c.printed? = some (args, content)) (rest : List Char) :
    commandArguments? (c.line.toList ++ '\n' :: rest) =
      some (args ++ [Argument.string content], '\n' :: rest) := by
  have hname : ∀ d ∈ c.name.toList, decide (d ≠ ' ') = true := by
    cases c <;> simp [name]
  have hfits : ∀ a ∈ args ++ [Argument.string content], a.Fits :=
    List.forall_mem_append.mpr ⟨fits_of_printed? h, by simp [Argument.Fits]⟩
  have hread := readArguments?_arguments (List.append_ne_nil_of_right_ne_nil args
    (List.cons_ne_nil _ _)) hfits rest
  rw [commandArguments?, toList_line_of_printed? h, List.append_assoc, List.cons_append,
    List.dropWhile_append_of_pos hname, List.dropWhile_cons_of_neg (by simp)]
  exact hread

end Command

/-! ### Jobs -/

variable {α : Type} [Scalar α]

/-- What the commands of a body print is the content of the body. -/
theorem content_of_mem_bodyCommands {position : Point α} {vars : Variables} {b : Body α}
    {c : Command α} (hc : c ∈ bodyCommands position vars b) {args : List Argument} {text : String}
    (h : c.printed? = some (args, text)) : ∃ content ∈ b.content?, text = vars.resolve content := by
  cases b with
  | text t =>
    refine ⟨t.content, rfl, ?_⟩
    cases hw : t.fontWeight with
    | normal =>
      simp only [bodyCommands, hw, List.mem_cons, List.not_mem_nil, or_false] at hc
      subst hc
      exact (Prod.mk.inj (Option.some.inj h)).2.symm
    | bold =>
      simp only [bodyCommands, hw, List.mem_cons, List.not_mem_nil, or_false] at hc
      rcases hc with rfl | rfl <;> exact (Prod.mk.inj (Option.some.inj h)).2.symm
  | barcode b =>
    simp only [bodyCommands, List.mem_cons, List.not_mem_nil, or_false] at hc
    subst hc
    exact ⟨b.content, rfl, (Prod.mk.inj (Option.some.inj h)).2.symm⟩
  | qrcode q =>
    refine ⟨q.content, rfl, ?_⟩
    cases hb : q.showBorder with
    | false =>
      simp only [bodyCommands, hb, Bool.false_eq_true, if_false, List.mem_cons, List.not_mem_nil,
        or_false] at hc
      subst hc
      exact (Prod.mk.inj (Option.some.inj h)).2.symm
    | true =>
      simp only [bodyCommands, hb, if_true, List.mem_cons, List.not_mem_nil, or_false] at hc
      rcases hc with rfl | rfl
      · cases h
      · exact (Prod.mk.inj (Option.some.inj h)).2.symm
  | box b =>
    simp only [bodyCommands, List.mem_cons, List.not_mem_nil, or_false] at hc
    subst hc
    cases h

theorem exists_element_of_mem_commands {d : Document α} {vars : Variables} {c : Command α}
    (hc : c ∈ commands d vars) (h : c.printed?.isSome = true) :
    ∃ e ∈ d.elements, c ∈ elementCommands vars e := by
  unfold commands at hc
  rcases List.mem_append.mp hc with hc | hc
  · rcases List.mem_append.mp hc with hc | hc
    · simp only [List.mem_cons, List.not_mem_nil, or_false] at hc
      rcases hc with rfl | rfl | rfl | rfl <;> cases h
    · exact List.mem_flatMap.mp hc
  · simp only [List.mem_cons, List.not_mem_nil, or_false] at hc
    rcases hc with rfl | rfl <;> cases h

/-- **Strings are read back.** Whatever a string holds, it is read from its quotes, and what follows
is left, unless that begins with a closing bracket. So the last argument of every command of a job
that prints a content is read as the content of an element, its variables replaced, whatever the
rest of the job is. -/
theorem strings_read_back [NumberText α] :
    (∀ (s : String) (rest : List Char), rest.head? ≠ some ']' →
      readString? ((quote s).toList ++ rest) = some (s.toList, rest)) ∧
    ∀ (d : Document α) (vars : Variables), ∀ c ∈ commands d vars,
      keyword c.line.toList ∈ ["TEXT", "BARCODE", "QRCODE"] →
      ∃ e ∈ d.elements, c ∈ elementCommands vars e ∧ ∃ content ∈ e.content?, ∃ args, ∀ rest,
        commandArguments? (c.line.toList ++ '\n' :: rest) =
          some (args ++ [Argument.string (vars.resolve content)], '\n' :: rest) := by
  refine ⟨fun s rest h => readString?_quote s h, fun d vars c hc hkeyword => ?_⟩
  rw [c.keyword_line, ← Command.isSome_printed?] at hkeyword
  obtain ⟨e, he, hce⟩ := exists_element_of_mem_commands hc hkeyword
  obtain ⟨⟨args, text⟩, hprinted⟩ := Option.isSome_iff_exists.mp hkeyword
  obtain ⟨content, hcontent, rfl⟩ := content_of_mem_bodyCommands hce hprinted
  exact ⟨e, he, hce, content, hcontent, args, Command.commandArguments?_line hprinted⟩

/-- A whole escape, a quote, and the beginning of an escape in front of the closing quote. -/
def piecesOfEscapes : String := "\\[\"]\"\\["

/-- Such a string is read back, by itself and as the value of a variable in a text. -/
theorem pieces_of_escapes_read_back :
    let d : Document Rat := ⟨LabelSize.standard, [Element.text (Variables.token "name")]⟩
    let vars : Variables := StringMap.ofList [(Variables.token "name", piecesOfEscapes)]
    let c : Command Rat := .text 0 0 "0" 1 piecesOfEscapes
    readString? ((quote piecesOfEscapes).toList ++ [',']) = some (piecesOfEscapes.toList, [',']) ∧
    c ∈ commands d vars ∧ ∃ args, ∀ rest, commandArguments? (c.line.toList ++ '\n' :: rest) =
      some (args ++ [Argument.string piecesOfEscapes], '\n' :: rest) := by
  intro d vars c
  have hresolved : vars.resolve (Variables.token "name") = piecesOfEscapes := by decide +kernel
  have hcommands : elementCommands vars (Element.text (Variables.token "name")) = [c] := by
    have horigin : dots (0 : Rat) = 0 := by decide +kernel
    have hfont : Font.code Font.defaultFamily = "0" := by decide +kernel
    have hscale : Font.magnification (Scalar.ofNat 12 : Rat) = 1 := by decide +kernel
    show [Command.text (dots (0 : Rat)) (dots 0) (Font.code Font.defaultFamily)
      (Font.magnification (Scalar.ofNat 12 : Rat)) (vars.resolve (Variables.token "name"))] = [c]
    rw [hresolved, horigin, hfont, hscale]
  have hc : c ∈ commands d vars := by
    refine List.mem_append_left _ (List.mem_append_right _ (List.mem_flatMap.mpr ?_))
    exact ⟨_, List.mem_cons_self, hcommands ▸ List.mem_cons_self⟩
  have hkeyword : keyword c.line.toList ∈ ["TEXT", "BARCODE", "QRCODE"] := by
    rw [c.keyword_line]
    decide
  obtain ⟨hstring, hjob⟩ := strings_read_back (α := Rat)
  obtain ⟨e, he, -, content, hcontent, args, hread⟩ := hjob d vars c hc hkeyword
  obtain rfl := List.mem_singleton.mp he
  obtain rfl := Option.some.inj hcontent
  rw [hresolved] at hread
  exact ⟨hstring _ _ (by decide), hc, args, hread⟩

end ThermalLabel.Tspl

import Mathlib.Data.List.Induction
import Mathlib.Data.List.TakeWhile
import ThermalLabel.CommandLine.Command
import ThermalLabel.Proofs.StringMap
import ThermalLabel.Proofs.Variables

/-! # Assignments on a command line

An assignment is cut at its first equals sign. What stands in front of it, without the blanks around
it, is the name of a variable, with or without braces around it; what stands behind it is the value.
The last assignment to a name counts, and it makes no difference whether a name has its braces
(`assignments_named`).

An assignment without an equals sign is refused, and so is one that has nothing in front of it.
There is one more way not to name a variable, which is to put nothing between the braces, and this
one is not refused (`empty_braces_accepted`). -/

namespace ThermalLabel

namespace Text

theorem mem_of_mem_trim {c : Char} {s : String} (h : c ∈ (trim s).toList) : c ∈ s.toList := by
  unfold trim trimChars at h
  rw [String.toList_ofList, List.mem_reverse] at h
  have hfront := (List.dropWhile_sublist isBlank).subset h
  exact (List.dropWhile_sublist isBlank).subset (List.mem_reverse.mp hfront)

/-- Braces are no blanks, so nothing is cut off between them. -/
theorem trim_token (name : String) : trim (Variables.token name) = Variables.token name := by
  have hchars : (Variables.token name).toList = '\x7b' :: (name.toList ++ ['\x7d']) :=
    Variables.toList_token name
  have hopen : isBlank '\x7b' = false := by decide
  have hclose : isBlank '\x7d' = false := by decide
  have hfront : ('\x7b' :: (name.toList ++ ['\x7d'])).dropWhile isBlank =
      '\x7b' :: (name.toList ++ ['\x7d']) := List.dropWhile_cons_of_neg (by simp [hopen])
  have hback : ('\x7b' :: (name.toList ++ ['\x7d'])).reverse =
      '\x7d' :: (name.toList.reverse ++ ['\x7b']) := by simp
  have hkept : ('\x7d' :: (name.toList.reverse ++ ['\x7b'])).dropWhile isBlank =
      '\x7d' :: (name.toList.reverse ++ ['\x7b']) := List.dropWhile_cons_of_neg (by simp [hclose])
  unfold trim trimChars
  rw [hchars, hfront, hback, hkept, ← hback, List.reverse_reverse, ← hchars, String.ofList_toList]

end Text

namespace CommandLine

/-! ### Tokens -/

theorem token_inj {name other : String} (h : Variables.token name = Variables.token other) :
    name = other := by
  have hchars := congrArg String.toList h
  rw [Variables.toList_token, Variables.toList_token] at hchars
  obtain ⟨-, hinner⟩ := List.cons.inj hchars
  exact String.toList_inj.mp (List.append_cancel_right hinner)

theorem token_ne_empty (name : String) : Variables.token name ≠ "" := by
  intro h
  have hchars := congrArg String.toList h
  rw [Variables.toList_token] at hchars
  cases hchars

theorem isToken_iff {s : String} :
    (s.toList.head? == some '\x7b' && s.toList.getLast? == some '\x7d') = true ↔
      ∃ name, s = Variables.token name := by
  rw [Bool.and_eq_true, beq_iff_eq, beq_iff_eq]
  constructor
  · rintro ⟨hhead, hlast⟩
    obtain ⟨front, hfront⟩ := List.getLast?_eq_some_iff.mp hlast
    cases front with
    | nil =>
      rw [hfront] at hhead
      exact absurd (Option.some.inj hhead) (by decide)
    | cons c inner =>
      rw [hfront] at hhead
      obtain rfl := Option.some.inj hhead
      refine ⟨String.ofList inner, String.toList_inj.mp ?_⟩
      rw [hfront, Variables.toList_token, String.toList_ofList]
      rfl
  · rintro ⟨name, rfl⟩
    rw [Variables.toList_token]
    exact ⟨rfl, List.getLast?_concat (l := '\x7b' :: name.toList)⟩

theorem tokenOf_token (name : String) : tokenOf (Variables.token name) = Variables.token name :=
  if_pos (isToken_iff.mpr ⟨name, rfl⟩)

theorem tokenOf_of_ne {s : String} (h : ∀ name, s ≠ Variables.token name) :
    tokenOf s = Variables.token s := by
  refine if_neg fun hbraces => ?_
  obtain ⟨name, hname⟩ := isToken_iff.mp hbraces
  exact h name hname

/-! ### What an assignment is -/

/-- A text that assigns a value to a key, which ends at the first equals sign. -/
structure Assigns (text key value : String) : Prop where
  text_eq : text = key ++ "=" ++ value
  ends : '=' ∉ key.toList

/-- A key stands for a name: without the blanks around it, it is the name in braces, or the name
itself unless this has braces of its own. -/
def StandsFor (key name : String) : Prop :=
  Text.trim key = Variables.token name ∨
    Text.trim key = name ∧ ∀ inner, name ≠ Variables.token inner

/-- A text that assigns something to the variable of a name. -/
def Names (text name : String) : Prop :=
  ∃ key value, Assigns text key value ∧ StandsFor key name

/-- A text that is no assignment, or one to a variable without a name. -/
def Nameless (text : String) : Prop := '=' ∉ text.toList ∨ Names text ""

/-- A text that is no assignment, or one with nothing but blanks in front of the equals sign. -/
def Malformed (text : String) : Prop :=
  '=' ∉ text.toList ∨ ∃ key value, Assigns text key value ∧ Text.trim key = ""

theorem tokenOf_eq_token_iff {key name : String} :
    tokenOf (Text.trim key) = Variables.token name ↔ StandsFor key name := by
  unfold StandsFor
  by_cases hbraced : ∃ inner, Text.trim key = Variables.token inner
  · obtain ⟨inner, hinner⟩ := hbraced
    rw [hinner, tokenOf_token]
    constructor
    · exact Or.inl
    · rintro (h | ⟨rfl, hbare⟩)
      · exact h
      · exact absurd rfl (hbare inner)
  · have hbare : ∀ inner, Text.trim key ≠ Variables.token inner := not_exists.mp hbraced
    rw [tokenOf_of_ne hbare]
    constructor
    · intro h
      obtain rfl := token_inj h
      exact .inr ⟨rfl, hbare⟩
    · rintro (h | ⟨rfl, -⟩)
      · exact absurd h (hbare name)
      · rfl

/-- Every token is the one of a name. -/
theorem exists_tokenOf (s : String) : ∃ name, tokenOf s = Variables.token name := by
  by_cases hbraced : ∃ name, s = Variables.token name
  · obtain ⟨name, rfl⟩ := hbraced
    exact ⟨name, tokenOf_token name⟩
  · exact ⟨s, tokenOf_of_ne (not_exists.mp hbraced)⟩

theorem Assigns.toList {text key value : String} (h : Assigns text key value) :
    text.toList = key.toList ++ '=' :: value.toList := by
  rw [h.text_eq, String.toList_append, String.toList_append, List.append_assoc]
  rfl

theorem exists_assigns {text : String} (h : '=' ∈ text.toList) :
    ∃ key value, Assigns text key value := by
  obtain ⟨key, value, hchars, hends⟩ := List.eq_append_cons_of_mem h
  refine ⟨String.ofList key, String.ofList value, String.toList_inj.mp ?_, ?_⟩
  · rw [hchars]
    simp
  · rwa [String.toList_ofList]

theorem bne_equals {cs : List Char} (h : '=' ∉ cs) : ∀ c ∈ cs, (c != '=') = true := by
  intro c hc
  rw [bne_iff_ne]
  rintro rfl
  exact h hc

theorem splitAtEquals_of_not_mem {cs : List Char} (h : '=' ∉ cs) :
    splitAtEquals cs = (cs, none) := by
  unfold splitAtEquals
  rw [List.dropWhile_eq_nil_iff.mpr (bne_equals h)]

theorem splitAtEquals_append {key : List Char} (h : '=' ∉ key) (value : List Char) :
    splitAtEquals (key ++ '=' :: value) = (key, some value) := by
  unfold splitAtEquals
  rw [List.dropWhile_append_of_pos (bne_equals h), List.takeWhile_append_of_pos (bne_equals h)]
  simp

theorem Assigns.unique {text key value key' value' : String} (h : Assigns text key value)
    (h' : Assigns text key' value') : key = key' ∧ value = value' := by
  have hsplit := splitAtEquals_append h.ends value.toList
  have hsplit' := splitAtEquals_append h'.ends value'.toList
  rw [← h.toList] at hsplit
  rw [← h'.toList, hsplit] at hsplit'
  obtain ⟨hkey, hvalue⟩ := Prod.mk.inj hsplit'
  exact ⟨String.toList_inj.mp hkey, String.toList_inj.mp (Option.some.inj hvalue)⟩

theorem assignment_of_not_mem {text : String} (h : '=' ∉ text.toList) :
    assignment text = .error (.invalidArgument (.notAssignment text)) := by
  unfold assignment
  rw [splitAtEquals_of_not_mem h]

theorem assignment_of_assigns {text key value : String} (h : Assigns text key value) :
    assignment text = if Text.trim key = "" then
      .error (.invalidArgument (.emptyVariableName text))
    else .ok (tokenOf (Text.trim key), value) := by
  unfold assignment
  rw [h.toList, splitAtEquals_append h.ends]
  simp only [String.ofList_toList, String.isEmpty_iff]

/-- **When an assignment is refused.** -/
theorem assignment_eq_error_iff {text : String} :
    (∃ error, assignment text = .error error) ↔ Malformed text := by
  unfold Malformed
  by_cases hmem : '=' ∈ text.toList
  · obtain ⟨key, value, hassigns⟩ := exists_assigns hmem
    rw [assignment_of_assigns hassigns]
    by_cases hkey : Text.trim key = ""
    · rw [if_pos hkey]
      exact iff_of_true ⟨_, rfl⟩ (.inr ⟨key, value, hassigns, hkey⟩)
    · rw [if_neg hkey]
      refine iff_of_false nofun ?_
      rintro (hnot | ⟨key', value', hassigns', hkey'⟩)
      · exact hnot hmem
      · obtain ⟨rfl, -⟩ := hassigns.unique hassigns'
        exact hkey hkey'
  · rw [assignment_of_not_mem hmem]
    exact iff_of_true ⟨_, rfl⟩ (.inl hmem)

/-- **What an assignment says.** -/
theorem assignment_eq_ok_iff {text token value : String} :
    assignment text = .ok (token, value) ↔
      ∃ key, Assigns text key value ∧ Text.trim key ≠ "" ∧ tokenOf (Text.trim key) = token := by
  by_cases hmem : '=' ∈ text.toList
  · obtain ⟨key, value', hassigns⟩ := exists_assigns hmem
    rw [assignment_of_assigns hassigns]
    constructor
    · intro h
      split_ifs at h with hkey
      obtain ⟨rfl, rfl⟩ := Prod.mk.inj (Except.ok.inj h)
      exact ⟨key, hassigns, hkey, rfl⟩
    · rintro ⟨key', hassigns', hkey, rfl⟩
      obtain ⟨rfl, rfl⟩ := hassigns.unique hassigns'
      exact if_neg hkey
  · rw [assignment_of_not_mem hmem]
    refine iff_of_false nofun ?_
    rintro ⟨key, hassigns, -⟩
    refine hmem ?_
    rw [hassigns.toList]
    exact List.mem_append_right _ List.mem_cons_self

/-- A name may have its braces or not. -/
theorem assignment_of_token {key value : String} (hends : '=' ∉ key.toList)
    (hname : Text.trim key ≠ "") (hbare : ∀ inner, Text.trim key ≠ Variables.token inner) :
    assignment (key ++ "=" ++ value) =
      assignment (Variables.token (Text.trim key) ++ "=" ++ value) := by
  have hassigns : Assigns (key ++ "=" ++ value) key value := ⟨rfl, hends⟩
  have hends' : '=' ∉ (Variables.token (Text.trim key)).toList := by
    have hinside : '=' ∉ (Text.trim key).toList := fun h => hends (Text.mem_of_mem_trim h)
    rw [Variables.toList_token]
    simpa [Variables.tokenChars] using hinside
  have hassigns' : Assigns (Variables.token (Text.trim key) ++ "=" ++ value)
      (Variables.token (Text.trim key)) value := ⟨rfl, hends'⟩
  rw [assignment_of_assigns hassigns, assignment_of_assigns hassigns', Text.trim_token,
    if_neg hname, if_neg (token_ne_empty _), tokenOf_token, tokenOf_of_ne hbare]

/-! ### Lists of assignments -/

/-- One more assignment is laid over those before it. -/
theorem assignedVariables_concat (texts : List String) (text : String) :
    assignedVariables (texts ++ [text]) = (assignedVariables texts).bind fun vars =>
      (assignment text).map fun e => vars.insert e.1 e.2 := by
  unfold assignedVariables
  rw [List.mapM_append, List.mapM_cons, List.mapM_nil]
  cases texts.mapM assignment with
  | error => rfl
  | ok entries =>
    cases assignment text with
    | error => rfl
    | ok e =>
      show Except.ok (StringMap.ofList (entries ++ [e])) =
        Except.ok ((StringMap.ofList entries).insert e.1 e.2)
      rw [StringMap.ofList, StringMap.ofList, List.foldl_append]
      rfl

theorem assignedVariables_concat_eq_ok_iff {texts : List String} {text : String}
    {vars : Variables} : assignedVariables (texts ++ [text]) = .ok vars ↔
      ∃ before token value, assignedVariables texts = .ok before ∧
        assignment text = .ok (token, value) ∧ vars = before.insert token value := by
  rw [assignedVariables_concat]
  cases assignedVariables texts with
  | error => simp [Except.bind]
  | ok before =>
    cases assignment text with
    | error => simp [Except.bind, Except.map]
    | ok e =>
      obtain ⟨token, value⟩ := e
      simp [Except.bind, Except.map, eq_comm]

/-- **When a list of assignments is refused**: when one of them is. -/
theorem assignedVariables_eq_error_iff {texts : List String} :
    (∃ error, assignedVariables texts = .error error) ↔ ∃ text ∈ texts, Malformed text := by
  induction texts using List.reverseRecOn with
  | nil => exact iff_of_false nofun nofun
  | append_singleton texts text ih =>
    have hsplit : (∃ t ∈ texts ++ [text], Malformed t) ↔
        (∃ t ∈ texts, Malformed t) ∨ Malformed text := by
      simp only [List.mem_append, List.mem_singleton, or_and_right, exists_or, exists_eq_left]
    rw [hsplit, ← ih, ← assignment_eq_error_iff, assignedVariables_concat]
    cases assignedVariables texts with
    | error error => exact iff_of_true ⟨error, rfl⟩ (.inl ⟨error, rfl⟩)
    | ok vars =>
      cases assignment text with
      | error error => exact iff_of_true ⟨error, rfl⟩ (.inr ⟨error, rfl⟩)
      | ok e => exact iff_of_false nofun (by simp)

/-- The last text that assigns anything to the variable of a name assigns this value to it. -/
def AssignsLast (texts : List String) (name value : String) : Prop :=
  ∃ before text after, texts = before ++ text :: after ∧
    (∃ key, Assigns text key value ∧ StandsFor key name) ∧ ∀ later ∈ after, ¬ Names later name

/-- What the variables of a list of assignments are: their keys are tokens, and a name has the value
that was assigned to it last. -/
structure Assigned (texts : List String) (vars : Variables) : Prop where
  tokens : ∀ key ∈ vars.keys, ∃ name, key = Variables.token name
  last : ∀ name value, vars.get? (Variables.token name) = some value ↔
    AssignsLast texts name value

theorem not_assignsLast_nil (name value : String) : ¬ AssignsLast [] name value := by
  rintro ⟨before, text, after, htexts, -⟩
  exact List.append_ne_nil_of_right_ne_nil before (List.cons_ne_nil text after) htexts.symm

/-- The last assignment to a name is the last text of all, or the last text is to another name. -/
theorem assignsLast_concat {texts : List String} {last name value : String} :
    AssignsLast (texts ++ [last]) name value ↔
      (∃ key, Assigns last key value ∧ StandsFor key name) ∨
        AssignsLast texts name value ∧ ¬ Names last name := by
  constructor
  · rintro ⟨before, text, after, htexts, hassigns, hafter⟩
    rcases List.eq_nil_or_concat after with rfl | ⟨front, final, rfl⟩
    · obtain ⟨-, hlast⟩ := List.append_inj' htexts rfl
      obtain rfl := List.singleton_inj.mp hlast
      exact .inl hassigns
    · have hassoc : texts ++ [last] = (before ++ text :: front) ++ [final] := by
        rw [htexts]
        simp
      obtain ⟨rfl, hlast⟩ := List.append_inj' hassoc rfl
      obtain rfl := List.singleton_inj.mp hlast
      rw [List.concat_eq_append, List.forall_mem_append, List.forall_mem_singleton] at hafter
      exact .inr ⟨⟨before, text, front, rfl, hassigns, hafter.1⟩, hafter.2⟩
  · rintro (hassigns | ⟨⟨before, text, after, rfl, hassigns, hafter⟩, hlast⟩)
    · exact ⟨texts, last, [], rfl, hassigns, nofun⟩
    · refine ⟨before, text, after ++ [last], by simp, hassigns, ?_⟩
      rw [List.forall_mem_append, List.forall_mem_singleton]
      exact ⟨hafter, hlast⟩

theorem assigned_nil : Assigned [] StringMap.empty where
  tokens := nofun
  last name value := iff_of_false nofun (not_assignsLast_nil name value)

/-- One more assignment gives its value to its name, and leaves every other name what it had. -/
theorem Assigned.insert {texts : List String} {vars : Variables} (h : Assigned texts vars)
    {text token value : String} (hread : assignment text = .ok (token, value)) :
    Assigned (texts ++ [text]) (vars.insert token value) := by
  obtain ⟨key, hassigns, -, rfl⟩ := assignment_eq_ok_iff.mp hread
  obtain ⟨named, hnamed⟩ := exists_tokenOf (Text.trim key)
  rw [hnamed]
  have hstands (name : String) : StandsFor key name ↔ named = name := by
    rw [← tokenOf_eq_token_iff, hnamed]
    exact ⟨token_inj, congrArg Variables.token⟩
  constructor
  · intro k hk
    rw [← StringMap.contains_iff_mem_keys, StringMap.contains_insert, Bool.or_eq_true,
      beq_iff_eq] at hk
    rcases hk with rfl | hk
    · exact ⟨named, rfl⟩
    · exact h.tokens k ((StringMap.contains_iff_mem_keys vars k).mp hk)
  · intro name value'
    rw [StringMap.get?_insert, assignsLast_concat]
    by_cases hname : named = name
    · subst hname
      have hnames : Names text named := ⟨key, value, hassigns, (hstands named).mpr rfl⟩
      rw [if_pos rfl]
      constructor
      · intro hvalue
        obtain rfl := Option.some.inj hvalue
        exact .inl ⟨key, hassigns, (hstands named).mpr rfl⟩
      · rintro (⟨key', hassigns', -⟩ | ⟨-, hnot⟩)
        · exact congrArg some (hassigns.unique hassigns').2
        · exact absurd hnames hnot
    · have hother : ¬ Names text name := by
        rintro ⟨key', value'', hassigns', hstands'⟩
        obtain ⟨rfl, -⟩ := hassigns.unique hassigns'
        exact hname ((hstands name).mp hstands')
      rw [if_neg fun htoken => hname (token_inj htoken), h.last]
      constructor
      · exact fun hlast => .inr ⟨hlast, hother⟩
      · rintro (⟨key', hassigns', hstands'⟩ | ⟨hlast, -⟩)
        · exact absurd ⟨key', value', hassigns', hstands'⟩ hother
        · exact hlast

/-- **What the variables are**, after one assignment after the other. -/
theorem assigned_of_ok {texts : List String} {vars : Variables}
    (h : assignedVariables texts = .ok vars) : Assigned texts vars := by
  induction texts using List.reverseRecOn generalizing vars with
  | nil =>
    obtain rfl := Except.ok.inj h
    exact assigned_nil
  | append_singleton texts text ih =>
    obtain ⟨before, token, value, hbefore, hread, rfl⟩ :=
      assignedVariables_concat_eq_ok_iff.mp h
    exact (ih hbefore).insert hread

/-- A list of assignments says the same when one of them is exchanged for one that does. -/
theorem assignedVariables_exchange {text other : String} (h : assignment text = assignment other)
    (before after : List String) :
    assignedVariables (before ++ text :: after) =
      assignedVariables (before ++ other :: after) := by
  unfold assignedVariables
  rw [List.mapM_append, List.mapM_append, List.mapM_cons, List.mapM_cons, h]

/-- Nothing but blanks in front of the equals sign is one way not to name a variable. -/
theorem Malformed.nameless {text : String} (h : Malformed text) : Nameless text := by
  rcases h with hnot | ⟨key, value, hassigns, hkey⟩
  · exact .inl hnot
  · exact .inr ⟨key, value, hassigns, .inr ⟨hkey, fun inner h => token_ne_empty inner h.symm⟩⟩

/-- Nothing between the braces is the other. -/
theorem nameless_iff {text : String} : Nameless text ↔ Malformed text ∨
    ∃ key value, Assigns text key value ∧ Text.trim key = Variables.token "" := by
  constructor
  · rintro (hnot | ⟨key, value, hassigns, hbraced | ⟨hkey, -⟩⟩)
    · exact .inl (.inl hnot)
    · exact .inr ⟨key, value, hassigns, hbraced⟩
    · exact .inl (.inr ⟨key, value, hassigns, hkey⟩)
  · rintro (h | ⟨key, value, hassigns, hbraced⟩)
    · exact h.nameless
    · exact .inr ⟨key, value, hassigns, .inl hbraced⟩

/-- **Assignments on a command line.** A list of them is refused exactly when one has no equals sign
or nothing but blanks in front of it; as long as no key is an empty pair of braces, this is to say
that one of them names no variable. Otherwise the keys are tokens, each name has the value that was
assigned to it last, and it makes no difference whether a name has its braces. -/
theorem assignments_named (texts : List String) :
    ((∃ error, assignedVariables texts = .error error) ↔ ∃ text ∈ texts, Malformed text) ∧
    ((∀ text ∈ texts, ∀ key value, Assigns text key value →
        Text.trim key ≠ Variables.token "") →
      ((∃ error, assignedVariables texts = .error error) ↔ ∃ text ∈ texts, Nameless text)) ∧
    (∀ vars, assignedVariables texts = .ok vars → Assigned texts vars) ∧
    ∀ before key value after, texts = before ++ (key ++ "=" ++ value) :: after →
      '=' ∉ key.toList → Text.trim key ≠ "" → (∀ name, Text.trim key ≠ Variables.token name) →
      assignedVariables texts = assignedVariables
        (before ++ (Variables.token (Text.trim key) ++ "=" ++ value) :: after) := by
  refine ⟨assignedVariables_eq_error_iff, fun hbraces => ?_, fun vars => assigned_of_ok, ?_⟩
  · rw [assignedVariables_eq_error_iff]
    constructor
    · rintro ⟨text, hmem, h⟩
      exact ⟨text, hmem, h.nameless⟩
    · rintro ⟨text, hmem, h⟩
      rcases nameless_iff.mp h with hmalformed | ⟨key, value, hassigns, hbraced⟩
      · exact ⟨text, hmem, hmalformed⟩
      · exact absurd hbraced (hbraces text hmem key value hassigns)
  · rintro before key value after rfl hends hname hbare
    exact assignedVariables_exchange (assignment_of_token hends hname hbare) before after

/-- A repeated name, one without its braces and one with an equals sign in its value. -/
theorem last_and_braced_assigned :
    ((∃ error, assignedVariables ["lot=7", "sku =a=b", "lot="] = .error error) ↔
      ∃ text ∈ ["lot=7", "sku =a=b", "lot="], Nameless text) ∧
    (∃ vars, assignedVariables ["lot=7", "sku =a=b", "lot="] = .ok vars ∧
      Assigned ["lot=7", "sku =a=b", "lot="] vars) ∧
    assignedVariables ["lot=7", "sku =a=b", "lot="] =
      assignedVariables ["lot=7", "\x7bsku\x7d=a=b", "lot="] := by
  obtain ⟨-, hrefused, hread, hbraces⟩ := assignments_named ["lot=7", "sku =a=b", "lot="]
  refine ⟨hrefused ?_, ⟨_, rfl, hread _ rfl⟩, ?_⟩
  · have hfirst : Assigns "lot=7" "lot" "7" := ⟨by decide, by decide⟩
    have hsecond : Assigns "sku =a=b" "sku " "a=b" := ⟨by decide, by decide⟩
    have hthird : Assigns "lot=" "lot" "" := ⟨by decide, by decide⟩
    intro text hmem key value hassigns
    simp only [List.mem_cons, List.not_mem_nil, or_false] at hmem
    rcases hmem with rfl | rfl | rfl
    · obtain ⟨rfl, -⟩ := hassigns.unique hfirst
      decide
    · obtain ⟨rfl, -⟩ := hassigns.unique hsecond
      decide
    · obtain ⟨rfl, -⟩ := hassigns.unique hthird
      decide
  · refine hbraces ["lot=7"] "sku " "a=b" ["lot="] (by decide) (by decide) (by decide) ?_
    intro name h
    have htrim : Text.trim "sku " = "sku" := by decide
    rw [htrim] at h
    have hchars := congrArg String.toList h
    rw [Variables.toList_token] at hchars
    exact absurd (List.cons.inj hchars).1 (by decide)

/-- An empty pair of braces names no variable, but it is not refused. -/
theorem empty_braces_accepted :
    ¬ ∀ texts, (∃ error, assignedVariables texts = .error error) ↔
      ∃ text ∈ texts, Nameless text := by
  intro h
  have hassigns : Assigns "\x7b\x7d=x" "\x7b\x7d" "x" := ⟨by decide, by decide⟩
  have hnameless : Nameless "\x7b\x7d=x" := .inr ⟨_, _, hassigns, .inl (by decide)⟩
  obtain ⟨error, herror⟩ := (h ["\x7b\x7d=x"]).mpr ⟨_, List.mem_singleton_self _, hnameless⟩
  have haccepted : ∃ vars, assignedVariables ["\x7b\x7d=x"] = .ok vars := ⟨_, rfl⟩
  obtain ⟨vars, hvars⟩ := haccepted
  rw [hvars] at herror
  cases herror

end CommandLine

end ThermalLabel

import ThermalLabel.Proofs.StringMap
import ThermalLabel.Variables

/-! # One pass over a text

Keys are replaced one after another, each in the result of the one before. If every key is a token,
no value has a brace and tokens in the text are told apart, this is as good as one pass over the
text (`resolve_eq_singlePass`): no replacement makes a token, takes one apart or goes into one, so
that the order of the keys does not matter and a second time changes nothing. -/

namespace ThermalLabel

namespace Variables

/-! ### Tokens and texts -/

/-- Characters none of which is a brace. -/
def Braceless (cs : List Char) : Prop := '{' ∉ cs ∧ '}' ∉ cs

instance (cs : List Char) : Decidable (Braceless cs) := inferInstanceAs (Decidable (_ ∧ _))

/-- Every key is a token, and no value has a brace. -/
structure Tokens (entries : List (String × String)) : Prop where
  keys : ∀ e ∈ entries, ∃ name, Braceless name.toList ∧ e.1 = token name
  values : ∀ e ∈ entries, Braceless e.2.toList

/-- Any two opening braces have a closing one between them. -/
def Separated (cs : List Char) : Prop :=
  ∀ j < cs.length, ∀ i < j, cs[i]? = some '{' ∧ cs[j]? = some '{' → '}' ∈ (cs.take j).drop (i + 1)

instance (cs : List Char) : Decidable (Separated cs) := by unfold Separated; infer_instance

/-- The characters of a token. -/
def tokenChars (name : List Char) : List Char := '{' :: name ++ ['}']

theorem tokenChars_append (name cs : List Char) :
    tokenChars name ++ cs = '{' :: (name ++ ['}'] ++ cs) := rfl

theorem toList_token (name : String) : (token name).toList = tokenChars name.toList := by
  simp [token, tokenChars]

/-! ### The pass -/

/-- A text passed over from left to right once. Inside of a token, `name` holds what has been read
of it, in reverse. A token for which there is a value becomes the value, and all else is copied. -/
def passFrom (value? : String → Option String) (name : Option (List Char)) :
    List Char → List Char
  | [] =>
    match name with
    | none => []
    | some name => '{' :: name.reverse
  | c :: cs =>
    match name with
    | none => if c = '{' then passFrom value? (some []) cs else c :: passFrom value? none cs
    | some name =>
      if c = '}' then
        let token := token (String.ofList name.reverse)
        ((value? token).getD token).toList ++ passFrom value? none cs
      else if c = '{' then '{' :: name.reverse ++ passFrom value? (some []) cs
      else passFrom value? (some (c :: name)) cs

/-- The characters of a text after one pass. -/
def pass (value? : String → Option String) (cs : List Char) : List Char := passFrom value? none cs

/-- A text with every token that is a key replaced by its value, in one pass. -/
def singlePass (vars : Variables) (text : String) : String :=
  String.ofList (pass vars.get? text.toList)

/-! ### Texts taken apart -/

/-- A text taken apart into what a pass tells apart: characters to be copied, tokens, and at most an
opening brace without a brace after it. -/
inductive Tidy : List Char → Prop
  | nil : Tidy []
  | plain {c cs} (hc : c ≠ '{') (rest : Tidy cs) : Tidy (c :: cs)
  | token {name cs} (hname : Braceless name) (rest : Tidy cs) : Tidy (tokenChars name ++ cs)
  | opening {cs} (hcs : Braceless cs) : Tidy ('{' :: cs)

theorem Separated.mem_between (before : List Char) {between after : List Char}
    (h : Separated (before ++ '{' :: (between ++ '{' :: after))) : '}' ∈ between := by
  have hbetween := h (before.length + (between.length + 1)) (by simp) before.length (by omega)
    (by simp)
  rwa [List.take_length_add_append, List.take_succ_cons, List.take_left,
    List.drop_length_add_append, List.drop_one, List.tail_cons] at hbetween

theorem Separated.of_cons {c : Char} {cs : List Char} (h : Separated (c :: cs)) :
    Separated cs := by
  intro j hj i hij hopening
  have hlater := h (j + 1) (by simpa using hj) (i + 1) (by omega) (by simpa using hopening)
  simpa using hlater

theorem Separated.of_append {before cs : List Char} (h : Separated (before ++ cs)) :
    Separated cs := by
  induction before with
  | nil => exact h
  | cons c rest ih => exact ih h.of_cons

/-- A text is without braces, or has a first one. -/
theorem braceless_or_exists_brace (cs : List Char) :
    Braceless cs ∨ ∃ name brace rest, Braceless name ∧ (brace = '{' ∨ brace = '}') ∧
      cs = name ++ brace :: rest := by
  induction cs with
  | nil => exact .inl ⟨List.not_mem_nil, List.not_mem_nil⟩
  | cons c cs ih =>
    by_cases hc : c = '{' ∨ c = '}'
    · exact .inr ⟨[], c, cs, ⟨List.not_mem_nil, List.not_mem_nil⟩, hc, rfl⟩
    · rw [not_or] at hc
      have hcons {name : List Char} (hname : Braceless name) : Braceless (c :: name) := by
        simp only [Braceless, List.mem_cons, not_or]
        exact ⟨⟨Ne.symm hc.1, hname.1⟩, Ne.symm hc.2, hname.2⟩
      rcases ih with hcs | ⟨name, brace, rest, hname, hbrace, rfl⟩
      · exact .inl (hcons hcs)
      · exact .inr ⟨c :: name, brace, rest, hcons hname, hbrace, rfl⟩

theorem tidy_of_separated {cs : List Char} (h : Separated cs) : Tidy cs := by
  induction hlength : cs.length using Nat.strongRecOn generalizing cs with
  | ind n ih =>
    subst hlength
    cases cs with
    | nil => exact .nil
    | cons c cs =>
      by_cases hc : c = '{'
      · subst hc
        rcases braceless_or_exists_brace cs with hcs | ⟨name, brace, rest, hname, hbrace, rfl⟩
        · exact .opening hcs
        · rcases hbrace with rfl | rfl
          · -- the next brace would have to be a closing one
            exact absurd (Separated.mem_between [] h) hname.2
          · have hsplit : '{' :: (name ++ '}' :: rest) = tokenChars name ++ rest := by
              simp [tokenChars]
            rw [hsplit] at h ⊢
            exact .token hname (ih rest.length (by simp; omega) h.of_append rfl)
      · exact .plain hc (ih cs.length (Nat.lt_succ_self _) h.of_cons rfl)

theorem Tidy.append {cs more : List Char} (hcs : '{' ∉ cs) (hmore : Tidy more) :
    Tidy (cs ++ more) := by
  induction cs with
  | nil => exact hmore
  | cons c rest ih =>
    rw [List.mem_cons, not_or] at hcs
    exact .plain (Ne.symm hcs.1) (ih hcs.2)

/-! ### What a pass does -/

section
variable (value? : String → Option String)

/-- What a token becomes. -/
def become (name : List Char) : List Char :=
  ((value? (token (String.ofList name))).getD (token (String.ofList name))).toList

variable {value?} in
theorem become_of_some {name : List Char} {value : String}
    (h : value? (token (String.ofList name)) = some value) : become value? name = value.toList := by
  rw [become, h, Option.getD_some]

variable {value?} in
theorem become_of_none {name : List Char} (h : value? (token (String.ofList name)) = none) :
    become value? name = tokenChars name := by
  rw [become, h, Option.getD_none, toList_token, String.toList_ofList]

theorem pass_plain {c : Char} (hc : c ≠ '{') (cs : List Char) :
    pass value? (c :: cs) = c :: pass value? cs := if_neg hc

theorem pass_append {cs : List Char} (hcs : '{' ∉ cs) (more : List Char) :
    pass value? (cs ++ more) = cs ++ pass value? more := by
  induction cs with
  | nil => rfl
  | cons c rest ih =>
    rw [List.mem_cons, not_or] at hcs
    rw [List.cons_append, pass_plain value? (Ne.symm hcs.1), ih hcs.2, List.cons_append]

theorem passFrom_name {name : List Char} (hname : Braceless name) (read cs : List Char) :
    passFrom value? (some read) (name ++ cs) =
      passFrom value? (some (name.reverse ++ read)) cs := by
  induction name generalizing read with
  | nil => rfl
  | cons c rest ih =>
    simp only [Braceless, List.mem_cons, not_or] at hname
    obtain ⟨⟨hopening, hrest⟩, hclosing, hrest'⟩ := hname
    rw [List.cons_append, passFrom, if_neg (Ne.symm hclosing), if_neg (Ne.symm hopening),
      ih ⟨hrest, hrest'⟩, List.reverse_cons, List.append_assoc, List.singleton_append]

theorem pass_token {name : List Char} (hname : Braceless name) (cs : List Char) :
    pass value? (tokenChars name ++ cs) = become value? name ++ pass value? cs := by
  have hsplit : tokenChars name ++ cs = '{' :: (name ++ '}' :: cs) := by simp [tokenChars]
  rw [hsplit, pass, passFrom, if_pos rfl, passFrom_name value? hname, passFrom, if_pos rfl,
    List.append_nil, List.reverse_reverse]
  rfl

theorem pass_opening {cs : List Char} (hcs : Braceless cs) :
    pass value? ('{' :: cs) = '{' :: cs := by
  have hname := passFrom_name value? hcs [] []
  rw [List.append_nil] at hname
  rw [pass, passFrom, if_pos rfl, hname, passFrom, List.append_nil, List.reverse_reverse]

/-- The second of two passes looks for the tokens that the first one has left. -/
theorem pass_pass {first? : String → Option String}
    (hfirst : ∀ t v, first? t = some v → Braceless v.toList) {cs : List Char} (h : Tidy cs) :
    pass value? (pass first? cs) = pass (fun t => (first? t).or (value? t)) cs := by
  induction h with
  | nil => rfl
  | plain hc rest ih => rw [pass_plain _ hc, pass_plain _ hc, pass_plain _ hc, ih]
  | opening hcs => rw [pass_opening _ hcs, pass_opening _ hcs, pass_opening _ hcs]
  | @token name cs hname rest ih =>
    rw [pass_token _ hname, pass_token _ hname, ← ih]
    cases hvalue : first? (Variables.token (String.ofList name)) with
    | some value =>
      have hboth : become (fun t => (first? t).or (value? t)) name = value.toList :=
        become_of_some (by rw [hvalue, Option.some_or])
      rw [become_of_some hvalue, hboth, pass_append value? (hfirst _ _ hvalue).1]
    | none =>
      rw [become_of_none hvalue, pass_token _ hname]
      simp only [become, hvalue, Option.none_or]

end

/-- A pass leaves tokens told apart. -/
theorem Tidy.pass {value? : String → Option String}
    (hvalues : ∀ t v, value? t = some v → Braceless v.toList) {cs : List Char} (h : Tidy cs) :
    Tidy (pass value? cs) := by
  induction h with
  | nil => exact .nil
  | plain hc rest ih => rw [pass_plain _ hc]; exact .plain hc ih
  | opening hcs => rw [pass_opening _ hcs]; exact .opening hcs
  | @token name cs hname rest ih =>
    rw [pass_token _ hname]
    cases hvalue : value? (Variables.token (String.ofList name)) with
    | some value =>
      rw [become_of_some hvalue]
      exact ih.append (hvalues _ _ hvalue).1
    | none =>
      rw [become_of_none hvalue]
      exact .token hname ih

/-! ### What a replacement does -/

section
variable (pattern replacement : List Char)

theorem replaceFrom_done (done : List Char) (skip : Nat) (cs : List Char) :
    Text.replaceFrom pattern replacement done skip cs =
      done.reverse ++ Text.replaceFrom pattern replacement [] skip cs := by
  induction cs generalizing done skip with
  | nil => simp [Text.replaceFrom]
  | cons c cs ih =>
    cases skip with
    | succ skip => exact ih done skip
    | zero =>
      rw [Text.replaceFrom, Text.replaceFrom]
      split_ifs
      · rw [ih, ih (replacement.reverse ++ [])]
        simp
      · rw [ih, ih [c]]
        simp

theorem replaceFrom_skip (done skipped cs : List Char) :
    Text.replaceFrom pattern replacement done skipped.length (skipped ++ cs) =
      Text.replaceFrom pattern replacement done 0 cs := by
  induction skipped with
  | nil => rfl
  | cons c rest ih => exact ih

end

section
variable {name : List Char} (value : List Char)

theorem replaceChars_token (cs : List Char) :
    Text.replaceChars (tokenChars name) value cs =
      Text.replaceFrom (tokenChars name) value [] 0 cs := if_neg (by simp [tokenChars])

theorem replace_cons_of_not_begins {c : Char} {cs : List Char}
    (h : ¬ tokenChars name <+: c :: cs) :
    Text.replaceChars (tokenChars name) value (c :: cs) =
      c :: Text.replaceChars (tokenChars name) value cs := by
  rw [replaceChars_token, replaceChars_token, Text.replaceFrom,
    if_neg (fun hprefix => h (List.isPrefixOf_iff_prefix.mp hprefix)), replaceFrom_done]
  rfl

theorem replace_append {cs : List Char} (hcs : '{' ∉ cs) (more : List Char) :
    Text.replaceChars (tokenChars name) value (cs ++ more) =
      cs ++ Text.replaceChars (tokenChars name) value more := by
  induction cs with
  | nil => rfl
  | cons c rest ih =>
    rw [List.mem_cons, not_or] at hcs
    have hprefix : ¬ tokenChars name <+: c :: (rest ++ more) :=
      fun h => hcs.1 (List.cons_prefix_cons.mp h).1
    rw [List.cons_append, replace_cons_of_not_begins value hprefix, ih hcs.2, List.cons_append]

theorem replace_token_self (cs : List Char) :
    Text.replaceChars (tokenChars name) value (tokenChars name ++ cs) =
      value ++ Text.replaceChars (tokenChars name) value cs := by
  have hprefix : (tokenChars name).isPrefixOf ('{' :: (name ++ ['}'] ++ cs)) = true :=
    List.isPrefixOf_iff_prefix.mpr (List.prefix_append (tokenChars name) cs)
  have hlength : (tokenChars name).length - 1 = (name ++ ['}']).length := by simp [tokenChars]
  rw [replaceChars_token, replaceChars_token, tokenChars_append, Text.replaceFrom, if_pos hprefix,
    hlength, replaceFrom_skip, replaceFrom_done, List.append_nil, List.reverse_reverse]

/-- A name ends where the token ends. -/
theorem eq_of_begins {other cs : List Char} (hname : Braceless name)
    (hother : Braceless other) (h : tokenChars name <+: tokenChars other ++ cs) :
    name = other := by
  obtain ⟨more, hmore⟩ := h
  have htails : name ++ '}' :: more = other ++ '}' :: cs := by simpa [tokenChars] using hmore
  have hread {name : List Char} (hname : Braceless name) (cs : List Char) :
      (name ++ '}' :: cs).takeWhile (· ≠ '}') = name := by
    rw [List.takeWhile_append_of_pos]
    · simp
    · intro c hc
      have hne : c ≠ '}' := fun heq => hname.2 (heq ▸ hc)
      simpa using hne
  rw [← hread hname more, htails, hread hother]

theorem replace_token_of_ne {other : List Char} (hname : Braceless name) (hother : Braceless other)
    (hne : name ≠ other) (cs : List Char) :
    Text.replaceChars (tokenChars name) value (tokenChars other ++ cs) =
      tokenChars other ++ Text.replaceChars (tokenChars name) value cs := by
  have hprefix : ¬ tokenChars name <+: '{' :: (other ++ ['}'] ++ cs) :=
    fun h => hne (eq_of_begins hname hother h)
  have hrest : '{' ∉ other ++ ['}'] := by simpa using hother.1
  rw [tokenChars_append, replace_cons_of_not_begins value hprefix, replace_append value hrest]
  rfl

theorem replace_opening {cs : List Char} (hcs : Braceless cs) :
    Text.replaceChars (tokenChars name) value ('{' :: cs) = '{' :: cs := by
  have hprefix : ¬ tokenChars name <+: '{' :: cs := by
    intro h
    have hclosing : '}' ∈ '{' :: cs := h.subset (by simp [tokenChars])
    simp [hcs.2] at hclosing
  have hcopy : Text.replaceChars (tokenChars name) value (cs ++ []) =
      cs ++ Text.replaceChars (tokenChars name) value [] := replace_append value hcs.1 []
  rw [List.append_nil, replaceChars_token _ []] at hcopy
  rw [replace_cons_of_not_begins value hprefix, hcopy]
  simp [Text.replaceFrom]

end

/-- To replace a token is to pass over the text with one value. -/
theorem replaceChars_eq_pass {name : String} (hname : Braceless name.toList) (value : String)
    {cs : List Char} (h : Tidy cs) :
    Text.replaceChars (tokenChars name.toList) value.toList cs =
      pass (fun t => [(token name, value)].lookup t) cs := by
  induction h with
  | nil => rfl
  | @plain c cs hc rest ih =>
    have hcopy : '{' ∉ [c] := by simpa using Ne.symm hc
    rw [pass_plain _ hc, ← ih]
    exact replace_append value.toList hcopy cs
  | opening hcs => rw [pass_opening _ hcs, replace_opening value.toList hcs]
  | @token other cs hother rest ih =>
    rw [pass_token _ hother, ← ih]
    by_cases hsame : name.toList = other
    · subst hsame
      have hvalue : [(Variables.token name, value)].lookup
          (Variables.token (String.ofList name.toList)) = some value := by simp
      rw [replace_token_self, become_of_some hvalue]
    · have hother' : Variables.token (String.ofList other) ≠ Variables.token name := by
        intro heq
        have hchars := congrArg String.toList heq
        rw [toList_token, toList_token, String.toList_ofList] at hchars
        exact hsame (by simpa [tokenChars] using hchars.symm)
      rw [replace_token_of_ne value.toList hname hother hsame, become_of_none]
      simp [List.lookup_cons, beq_eq_false_iff_ne.mpr hother']

/-! ### Key after key -/

theorem pass_none {cs : List Char} (h : Tidy cs) : pass (fun _ => none) cs = cs := by
  induction h with
  | nil => rfl
  | plain hc rest ih => rw [pass_plain _ hc, ih]
  | opening hcs => exact pass_opening _ hcs
  | token hname rest ih => rw [pass_token _ hname, become_of_none rfl, ih]

theorem Tokens.braceless {entries : List (String × String)} (h : Tokens entries) {t v : String}
    (hlookup : entries.lookup t = some v) : Braceless v.toList := by
  obtain ⟨before, after, rfl, -⟩ := List.lookup_eq_some_iff.mp hlookup
  exact h.values (t, v) (by simp)

theorem Tokens.cons {e : String × String} {rest : List (String × String)}
    (h : Tokens (e :: rest)) : Tokens [e] ∧ Tokens rest := by
  obtain ⟨hkey, hkeys⟩ := List.forall_mem_cons.mp h.keys
  obtain ⟨hvalue, hvalues⟩ := List.forall_mem_cons.mp h.values
  exact ⟨⟨by simpa using hkey, by simpa using hvalue⟩, hkeys, hvalues⟩

theorem lookup_cons_eq_or (e : String × String) (rest : List (String × String)) (t : String) :
    ([e].lookup t).or (rest.lookup t) = (e :: rest).lookup t := by
  rw [List.lookup_cons, List.lookup_cons]
  cases t == e.1 <;> rfl

/-- Replacements of tokens one after another are one pass. -/
theorem toList_foldl_replace {entries : List (String × String)} (hentries : Tokens entries)
    {text : String} (h : Tidy text.toList) :
    (entries.foldl (fun text e => Text.replace e.1 e.2 text) text).toList =
      pass (fun t => entries.lookup t) text.toList := by
  induction entries generalizing text with
  | nil => exact (pass_none h).symm
  | cons e rest ih =>
    obtain ⟨hfirst, hrest⟩ := hentries.cons
    obtain ⟨name, hname, hkey⟩ := hentries.keys e List.mem_cons_self
    have hreplaced : (Text.replace e.1 e.2 text).toList =
        pass (fun t => [e].lookup t) text.toList := by
      rw [Text.replace, String.toList_ofList, hkey, toList_token,
        replaceChars_eq_pass hname e.2 h, ← hkey]
    have htidy : Tidy (Text.replace e.1 e.2 text).toList := by
      rw [hreplaced]
      exact h.pass fun t v => hfirst.braceless
    rw [List.foldl_cons, ih hrest htidy, hreplaced, pass_pass _ (fun t v => hfirst.braceless) h]
    congr 1
    funext t
    exact lookup_cons_eq_or e rest t

theorem toList_resolve {vars : Variables} (hvars : Tokens vars.toList) {text : String}
    (h : Tidy text.toList) :
    (vars.resolve text).toList = pass (fun t => vars.toList.lookup t) text.toList :=
  toList_foldl_replace hvars h

/-- **Keys that are tokens are replaced in one pass**, in whatever order they are taken, and a
second time there is nothing to replace, if no value has a brace and the text has a closing brace
between any two opening ones. -/
theorem resolve_eq_singlePass {vars : Variables} (hvars : Tokens vars.toList) {text : String}
    (htext : Separated text.toList) :
    vars.resolve text = vars.singlePass text ∧
      (∀ entries : List (String × String), entries.Perm vars.toList →
        entries.foldl (fun text e => Text.replace e.1 e.2 text) text = vars.resolve text) ∧
      vars.resolve (vars.resolve text) = vars.resolve text := by
  have htidy := tidy_of_separated htext
  have hvalues (t v : String) : vars.toList.lookup t = some v → Braceless v.toList :=
    hvars.braceless
  have honce := toList_resolve hvars htidy
  refine ⟨?_, fun entries hperm => ?_, ?_⟩
  · have hget : vars.get? = fun t => vars.toList.lookup t :=
      funext fun t => lookup_eq_find? vars.toList t
    rw [singlePass, hget, ← honce, String.ofList_toList]
  · have hentries : Tokens entries :=
      ⟨fun e he => hvars.keys e (hperm.subset he), fun e he => hvars.values e (hperm.subset he)⟩
    have hlookup (t : String) : entries.lookup t = vars.toList.lookup t :=
      (lookup_eq_of_perm vars.sorted.nodup hperm.symm t).symm
    rw [← String.toList_inj, toList_foldl_replace hentries htidy, honce, funext hlookup]
  · -- in what a pass leaves, the same pass finds nothing
    have hafter : Tidy (vars.resolve text).toList := honce ▸ htidy.pass hvalues
    have hboth (t : String) :
        (vars.toList.lookup t).or (vars.toList.lookup t) = vars.toList.lookup t := by
      cases vars.toList.lookup t <;> rfl
    rw [← String.toList_inj, toList_resolve hvars hafter, honce, pass_pass _ hvalues htidy,
      funext hboth]

/-- Values for two tokens. -/
def pair : Variables := StringMap.ofList [(token "b", "two"), (token "a", "")]

/-- A text with both tokens, one without a value, a closing brace too many and an opening one. -/
def mixedText : String := token "a" ++ token "b" ++ "\x7d-" ++ token "c" ++ "\x7ba"

theorem resolve_mixedText :
    pair.resolve mixedText = pair.singlePass mixedText ∧
      pair.resolve (pair.resolve mixedText) = pair.resolve mixedText ∧
      pair.resolve mixedText = "two\x7d-" ++ token "c" ++ "\x7ba" := by
  have hpair : Tokens pair.toList := by
    have hentries : pair.toList = [(token "a", ""), (token "b", "two")] := by decide +kernel
    rw [hentries]
    refine ⟨fun e he => ?_, by decide +kernel⟩
    rcases List.mem_pair.mp he with rfl | rfl
    · exact ⟨"a", by decide +kernel, rfl⟩
    · exact ⟨"b", by decide +kernel, rfl⟩
  have hmixed : Separated mixedText.toList := by decide +kernel
  have hresolve := resolve_eq_singlePass hpair hmixed
  exact ⟨hresolve.1, hresolve.2.2, by decide +kernel⟩

end Variables

end ThermalLabel

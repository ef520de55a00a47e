import ThermalLabel.Proofs.Json.Value

/-! # Embedded texts are shorter than the text around them

Every part of a text is read from characters of its own, so a string in a tree is shorter than the
text that the tree comes from. The bound on the depth of embedded texts is therefore never met, and
the value of a text is the value of its tree (`parse?_eq_bind_value?`). -/

namespace ThermalLabel.Json

variable {α β γ : Type}

/-! ### What readers leave -/

/-- A reader that leaves at most as much as it is given. -/
def NonGrowing (reader : List Char → Option (β × List Char)) : Prop :=
  ∀ ⦃cs rest : List Char⦄ ⦃b : β⦄, reader cs = some (b, rest) → rest.length ≤ cs.length

theorem NonGrowing.map {reader : List Char → Option (β × List Char)} (h : NonGrowing reader)
    (f : β → γ) : NonGrowing fun cs => (reader cs).map fun (b, cs) => (f b, cs) := by
  intro cs rest c hread
  obtain ⟨⟨b, after⟩, hb, heq⟩ := Option.map_eq_some_iff.mp hread
  obtain ⟨rfl, rfl⟩ := Prod.mk.inj heq
  exact h hb

theorem NonGrowing.bind {reader : List Char → Option (β × List Char)}
    {next : β → List Char → Option (γ × List Char)} (h : NonGrowing reader)
    (hnext : ∀ b, NonGrowing (next b)) :
    NonGrowing fun cs => (reader cs).bind fun (b, cs) => next b cs := by
  intro cs rest c hread
  obtain ⟨⟨b, after⟩, hb, hc⟩ := Option.bind_eq_some_iff.mp hread
  exact Nat.le_trans (hnext b hc) (h hb)

theorem length_skipBlanks_le (cs : List Char) : (skipBlanks cs).length ≤ cs.length :=
  (List.dropWhile_suffix isBlank).length_le

namespace Numeral

theorem nonGrowing_scanDigits : NonGrowing scanDigits := by
  intro cs rest digits h
  have hspan := (scanDigits_eq_some.mp h).2
  rw [List.span_eq_takeWhile_dropWhile] at hspan
  rw [← (Prod.mk.inj hspan).2]
  exact (List.dropWhile_suffix _).length_le

theorem nonGrowing_scanWhole : NonGrowing scanWhole := by
  intro cs rest whole h
  unfold scanWhole at h
  split at h
  · obtain ⟨rfl, rfl⟩ := Prod.mk.inj (Option.some.inj h)
    exact Nat.le_succ _
  · exact nonGrowing_scanDigits h

theorem nonGrowing_scanFraction : NonGrowing scanFraction := by
  intro cs rest fraction h
  unfold scanFraction at h
  split at h
  · exact Nat.le_succ_of_le (nonGrowing_scanDigits.map some h)
  · obtain ⟨rfl, rfl⟩ := Prod.mk.inj (Option.some.inj h)
    exact Nat.le_refl _

theorem length_scanSign_le (cs : List Char) : (scanSign cs).2.length ≤ cs.length := by
  unfold scanSign
  split
  · exact Nat.le_succ _
  · exact Nat.le_succ _
  · exact Nat.le_refl _

theorem nonGrowing_scanExponent : NonGrowing scanExponent := by
  intro cs rest exponent h
  unfold scanExponent at h
  split at h
  · next c after =>
    split_ifs at h
    · have hdigits := nonGrowing_scanDigits.map (fun digits => some ((scanSign after).1, digits)) h
      exact Nat.le_succ_of_le (Nat.le_trans hdigits (length_scanSign_le after))
    · obtain ⟨rfl, rfl⟩ := Prod.mk.inj (Option.some.inj h)
      exact Nat.le_refl _
  · obtain ⟨rfl, rfl⟩ := Prod.mk.inj (Option.some.inj h)
    exact Nat.le_refl _

theorem nonGrowing_scanMagnitude (negative : Bool) : NonGrowing (scanMagnitude negative) :=
  nonGrowing_scanWhole.bind fun _ => nonGrowing_scanFraction.bind fun _ =>
    nonGrowing_scanExponent.map _

theorem nonGrowing_scan : NonGrowing scan := by
  intro cs rest n h
  unfold scan at h
  dsimp only at h
  split at h
  · exact Nat.le_succ_of_le (nonGrowing_scanMagnitude true h)
  · exact nonGrowing_scanMagnitude false h

end Numeral

namespace Quoted

/-- Every piece is read from a character of its own, and so is the closing quote. -/
theorem length_scan {read pieces : List Piece} {cs rest : List Char}
    (h : scan read cs = some (pieces, rest)) :
    pieces.length + rest.length < read.length + cs.length := by
  fun_induction scan read cs with
  | case1 => cases h
  | case2 read rest =>
    obtain ⟨rfl, rfl⟩ := Prod.mk.inj (Option.some.inj h)
    rw [List.length_reverse, List.length_cons]
    omega
  | case3 read a b c d rest n hunit ih =>
    have hrest := ih h
    simp only [List.length_cons] at hrest ⊢
    omega
  | case4 => cases h
  | case5 read e rest hu c hc ih =>
    have hrest := ih h
    simp only [List.length_cons] at hrest ⊢
    omega
  | case6 => cases h
  | case7 => cases h
  | case8 read c rest hquote hu hshort hcontrol ih =>
    have hrest := ih h
    simp only [List.length_cons] at hrest ⊢
    omega

/-- A character is read from one piece or from two. -/
theorem length_characters {read cs : List Char} {pieces : List Piece}
    (h : characters read pieces = some cs) : cs.length ≤ read.length + pieces.length := by
  fun_induction characters read pieces with
  | case1 read =>
    obtain rfl := Option.some.inj h
    exact Nat.le_of_eq List.length_reverse
  | case2 _ _ _ ih | case3 _ _ _ _ _ _ ih | case6 _ _ _ _ _ _ ih | case8 _ _ _ _ _ ih =>
    have hrest := ih h
    simp only [List.length_cons] at hrest ⊢
    omega
  | case4 | case5 | case7 => cases h

/-- A string is shorter than what it is read from, and nothing is read twice. -/
theorem length_read {cs rest : List Char} {s : Option String} (h : read cs = some (s, rest)) :
    rest.length ≤ cs.length ∧ ∀ text ∈ s, text.toList.length < cs.length := by
  obtain ⟨⟨pieces, after⟩, hscan, heq⟩ := Option.map_eq_some_iff.mp h
  obtain ⟨hs, rfl⟩ := Prod.mk.inj heq
  have hpieces := length_scan hscan
  rw [List.length_nil, Nat.zero_add] at hpieces
  refine ⟨by omega, fun text htext => ?_⟩
  subst hs
  obtain ⟨chars, hchars, rfl⟩ := Option.map_eq_some_iff.mp htext
  have hlength := length_characters hchars
  rw [List.length_nil, Nat.zero_add] at hlength
  rw [String.toList_ofList]
  omega

end Quoted

/-! ### Strings in a tree -/

/-- A string that is shorter than a number of characters. -/
def Tree.ShortString (bound : Nat) : Tree α → Prop
  | .string s => s.toList.length < bound
  | _ => True

/-- A tree whose strings are shorter than a number of characters. -/
def Tree.Short (bound : Nat) (t : Tree α) : Prop := t.AllParts (Tree.ShortString bound)

theorem Tree.short_leaf {bound : Nat} {t : Tree α} (h : t.ShortString bound)
    (hleaf : t.parts = [t]) : t.Short bound := by
  intro part hpart
  rw [hleaf] at hpart
  rwa [List.mem_singleton.mp hpart]

theorem Tree.short_closeObject {bound : Nat} {members : List (Option String × Tree α)}
    (h : ∀ e ∈ members, e.2.Short bound) : (closeObject members).Short bound := by
  unfold closeObject
  split
  · next named hnamed =>
    refine allParts_object.mpr ⟨trivial, fun e he => ?_⟩
    obtain ⟨member, hmember, hread⟩ := exists_of_mem_mapM hnamed (List.mem_reverse.mp he)
    obtain ⟨name, -, rfl⟩ := Option.map_eq_some_iff.mp hread
    exact h member hmember
  · exact short_leaf trivial rfl

theorem Tree.Short.atDepth {bound depth : Nat} {t : Tree α} (h : t.Short bound) :
    (atDepth depth t).Short bound := by
  unfold Json.atDepth
  split_ifs
  · exact h
  · exact short_leaf trivial rfl

variable [NumberText α]

mutual

/-- What is read from a text of some length, and what is left of it. -/
theorem short_readValue (fuel : Nat) {depth bound : Nat} {cs rest : List Char} {t : Tree α}
    (h : readValue fuel depth cs = some (t, rest)) (hbound : cs.length ≤ bound) :
    rest.length ≤ cs.length ∧ t.Short bound := by
  cases fuel with
  | zero => simp at h
  | succ fuel =>
    have hskip := length_skipBlanks_le cs
    rw [readValue] at h
    split at h
    iterate 3
      next after heq =>
        rw [heq] at hskip
        simp only [List.length_cons] at hskip
        obtain ⟨rfl, rfl⟩ := Prod.mk.inj (Option.some.inj h)
        exact ⟨by omega, Tree.short_leaf trivial rfl⟩
    · next quoted hquote =>
      rw [hquote, List.length_cons] at hskip
      obtain ⟨⟨s, after⟩, hs, heq⟩ := Option.map_eq_some_iff.mp h
      obtain ⟨rfl, rfl⟩ := Prod.mk.inj heq
      obtain ⟨hafter, hshort⟩ := Quoted.length_read hs
      refine ⟨by omega, ?_⟩
      cases s with
      | none => exact Tree.short_leaf trivial rfl
      | some text =>
        have htext := hshort text rfl
        exact Tree.short_leaf (show text.toList.length < bound by omega) rfl
    · next inner hopen =>
      rw [hopen, List.length_cons] at hskip
      have hskipInner := length_skipBlanks_le inner
      split at h
      · next after hclose =>
        rw [hclose, List.length_cons] at hskipInner
        obtain ⟨rfl, rfl⟩ := Prod.mk.inj (Option.some.inj h)
        exact ⟨by omega, Tree.Short.atDepth (Tree.allParts_array.mpr ⟨trivial, nofun⟩)⟩
      · obtain ⟨⟨items, after⟩, hitems, heq⟩ := Option.map_eq_some_iff.mp h
        obtain ⟨rfl, rfl⟩ := Prod.mk.inj heq
        obtain ⟨hafter, hshort⟩ := short_readItems fuel hitems
          (show (skipBlanks inner).length ≤ bound by omega) nofun
        exact ⟨by omega, Tree.Short.atDepth (Tree.allParts_array.mpr ⟨trivial, hshort⟩)⟩
    · next inner hopen =>
      rw [hopen, List.length_cons] at hskip
      have hskipInner := length_skipBlanks_le inner
      split at h
      · next after hclose =>
        rw [hclose, List.length_cons] at hskipInner
        obtain ⟨rfl, rfl⟩ := Prod.mk.inj (Option.some.inj h)
        exact ⟨by omega, Tree.Short.atDepth (Tree.allParts_object.mpr ⟨trivial, nofun⟩)⟩
      · obtain ⟨⟨members, after⟩, hmembers, heq⟩ := Option.map_eq_some_iff.mp h
        obtain ⟨rfl, rfl⟩ := Prod.mk.inj heq
        obtain ⟨hafter, hshort⟩ := short_readMembers fuel hmembers
          (show (skipBlanks inner).length ≤ bound by omega) nofun
        exact ⟨by omega, Tree.Short.atDepth (Tree.short_closeObject hshort)⟩
    · obtain ⟨⟨n, after⟩, hscan, heq⟩ := Option.map_eq_some_iff.mp h
      obtain ⟨rfl, rfl⟩ := Prod.mk.inj heq
      have hafter := Numeral.nonGrowing_scan hscan
      refine ⟨by omega, ?_⟩
      cases hvalue : (n.value : Option (Number α)) <;> exact Tree.short_leaf trivial rfl

theorem short_readItems (fuel : Nat) {depth bound : Nat} {cs rest : List Char}
    {read items : List (Tree α)} (h : readItems fuel depth read cs = some (items, rest))
    (hbound : cs.length ≤ bound) (hread : ∀ t ∈ read, t.Short bound) :
    rest.length ≤ cs.length ∧ ∀ t ∈ items, t.Short bound := by
  cases fuel with
  | zero => simp at h
  | succ fuel =>
    rw [readItems] at h
    split at h
    · cases h
    · next t after hvalue =>
      obtain ⟨hafter, ht⟩ := short_readValue fuel hvalue hbound
      have hread' : ∀ t' ∈ t :: read, t'.Short bound := List.forall_mem_cons.mpr ⟨ht, hread⟩
      have hskip := length_skipBlanks_le after
      split at h
      · next more heq =>
        rw [heq, List.length_cons] at hskip
        obtain ⟨hrest, hitems⟩ := short_readItems fuel h (by omega) hread'
        exact ⟨by omega, hitems⟩
      · next more heq =>
        rw [heq, List.length_cons] at hskip
        obtain ⟨rfl, rfl⟩ := Prod.mk.inj (Option.some.inj h)
        exact ⟨by omega, fun t' ht' => hread' t' (List.mem_reverse.mp ht')⟩
      · cases h

theorem short_readMembers (fuel : Nat) {depth bound : Nat} {cs rest : List Char}
    {read members : List (Option String × Tree α)}
    (h : readMembers fuel depth read cs = some (members, rest)) (hbound : cs.length ≤ bound)
    (hread : ∀ e ∈ read, e.2.Short bound) :
    rest.length ≤ cs.length ∧ ∀ e ∈ members, e.2.Short bound := by
  cases fuel with
  | zero => simp at h
  | succ fuel =>
    have hskip := length_skipBlanks_le cs
    rw [readMembers] at h
    split at h
    · next quoted hquote =>
      rw [hquote, List.length_cons] at hskip
      split at h
      · cases h
      · next name afterName hname =>
        have hafterName := (Quoted.length_read hname).1
        have hskipName := length_skipBlanks_le afterName
        split at h
        · next value hcolon =>
          rw [hcolon, List.length_cons] at hskipName
          split at h
          · cases h
          · next t after hvalue =>
            obtain ⟨hafter, ht⟩ := short_readValue fuel hvalue
              (show value.length ≤ bound by omega)
            have hread' : ∀ e ∈ (name, t) :: read, e.2.Short bound :=
              List.forall_mem_cons.mpr ⟨ht, hread⟩
            have hskipAfter := length_skipBlanks_le after
            split at h
            · next more heq =>
              rw [heq, List.length_cons] at hskipAfter
              obtain ⟨hrest, hmembers⟩ := short_readMembers fuel h (by omega) hread'
              exact ⟨by omega, hmembers⟩
            · next more heq =>
              rw [heq, List.length_cons] at hskipAfter
              obtain ⟨rfl, rfl⟩ := Prod.mk.inj (Option.some.inj h)
              exact ⟨by omega, hread'⟩
            · cases h
        · cases h
    · cases h

end

/-- **The strings in a text are shorter than the text.** -/
theorem Tree.short_of_parse? {text : String} {t : Tree α} (h : Tree.parse? text = some t) :
    t.Short text.length := by
  unfold Tree.parse? at h
  dsimp only at h
  split at h
  · next t' rest hread =>
    split_ifs at h
    obtain rfl := Option.some.inj h
    exact (short_readValue _ hread (Nat.le_of_eq String.length_toList)).2
  · cases h

/-! ### Embedded texts -/

omit [NumberText α] in
theorem mapM_congr_of_forall {f g : β → Option γ} {l : List β} (h : ∀ x ∈ l, f x = g x) :
    l.mapM f = l.mapM g := by
  induction l with
  | nil => rfl
  | cons x rest ih =>
    obtain ⟨hx, hrest⟩ := List.forall_mem_cons.mp h
    rw [List.mapM_cons, List.mapM_cons, hx, ih hrest]

omit [NumberText α] in
/-- What a tree stands for depends on the texts that are strings in it. -/
theorem Tree.valueWith?_congr {embedded? more? : String → Option (Json α)} {t : Tree α}
    (h : t.AllParts fun part => ∀ s, part = .string s → embedded? s = more? s) :
    t.valueWith? embedded? = t.valueWith? more? := by
  induction t using Tree.induction with
  | illegible | null | bool | number | string => rfl
  | array items ih =>
    have hitems := (allParts_array.mp h).2
    rw [valueWith?_array, valueWith?_array,
      mapM_congr_of_forall fun t ht => ih t ht (hitems t ht)]
  | object members ih =>
    have hmembers := (allParts_object.mp h).2
    cases hbegins : beginsEmbedded members with
    | true =>
      rw [valueWith?, valueWith?, if_pos hbegins, if_pos hbegins]
      unfold embeddedText?
      split
      · next name s =>
        exact (hmembers _ List.mem_cons_self).self s rfl
      · rfl
    | false =>
      rw [valueWith?_object hbegins, valueWith?_object hbegins,
        mapM_congr_of_forall (f := memberValue? embedded?) (g := memberValue? more?) fun e he => by
          rw [memberValue?, memberValue?, ih e he (hmembers e he)]]

/-- A depth above the length of a text is as good as any other. -/
theorem valueWithin?_of_lt {depth : Nat} {text : String} (h : text.length < depth) :
    (valueWithin? depth text : Option (Json α)) = parse? text := by
  induction depth using Nat.strongRecOn generalizing text with
  | ind depth ih =>
    obtain ⟨depth, rfl⟩ := Nat.exists_eq_succ_of_ne_zero (Nat.ne_zero_of_lt h)
    rw [parse?, valueWithin?, valueWithin?]
    cases hparse : (Tree.parse? text : Option (Tree α)) with
    | none => rfl
    | some t =>
      -- the strings in the text are below either bound, so both agree with the value on them
      refine Tree.valueWith?_congr fun part hpart s hs => ?_
      have hshort := Tree.short_of_parse? hparse part hpart
      rw [hs, Tree.ShortString, String.length_toList] at hshort
      rw [ih depth (by omega) (show s.length < depth by omega), ih text.length h hshort]

/-- **The value of a text is the value of its tree.** -/
theorem parse?_eq_bind_value? (text : String) :
    (parse? text : Option (Json α)) = (Tree.parse? text).bind Tree.value? := by
  rw [parse?, valueWithin?]
  cases hparse : (Tree.parse? text : Option (Tree α)) with
  | none => rfl
  | some t =>
    refine Tree.valueWith?_congr fun part hpart s hs => ?_
    have hshort := Tree.short_of_parse? hparse part hpart
    rw [hs, Tree.ShortString, String.length_toList] at hshort
    exact valueWithin?_of_lt hshort

/-! ### Reading once more -/

/-- A value as reading leaves it: members are in key order, and no object has the reserved name as
its only one. -/
structure Settled (v : Json α) : Prop where
  ordered : (Tree.ofValue v).Ordered
  unwrapped : (Tree.ofValue v).Unwrapped

theorem settled_of_value? {t : Tree α} {v : Json α} (h : t.value? = some v) : v.Settled :=
  ⟨Tree.ordered_of_value? h, Tree.unwrapped_of_value? h⟩

theorem settled_of_parse? {text : String} {v : Json α} (h : parse? text = some v) : v.Settled :=
  ⟨Tree.ordered_of_valueWithin? h, Tree.unwrapped_of_valueWithin? h⟩

omit [NumberText α] in
theorem Settled.member {v w : Json α} {k : String} (h : v.Settled) (hw : v.member? k = some w) :
    w.Settled := by
  cases v with
  | object members =>
    obtain ⟨e, hfound, rfl⟩ := Option.map_eq_some_iff.mp hw
    have hmem := List.mem_of_find?_eq_some hfound
    exact ⟨(Tree.allParts_ofValue_object.mp h.ordered).2 e hmem,
      (Tree.allParts_ofValue_object.mp h.unwrapped).2 e hmem⟩
  | _ => cases hw

/-- **A value is read once more if and only if no object in it begins with the reserved name**, and
then it stays as it is. -/
theorem Settled.reread?_eq_some_iff {v w : Json α} (h : v.Settled) :
    reread? v = some w ↔ (Tree.ofValue v).Plain ∧ w = v := by
  constructor
  · intro hread
    have hplain := Tree.plain_of_unwrapped hread h.unwrapped
    have hsame := Tree.valueWith?_ofValue parse? hplain h.ordered
    exact ⟨hplain, Option.some.inj (hread.symm.trans hsame)⟩
  · rintro ⟨hplain, rfl⟩
    exact Tree.valueWith?_ofValue parse? hplain h.ordered

/-- The items of an array are read once more as the array is. -/
theorem mapM_reread?_eq_some_iff {items again : List (Json α)} :
    items.mapM reread? = some again ↔ reread? (.array items) = some (.array again) := by
  have harray : reread? (.array items) = (items.mapM reread?).map .array := by
    rw [reread?, Tree.value?, Tree.ofValue, Tree.ofValues_eq_map, Tree.valueWith?_array,
      List.mapM_map]
    rfl
  rw [harray]
  simp

end ThermalLabel.Json

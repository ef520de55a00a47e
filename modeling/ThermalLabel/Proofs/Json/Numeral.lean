import Mathlib.Data.List.TakeDrop
import ThermalLabel.Json.Numeral
import ThermalLabel.Json.Printer

/-! # JSON numerals and what follows them

A numeral that is a whole text is read in the same way at the front of a longer one, if what follows
does not go on with it. So it is enough to know of a number that it reads back from its own text. -/

namespace ThermalLabel.Json

variable {α β γ : Type}

namespace Numeral

/-- A text that does not go on with a numeral. -/
def Stops (rest : List Char) : Prop :=
  ∀ c ∈ rest.head?, c.isDigit = false ∧ c ≠ '.' ∧ (c == 'e' || c == 'E') = false

theorem stops_nil : Stops [] := nofun

theorem stops_cons {c : Char} {rest : List Char}
    (h : c.isDigit = false ∧ c ≠ '.' ∧ (c == 'e' || c == 'E') = false) : Stops (c :: rest) := by
  intro other hother
  obtain rfl : c = other := Option.some.inj hother
  exact h

/-- A reader that takes no notice of a text behind what it reads. -/
def Extends (reader : List Char → Option (β × List Char)) : Prop :=
  ∀ ⦃cs rest more : List Char⦄ ⦃b : β⦄, reader cs = some (b, rest) → Stops more →
    reader (cs ++ more) = some (b, rest ++ more)

theorem Extends.map {reader : List Char → Option (β × List Char)} (h : Extends reader)
    (f : β → γ) : Extends fun cs => (reader cs).map fun (b, cs) => (f b, cs) := by
  intro cs rest more c hread hstops
  obtain ⟨⟨b, after⟩, hb, heq⟩ := Option.map_eq_some_iff.mp hread
  obtain ⟨rfl, rfl⟩ := Prod.mk.inj heq
  show Option.map _ (reader (cs ++ more)) = _
  rw [h hb hstops]
  rfl

theorem Extends.bind {reader : List Char → Option (β × List Char)}
    {next : β → List Char → Option (γ × List Char)} (h : Extends reader)
    (hnext : ∀ b, Extends (next b)) :
    Extends fun cs => (reader cs).bind fun (b, cs) => next b cs := by
  intro cs rest more c hread hstops
  obtain ⟨⟨b, after⟩, hb, hc⟩ := Option.bind_eq_some_iff.mp hread
  show Option.bind (reader (cs ++ more)) _ = _
  rw [h hb hstops]
  exact hnext b hc hstops

theorem span_append {more : List Char} (h : Stops more) (cs : List Char) :
    (cs ++ more).span Char.isDigit =
      ((cs.span Char.isDigit).1, (cs.span Char.isDigit).2 ++ more) := by
  simp only [List.span_eq_takeWhile_dropWhile]
  induction cs with
  | nil =>
    cases more with
    | nil => rfl
    | cons c more => simp [(h c rfl).1]
  | cons c cs ih =>
    simp only [Prod.mk.injEq] at ih
    cases hc : c.isDigit <;> simp [hc, ih]

theorem scanDigits_eq_some {cs digits rest : List Char} :
    scanDigits cs = some (digits, rest) ↔ digits ≠ [] ∧ cs.span Char.isDigit = (digits, rest) := by
  unfold scanDigits
  obtain ⟨front, back⟩ := cs.span Char.isDigit
  cases front with
  | nil => simp +contextual
  | cons c front =>
    simp only [Option.some.injEq, Prod.mk.injEq]
    exact ⟨fun h => ⟨h.1 ▸ List.cons_ne_nil c front, h⟩, And.right⟩

theorem extends_scanDigits : Extends scanDigits := by
  intro cs rest more digits h hstops
  obtain ⟨hne, hspan⟩ := scanDigits_eq_some.mp h
  refine scanDigits_eq_some.mpr ⟨hne, ?_⟩
  rw [span_append hstops, hspan]

theorem extends_scanWhole : Extends scanWhole := by
  intro cs rest more digits h hstops
  unfold scanWhole at h
  split at h
  · obtain ⟨rfl, rfl⟩ := Prod.mk.inj (Option.some.inj h)
    rfl
  · next hzero =>
    cases cs with
    | nil => cases h
    | cons c cs =>
      rw [List.cons_append, scanWhole.eq_2 _ fun rest heq => hzero cs (by simp_all)]
      exact extends_scanDigits h hstops

theorem extends_scanFraction : Extends scanFraction := by
  intro cs rest more fraction h hstops
  unfold scanFraction at h
  split at h
  · next rest' =>
    obtain ⟨⟨digits, after⟩, hdigits, heq⟩ := Option.map_eq_some_iff.mp h
    obtain ⟨rfl, rfl⟩ := Prod.mk.inj heq
    rw [List.cons_append, scanFraction, extends_scanDigits hdigits hstops]
    rfl
  · next hpoint =>
    obtain ⟨rfl, rfl⟩ := Prod.mk.inj (Option.some.inj h)
    refine scanFraction.eq_2 _ fun rest heq => ?_
    cases cs with
    | nil =>
      rw [List.nil_append] at heq
      rw [heq] at hstops
      exact (hstops '.' rfl).2.1 rfl
    | cons c cs => exact hpoint cs (by simp_all)

theorem scanSign_append {cs : List Char} (h : cs ≠ []) (more : List Char) :
    scanSign (cs ++ more) = ((scanSign cs).1, (scanSign cs).2 ++ more) := by
  cases cs with
  | nil => exact absurd rfl h
  | cons c cs =>
    unfold scanSign
    split <;> simp_all

theorem extends_scanExponent : Extends scanExponent := by
  intro cs rest more exponent h hstops
  cases cs with
  | nil =>
    obtain ⟨rfl, rfl⟩ := Prod.mk.inj (Option.some.inj h)
    cases more with
    | nil => rfl
    | cons c more =>
      show (if (c == 'e' || c == 'E') = true then _ else _) = _
      rw [if_neg (Bool.eq_false_iff.mp (hstops c rfl).2.2)]
      rfl
  | cons c cs =>
    rw [List.cons_append]
    unfold scanExponent at h ⊢
    dsimp only at h ⊢
    split at h
    · next he =>
      rw [if_pos he]
      obtain ⟨⟨digits, after⟩, hdigits, heq⟩ := Option.map_eq_some_iff.mp h
      obtain ⟨rfl, rfl⟩ := Prod.mk.inj heq
      have hne : cs ≠ [] := by
        rintro rfl
        cases hdigits
      rw [scanSign_append hne]
      dsimp only
      rw [extends_scanDigits hdigits hstops]
      rfl
    · next he =>
      rw [if_neg he]
      obtain ⟨rfl, rfl⟩ := Prod.mk.inj (Option.some.inj h)
      rfl

/-- A numeral behind its sign. -/
def scanMagnitude (negative : Bool) (cs : List Char) : Option (Numeral × List Char) :=
  (scanWhole cs).bind fun (whole, cs) =>
    (scanFraction cs).bind fun (fraction, cs) =>
      (scanExponent cs).map fun (exponent, cs) => (⟨negative, whole, fraction, exponent⟩, cs)

theorem scan_of_ne {c : Char} (h : c ≠ '-') (cs : List Char) :
    scan (c :: cs) = scanMagnitude false (c :: cs) := by
  unfold scan
  split
  next heq =>
    split at heq
    · simp_all
    · cases heq
      rfl

theorem extends_scanMagnitude (negative : Bool) : Extends (scanMagnitude negative) :=
  extends_scanWhole.bind fun _ => extends_scanFraction.bind fun _ => extends_scanExponent.map _

/-- **A numeral is read whatever follows it**, if this does not go on with it. -/
theorem extends_scan : Extends scan := by
  intro cs rest more numeral h hstops
  cases cs with
  | nil => cases h
  | cons c cs =>
    by_cases hminus : c = '-'
    · subst hminus
      exact extends_scanMagnitude true h hstops
    · rw [scan_of_ne hminus] at h
      rw [List.cons_append, scan_of_ne hminus]
      exact extends_scanMagnitude false h hstops

/-- A numeral begins with a minus or a digit. -/
theorem scan_head {cs : List Char} {r : Numeral × List Char} (h : scan cs = some r) :
    ∃ c rest, cs = c :: rest ∧ (c = '-' ∨ c.isDigit = true) := by
  cases cs with
  | nil => cases h
  | cons c cs =>
    refine ⟨c, cs, rfl, or_iff_not_imp_left.mpr fun hminus => ?_⟩
    rw [scan_of_ne hminus] at h
    obtain ⟨⟨whole, rest⟩, hwhole, -⟩ := Option.bind_eq_some_iff.mp h
    unfold scanWhole at hwhole
    split at hwhole
    · next heq => cases heq; rfl
    · obtain ⟨hne, hspan⟩ := scanDigits_eq_some.mp hwhole
      by_contra hdigit
      rw [List.span_eq_takeWhile_dropWhile, List.takeWhile_cons_of_neg hdigit] at hspan
      exact hne (Prod.mk.inj hspan).1.symm

end Numeral

/-! ### Numbers -/

namespace Number

variable [NumberText α]

/-- The number of a text that is a numeral and nothing else. -/
def read? (text : String) : Option (Number α) :=
  match Numeral.scan text.toList with
  | some (numeral, []) => numeral.value
  | _ => none

/-- A number that is read back from its own text. -/
def ReadsBack (n : Number α) : Prop := read? n.text = some n

instance [DecidableEq α] (n : Number α) : Decidable n.ReadsBack :=
  inferInstanceAs (Decidable (_ = _))

theorem ReadsBack.scan_append {n : Number α} (h : n.ReadsBack) {more : List Char}
    (hstops : Numeral.Stops more) :
    ∃ numeral : Numeral, Numeral.scan (n.text.toList ++ more) = some (numeral, more) ∧
      numeral.value = some n := by
  unfold ReadsBack read? at h
  split at h
  · next numeral hscan => exact ⟨numeral, Numeral.extends_scan hscan hstops, h⟩
  · cases h

end Number

end ThermalLabel.Json

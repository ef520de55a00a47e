import ThermalLabel.Text.Replace

/-! # Replacing a character

A pattern of one character does not overlap itself, so each character of a text is replaced, or is
kept, by itself. -/

namespace ThermalLabel.Text

/-- What a character becomes when one character is replaced. -/
def substitute (pattern : Char) (replacement : List Char) (c : Char) : List Char :=
  if c = pattern then replacement else [c]

theorem replaceFrom_singleton (pattern : Char) (replacement done cs : List Char) :
    replaceFrom [pattern] replacement done 0 cs =
      done.reverse ++ cs.flatMap (substitute pattern replacement) := by
  -- after a pattern of one character nothing is skipped, so both cases go on in the same state
  induction cs generalizing done with
  | nil => simp [replaceFrom]
  | cons c cs ih =>
    rw [List.flatMap_cons]
    by_cases hc : c = pattern
    · have hprefix : [pattern].isPrefixOf (c :: cs) = true := by simp [hc]
      have hnext := ih (replacement.reverse ++ done)
      rw [replaceFrom, if_pos hprefix]
      simpa [substitute, hc] using hnext
    · have hprefix : ¬ [pattern].isPrefixOf (c :: cs) = true := by simpa using Ne.symm hc
      have hnext := ih (c :: done)
      rw [replaceFrom, if_neg hprefix]
      simpa [substitute, hc] using hnext

theorem toList_replace_singleton (pattern : Char) (replacement s : String) :
    (replace (String.singleton pattern) replacement s).toList =
      s.toList.flatMap (substitute pattern replacement.toList) := by
  unfold replace replaceChars
  rw [String.toList_ofList, String.toList_singleton]
  exact replaceFrom_singleton pattern replacement.toList [] s.toList

/-- A character that is neither replaced nor in the replacement stays where it is. -/
theorem mem_replace_singleton {pattern c : Char} {replacement : String} (h : c ≠ pattern)
    (hreplacement : c ∉ replacement.toList) (s : String) :
    c ∈ (replace (String.singleton pattern) replacement s).toList ↔ c ∈ s.toList := by
  rw [toList_replace_singleton, List.mem_flatMap]
  constructor
  · rintro ⟨d, hd, hc⟩
    unfold substitute at hc
    split at hc
    · exact absurd hc hreplacement
    · exact List.mem_singleton.mp hc ▸ hd
  · intro hc
    refine ⟨c, hc, ?_⟩
    unfold substitute
    rw [if_neg h]
    exact List.mem_singleton_self c

end ThermalLabel.Text

import ProcessChart.Run.Lifecycle
import Mathlib.Data.List.Forall2
import Mathlib.Data.List.Infix

/-!
Which nodes never fail. They are those whose ids have the word "start" or the word
"end" in them, each letter of which may be small or capital.
-/

namespace ProcessChart

/-- Outside of ASCII neither side changes a character. -/
theorem Decimal.lowerAscii_eq_toLower (c : Char) : lowerAscii c = c.toLower := by
  have hascii : ∀ n < 128, lowerAscii (Char.ofNat n) = (Char.ofNat n).toLower := by decide
  by_cases h : c.toNat < 128
  · rw [← Char.ofNat_toNat c]
    exact hascii c.toNat h
  · have hcapital : ¬('A' ≤ c ∧ c ≤ 'Z') := by
      simp only [Char.le_def, UInt32.le_iff_toNat_le, Char.toNat_val]
      intro hc
      exact h (Nat.lt_of_le_of_lt hc.2 (by decide))
    have hsame : c.toLower = c := dif_neg hcapital
    rw [lowerAscii, hsame, if_neg (by simpa using hcapital)]

theorem occursIn_iff {part text : List Char} : occursIn part text = true ↔ part <:+: text := by
  induction text with
  | nil => rw [occursIn, List.isEmpty_iff, List.infix_nil]
  | cons c rest ih =>
    rw [occursIn, Bool.or_eq_true, List.isPrefixOf_iff_prefix, ih, List.infix_cons_iff]

/-- The character is this small letter or its capital; the long s is one more letter s. -/
def SameLetter (c letter : Char) : Prop := c.toLower = letter ∨ c = 'ſ' ∧ letter = 's'

theorem foldCase_eq_iff {c letter : Char} (h : letter ≠ 'ſ') :
    foldCase c = letter ↔ SameLetter c letter := by
  rw [foldCase, SameLetter]
  by_cases hc : c = 'ſ'
  · subst hc
    have hlower : 'ſ'.toLower = 'ſ' := by decide
    simp [hlower, h.symm, eq_comm]
  · simp [hc, Decimal.lowerAscii_eq_toLower]

theorem map_foldCase_eq_iff {part letters : List Char} (h : 'ſ' ∉ letters) :
    part.map foldCase = letters ↔ List.Forall₂ SameLetter part letters := by
  induction letters generalizing part with
  | nil => simp
  | cons letter rest ih =>
    rw [List.mem_cons, not_or] at h
    obtain ⟨hletter, hrest⟩ := h
    cases part with
    | nil => simp
    | cons c more =>
      rw [List.map_cons, List.cons.injEq, List.forall₂_cons, ih hrest,
        foldCase_eq_iff (Ne.symm hletter)]

/-- The word stands in the text, each of its letters small or capital. -/
def StandsIn (word text : String) : Prop :=
  ∃ part, part <:+: text.toList ∧ List.Forall₂ SameLetter part word.toList

theorem occursIn_foldCase_iff {word text : String} (h : 'ſ' ∉ word.toList) :
    occursIn word.toList (text.toList.map foldCase) = true ↔ StandsIn word text := by
  simp only [occursIn_iff, List.infix_map_iff, eq_comm (a := word.toList), map_foldCase_eq_iff h,
    StandsIn]

/-- The id is that of a start or an end. -/
def NamedForEnds (id : String) : Prop := StandsIn "start" id ∨ StandsIn "end" id

theorem neverFails_iff {id : String} : neverFails id = true ↔ NamedForEnds id := by
  rw [neverFails, Bool.or_eq_true, occursIn_foldCase_iff (by decide),
    occursIn_foldCase_iff (by decide), NamedForEnds]

instance : DecidablePred NamedForEnds := fun _ => decidable_of_iff _ neverFails_iff

example : NamedForEnds "BackEnd" ∧ NamedForEnds "reſtart" ∧ ¬NamedForEnds "stand" := by decide

end ProcessChart

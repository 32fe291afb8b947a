import ProcessChart.Json.Reader
import Mathlib.Data.List.Infix
import Mathlib.Data.List.TakeWhile

/-!
The written form of the numbers of strict JSON: a minus sign or none, digits
without leading zeros, and a fraction and an exponent that may be absent.
-/

namespace ProcessChart.Json

/-- At least one digit and nothing else. -/
structure Digits (cs : List Char) : Prop where
  ne_nil : cs ≠ []
  all : ∀ c ∈ cs, Decimal.isDigit c = true

inductive Fraction : List Char → Prop
  | absent : Fraction []
  | present {digits : List Char} (h : Digits digits) : Fraction ('.' :: digits)

inductive Exponent : List Char → Prop
  | absent : Exponent []
  | present {mark : Char} {sign digits : List Char} (hmark : mark = 'e' ∨ mark = 'E')
      (hsign : sign = [] ∨ sign = ['+'] ∨ sign = ['-']) (h : Digits digits) :
      Exponent (mark :: (sign ++ digits))

inductive Numeral : List Char → Prop
  | mk {sign whole fraction exponent : List Char} (hsign : sign = [] ∨ sign = ['-'])
      (hwhole : Digits whole) (hzero : whole.head? = some '0' → whole = ['0'])
      (hfraction : Fraction fraction) (hexponent : Exponent exponent) :
      Numeral (sign ++ (whole ++ (fraction ++ exponent)))

namespace Number

open Decimal

variable {cs rest : List Char} {n : Number} {negative : Bool} {word : Nat}

theorem digits_takeWhile (h : ¬(cs.takeWhile isDigit).isEmpty = true) :
    Digits (cs.takeWhile isDigit) where
  ne_nil := by simpa using h
  all c hc := List.mem_takeWhile_imp hc

theorem exponent_of_withExponent {mark : Char} {exponent : Int} (hmark : mark = 'e' ∨ mark = 'E')
    (h : withExponent negative word exponent cs = some (n, rest)) :
    ∃ text, Exponent text ∧ mark :: cs = text ++ rest := by
  unfold withExponent at h
  split at h
  next down ds hds =>
    dsimp only at h
    split at h
    · cases h
    · next hdigits =>
      have hrest : rest = ds.dropWhile isDigit := by
        split at h
        · split at h
          · cases h
          · cases h
            rfl
        · obtain ⟨x, -, h⟩ := Option.map_eq_some_iff.mp h
          cases h
          rfl
      have hsign : ∃ sign, (sign = [] ∨ sign = ['+'] ∨ sign = ['-']) ∧ cs = sign ++ ds := by
        split at hds
        · cases hds
          exact ⟨['+'], by simp⟩
        · cases hds
          exact ⟨['-'], by simp⟩
        · cases hds
          exact ⟨[], by simp⟩
      obtain ⟨sign, hsign, rfl⟩ := hsign
      refine ⟨_, .present hmark hsign (digits_takeWhile hdigits), ?_⟩
      rw [hrest, List.cons_append, List.append_assoc, List.takeWhile_append_dropWhile]

theorem shape_of_afterWhole {dropped : Nat}
    (h : afterWhole negative word dropped cs = some (n, rest)) :
    ∃ fraction exponent, Fraction fraction ∧ Exponent exponent ∧
      cs = fraction ++ (exponent ++ rest) := by
  unfold afterWhole at h
  split at h
  · next more =>
    dsimp only at h
    split at h
    · cases h
    · next hdigits =>
      have hfraction := Fraction.present (digits_takeWhile hdigits)
      suffices ∃ exponent, Exponent exponent ∧ more.dropWhile isDigit = exponent ++ rest by
        obtain ⟨exponent, hexponent, hmore⟩ := this
        refine ⟨_, exponent, hfraction, hexponent, ?_⟩
        rw [← hmore, List.cons_append, List.takeWhile_append_dropWhile]
      split at h
      · next tail htail =>
        rw [htail]
        exact exponent_of_withExponent (Or.inl rfl) h
      · next tail htail =>
        rw [htail]
        exact exponent_of_withExponent (Or.inr rfl) h
      · obtain ⟨x, -, h⟩ := Option.map_eq_some_iff.mp h
        cases h
        exact ⟨[], .absent, rfl⟩
  · obtain ⟨exponent, hexponent, htext⟩ := exponent_of_withExponent (Or.inl rfl) h
    exact ⟨[], exponent, .absent, hexponent, htext⟩
  · obtain ⟨exponent, hexponent, htext⟩ := exponent_of_withExponent (Or.inr rfl) h
    exact ⟨[], exponent, .absent, hexponent, htext⟩
  · split at h
    · cases h
      exact ⟨[], [], .absent, .absent, rfl⟩
    · obtain ⟨x, -, h⟩ := Option.map_eq_some_iff.mp h
      cases h
      exact ⟨[], [], .absent, .absent, rfl⟩

/-- What is read as a number is a numeral. -/
theorem numeral_of_read (h : Number.read cs = some (n, rest)) :
    ∃ text, Numeral text ∧ cs = text ++ rest := by
  unfold Number.read at h
  split at h
  next negative ds hds =>
    dsimp only at h
    split at h
    · cases h
    · next hdigits =>
      rw [Bool.or_eq_true, not_or, Bool.and_eq_true, decide_eq_true_eq,
        decide_eq_true_eq] at hdigits
      obtain ⟨hdigits, hzero⟩ := hdigits
      obtain ⟨fraction, exponent, hfraction, hexponent, hafter⟩ := shape_of_afterWhole h
      have hsign : ∃ sign, (sign = [] ∨ sign = ['-']) ∧ cs = sign ++ ds := by
        split at hds
        · cases hds
          exact ⟨['-'], by simp⟩
        · cases hds
          exact ⟨[], by simp⟩
      have honly : (ds.takeWhile isDigit).head? = some '0' → ds.takeWhile isDigit = ['0'] := by
        intro hhead
        obtain ⟨more, hcons⟩ := List.head?_eq_some_iff.mp hhead
        have hlength : ¬1 < (ds.takeWhile isDigit).length := fun hlt => hzero ⟨hhead, hlt⟩
        rw [hcons, List.length_cons] at hlength
        obtain rfl : more = [] := List.length_eq_zero_iff.mp (by omega)
        exact hcons
      obtain ⟨sign, hsign, rfl⟩ := hsign
      refine ⟨_, .mk hsign (digits_takeWhile hdigits) honly hfraction hexponent, ?_⟩
      rw [List.append_assoc, List.append_assoc, List.append_assoc, ← hafter,
        List.takeWhile_append_dropWhile]

end Number

/-- A numeral begins with a minus sign or a digit. -/
theorem Numeral.exists_cons {text : List Char} (h : Numeral text) :
    ∃ c more, text = c :: more ∧ (c = '-' ∨ Decimal.isDigit c = true) := by
  obtain ⟨hsign, hwhole, -, -, -⟩ := h
  obtain ⟨d, ds, rfl⟩ := List.exists_cons_of_ne_nil hwhole.ne_nil
  rcases hsign with rfl | rfl
  · exact ⟨d, _, rfl, Or.inr (hwhole.all d List.mem_cons_self)⟩
  · exact ⟨'-', _, rfl, Or.inl rfl⟩

end ProcessChart.Json

import ProcessChart.Markup.Piece

/-!
What stands between the quotes of an attribute. Text is escaped and whole
numbers are written in decimal. Both can be read back, and neither contains the
quote that ends the value.
-/

namespace ProcessChart

namespace Markup

/-- A character by itself, or the entity that stands for it. -/
def escapeChar (c : Char) : List Char :=
  if c = '&' then "&amp;".toList
  else if c = '<' then "&lt;".toList
  else if c = '>' then "&gt;".toList
  else if c = '"' then "&quot;".toList
  else if c = '\'' then "&apos;".toList
  else [c]

/-- The characters that have an entity. -/
def reserved : List Char := ['&', '<', '>', '"', '\'']

theorem mem_reserved_iff {c : Char} :
    c ∈ reserved ↔ c = '&' ∨ c = '<' ∨ c = '>' ∨ c = '"' ∨ c = '\'' := by
  simp [reserved]

theorem escapeChar_of_not_reserved {c : Char} (h : c ∉ reserved) : escapeChar c = [c] := by
  simp only [reserved, List.mem_cons, List.not_mem_nil, or_false, not_or] at h
  obtain ⟨hamp, hlt, hgt, hquot, hapos⟩ := h
  simp only [escapeChar, hamp, hlt, hgt, hquot, hapos, if_false]

theorem replaceChar_singleton_of_ne {c x : Char} {entity : String} (h : x ≠ c) :
    replaceChar c entity [x] = [x] := by
  simp only [replaceChar, List.flatMap_cons, List.flatMap_nil, if_neg h, List.append_nil]

theorem escapeChars_singleton (c : Char) : escapeChars [c] = escapeChar c := by
  by_cases h : c ∈ reserved
  · have hentities : reserved.map (fun c => escapeChars [c]) = reserved.map escapeChar := by decide
    exact List.map_inj_left.mp hentities c h
  · rw [escapeChar_of_not_reserved h]
    simp only [reserved, List.mem_cons, List.not_mem_nil, or_false, not_or] at h
    obtain ⟨hamp, hlt, hgt, hquot, hapos⟩ := h
    simp only [escapeChars, replaceChar_singleton_of_ne hamp, replaceChar_singleton_of_ne hlt,
      replaceChar_singleton_of_ne hgt, replaceChar_singleton_of_ne hquot,
      replaceChar_singleton_of_ne hapos]

/-- The replacements of the whole text, one after the other, replace each
character once. -/
theorem escapeChars_eq_flatMap (text : List Char) :
    escapeChars text = text.flatMap escapeChar := by
  induction text with
  | nil => rfl
  | cons c rest ih =>
    rw [← List.singleton_append, escapeChars_append, escapeChars_singleton, ih]
    rfl

theorem escapeChars_cons (c : Char) (text : List Char) :
    escapeChars (c :: text) = escapeChar c ++ escapeChars text := by
  rw [escapeChars_eq_flatMap, escapeChars_eq_flatMap, List.flatMap_cons]

/-- Entities are resolved once, from left to right. Every other character is kept. -/
def resolve : List Char → List Char
  | '&' :: 'a' :: 'm' :: 'p' :: ';' :: rest => '&' :: resolve rest
  | '&' :: 'l' :: 't' :: ';' :: rest => '<' :: resolve rest
  | '&' :: 'g' :: 't' :: ';' :: rest => '>' :: resolve rest
  | '&' :: 'q' :: 'u' :: 'o' :: 't' :: ';' :: rest => '"' :: resolve rest
  | '&' :: 'a' :: 'p' :: 'o' :: 's' :: ';' :: rest => '\'' :: resolve rest
  | c :: rest => c :: resolve rest
  | [] => []

theorem resolve_cons_of_ne {c : Char} (h : c ≠ '&') (rest : List Char) :
    resolve (c :: rest) = c :: resolve rest := by
  rw [resolve]
  all_goals
    intro more hamp
    exact absurd hamp h

theorem resolve_escapeChar (c : Char) (rest : List Char) :
    resolve (escapeChar c ++ rest) = c :: resolve rest := by
  by_cases h : c ∈ reserved
  · simp only [reserved, List.mem_cons, List.not_mem_nil, or_false] at h
    rcases h with rfl | rfl | rfl | rfl | rfl <;> rfl
  · have hamp : c ≠ '&' := by
      rintro rfl
      exact h (by decide)
    rw [escapeChar_of_not_reserved h, List.singleton_append, resolve_cons_of_ne hamp]

theorem resolve_escapeChars (text : List Char) : resolve (escapeChars text) = text := by
  rw [escapeChars_eq_flatMap]
  induction text with
  | nil => rfl
  | cons c rest ih => rw [List.flatMap_cons, resolve_escapeChar, ih]

theorem escapeChars_injective : Function.Injective escapeChars :=
  Function.LeftInverse.injective resolve_escapeChars

/-- Of the characters that have an entity, only the one that entities begin with is left. -/
theorem not_mem_escapeChars {c : Char} (h : c ∈ reserved) (hamp : c ≠ '&') (text : List Char) :
    c ∉ escapeChars text := by
  have hentities : c ∉ reserved.flatMap escapeChar := by
    rcases mem_reserved_iff.mp h with rfl | rfl | rfl | rfl | rfl
    · exact absurd rfl hamp
    all_goals decide
  rw [escapeChars_eq_flatMap]
  intro hmem
  obtain ⟨x, -, hx⟩ := List.mem_flatMap.mp hmem
  by_cases hreserved : x ∈ reserved
  · exact hentities (List.mem_flatMap_of_mem hreserved hx)
  · rw [escapeChar_of_not_reserved hreserved, List.mem_singleton] at hx
    exact hreserved (hx ▸ h)

theorem quote_not_mem_escapeChars (text : List Char) : '"' ∉ escapeChars text :=
  not_mem_escapeChars (by decide) (by decide) text

end Markup

namespace Decimal

theorem isDigit_digitChar (n : Nat) : isDigit (digitChar n) = true := by
  have h : ∀ d < 10, isDigit (Char.ofNat (48 + d)) = true := by decide
  exact h (n % 10) (Nat.mod_lt n (by decide))

theorem isDigit_of_mem_digits {n : Nat} {c : Char} (h : c ∈ digits n) : isDigit c = true := by
  induction n using Nat.strongRecOn with
  | _ n ih =>
    rw [digits] at h
    split at h
    · rw [List.mem_singleton.mp h]
      exact isDigit_digitChar n
    · rcases List.mem_append.mp h with h | h
      · exact ih (n / 10) (by omega) h
      · rw [List.mem_singleton.mp h]
        exact isDigit_digitChar n

theorem digits_injective : Function.Injective digits :=
  Function.LeftInverse.injective value_digits

theorem digits_ne_minus_cons (n : Nat) (rest : List Char) : digits n ≠ '-' :: rest := by
  intro h
  have hminus : '-' ∈ digits n := by rw [h]; exact List.mem_cons_self
  have := isDigit_of_mem_digits hminus
  exact absurd this (by decide)

theorem integer_injective : Function.Injective integer := by
  intro i j h
  cases i with
  | ofNat m =>
    cases j with
    | ofNat n => exact congrArg Int.ofNat (digits_injective h)
    | negSucc n => exact absurd h (digits_ne_minus_cons m _)
  | negSucc m =>
    cases j with
    | ofNat n => exact absurd h.symm (digits_ne_minus_cons n _)
    | negSucc n =>
      have hdigits : digits (m + 1) = digits (n + 1) := (List.cons.inj h).2
      have := digits_injective hdigits
      rw [Nat.succ.inj this]

theorem quote_not_mem_integer (i : Int) : '"' ∉ integer i := by
  have hdigits : ∀ n, '"' ∉ digits n := by
    intro n h
    exact absurd (isDigit_of_mem_digits h) (by decide)
  cases i with
  | ofNat n => exact hdigits n
  | negSucc n =>
    intro h
    rcases List.mem_cons.mp h with h | h
    · exact absurd h (by decide)
    · exact hdigits (n + 1) h

end Decimal

end ProcessChart

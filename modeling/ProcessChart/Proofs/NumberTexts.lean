import ProcessChart.Proofs.Breaks
import ProcessChart.Proofs.Numerals

/-!
Where the numbers of JSON5 end. A number that the end of a word follows is the
same number whatever stands behind, and every numeral of strict JSON is one
number of JSON5, taken as a whole.
-/

namespace ProcessChart.Json5

section Numbers

variable {c : Char} {cs rest : List Char}

theorem takeWhile_append_cons {p : Char → Bool} (hc : p c = false) (front more : List Char) :
    (front ++ c :: more).takeWhile p = front.takeWhile p := by
  induction front with
  | nil => simp [hc]
  | cons d front ih => simp [List.takeWhile_cons, ih]

theorem isPrefixOf_append_cons {word : List Char} (hc : c ∉ word) (front more : List Char) :
    word.isPrefixOf (front ++ c :: more) = word.isPrefixOf front := by
  induction front generalizing word with
  | nil =>
    cases word with
    | nil => rfl
    | cons d word =>
      have hne : d ≠ c := fun heq => hc (heq ▸ List.mem_cons_self)
      simp [List.isPrefixOf, hne]
  | cons d front ih =>
    cases word with
    | nil => rfl
    | cons e word =>
      rw [List.cons_append, List.isPrefixOf, List.isPrefixOf,
        ih fun hmem => hc (List.mem_cons_of_mem e hmem)]

theorem isDigit_eq_false (hc : c ∈ breaks) : Decimal.isDigit c = false :=
  (of_mem_breaks c hc).2.2.1

theorem ne_of_mem_breaks (hc : c ∈ breaks) {d : Char}
    (hd : d ∈ ['+', '-', '.', 'e', 'E', 'x', 'X', '\\']) : c ≠ d := by
  rintro rfl
  exact (of_mem_breaks c hc).2.2.2 hd

variable (hc : c ∈ breaks) (front more : List Char)

include hc

theorem wholeLength_append : wholeLength (front ++ c :: more) = wholeLength front := by
  have hdigit := isDigit_eq_false hc
  have htake := takeWhile_append_cons hdigit front more
  cases front with
  | nil =>
    rw [List.nil_append, wholeLength.eq_2]
    · simp [wholeLength, hdigit]
    · rintro tail h
      cases h
      exact absurd hdigit (by decide)
  | cons d front =>
    by_cases hd : d = '0'
    · subst hd
      rfl
    · rw [List.cons_append, wholeLength.eq_2, wholeLength.eq_2, ← List.cons_append, htake] <;>
      · rintro tail h
        cases h
        exact hd rfl

theorem exponentLength_append : exponentLength (front ++ c :: more) = exponentLength front := by
  have hdigit := isDigit_eq_false hc
  have hplus : c ≠ '+' := ne_of_mem_breaks hc (by decide)
  have hminus : c ≠ '-' := ne_of_mem_breaks hc (by decide)
  have he : c ≠ 'e' := ne_of_mem_breaks hc (by decide)
  have hE : c ≠ 'E' := ne_of_mem_breaks hc (by decide)
  match front with
  | [] => simp [exponentLength, he, hE]
  | [d] => simp [exponentLength, hplus, hminus, hdigit]
  | d :: x :: front =>
    by_cases hmark : d = 'e' ∨ d = 'E'
    · by_cases hx : x = '+'
      · subst hx
        simp [exponentLength, hmark, takeWhile_append_cons hdigit]
      · by_cases hx' : x = '-'
        · subst hx'
          simp [exponentLength, hmark, takeWhile_append_cons hdigit]
        · have htake := takeWhile_append_cons hdigit (x :: front) more
          rw [List.cons_append] at htake
          simp [exponentLength, hmark, hx, hx', htake]
    · simp [exponentLength, hmark]

theorem hexLength_append : hexLength (front ++ c :: more) = hexLength front := by
  have hhex : isHexDigit c = false := (of_mem_breaks c hc).2.1
  have hx : c ≠ 'x' := ne_of_mem_breaks hc (by decide)
  have hX : c ≠ 'X' := ne_of_mem_breaks hc (by decide)
  have hzero : c ≠ '0' := by
    rintro rfl
    exact absurd (isDigit_eq_false hc) (by decide)
  match front with
  | [] => simp [hexLength, hzero]
  | [d] =>
    by_cases hd : d = '0'
    · simp [hexLength, hd, hx, hX]
    · simp [hexLength, hd]
  | d :: x :: front =>
    by_cases hd : d = '0'
    · simp [hexLength, hd, takeWhile_append_cons hhex]
    · simp [hexLength, hd]

omit hc in
theorem wholeLength_le : wholeLength front ≤ front.length := by
  unfold wholeLength
  split
  · simp
  · exact (List.takeWhile_prefix _).length_le

theorem decimalLength_append : decimalLength (front ++ c :: more) = decimalLength front := by
  have hdigit := isDigit_eq_false hc
  have hpoint : c ≠ '.' := ne_of_mem_breaks hc (by decide)
  have hexponent : ∀ tail, exponentLength (tail ++ c :: more) = exponentLength tail :=
    fun tail => exponentLength_append hc tail more
  rw [decimalLength, decimalLength, wholeLength_append hc,
    List.drop_append_of_le_length (wholeLength_le front)]
  generalize wholeLength front = whole
  match front.drop whole with
  | [] =>
    have hnothing := hexponent []
    rw [List.nil_append] at hnothing
    simp [hpoint, hnothing]
  | d :: tail =>
    by_cases hd : d = '.'
    · subst hd
      have hpart : (tail.takeWhile Decimal.isDigit).length ≤ tail.length :=
        (List.takeWhile_prefix _).length_le
      simp [takeWhile_append_cons hdigit, List.drop_append_of_le_length hpart, hexponent]
    · have hrest := hexponent (d :: tail)
      rw [List.cons_append] at hrest
      simp [hd, hrest]

theorem unsignedLength_append : unsignedLength (front ++ c :: more) = unsignedLength front := by
  have hinfinity : c ∉ "Infinity".toList := fun hmem => by
    have hall : ∀ d ∈ "Infinity".toList, d ∉ breaks := forall_mem_of_all (by decide)
    exact hall c hmem hc
  have hnan : c ∉ "NaN".toList := fun hmem => by
    have hall : ∀ d ∈ "NaN".toList, d ∉ breaks := forall_mem_of_all (by decide)
    exact hall c hmem hc
  simp only [unsignedLength, hexLength_append hc, decimalLength_append hc,
    isPrefixOf_append_cons hinfinity, isPrefixOf_append_cons hnan]

omit hc

/-- How many characters the sign of a number has. -/
def signLength (cs : List Char) : Nat :=
  match cs with
  | '+' :: _ => 1
  | '-' :: _ => 1
  | _ => 0

/-- The text is a number, sign included, and nothing else. -/
def IsNumber (token : List Char) : Prop :=
  unsignedLength (token.drop (signLength token)) ≠ 0 ∧
    signLength token + unsignedLength (token.drop (signLength token)) = token.length

theorem number?_eq (cs : List Char) :
    number? cs =
      let length := signLength cs + unsignedLength (cs.drop (signLength cs))
      if unsignedLength (cs.drop (signLength cs)) = 0 then none
      else some (cs.take length, cs.drop length) :=
  rfl

theorem signLength_append {token : List Char} (hne : token ≠ []) (more : List Char) :
    signLength (token ++ more) = signLength token := by
  obtain ⟨d, token, rfl⟩ := List.exists_cons_of_ne_nil hne
  by_cases hplus : d = '+'
  · subst hplus
    rfl
  · by_cases hminus : d = '-'
    · subst hminus
      rfl
    · simp [signLength, hplus, hminus]

theorem number?_of_isNumber {token : List Char} (h : IsNumber token) (hrest : Breaks rest) :
    number? (token ++ rest) = some (token, rest) := by
  obtain ⟨c, hc, more, rfl⟩ := hrest
  obtain ⟨hpos, hlength⟩ := h
  have hne : token ≠ [] := by
    rintro rfl
    exact hpos (by decide)
  have hsign : signLength token ≤ token.length := by omega
  rw [number?_eq, signLength_append hne, List.drop_append_of_le_length hsign,
    unsignedLength_append hc, if_neg hpos, hlength]
  simp

theorem isNumber_of_number? {token : List Char} (h : number? cs = some (token, rest))
    (hrest : Breaks rest) : IsNumber token ∧ cs = token ++ rest := by
  obtain ⟨c, hc, more, rfl⟩ := hrest
  rw [number?_eq] at h
  dsimp only at h
  split at h
  · cases h
  · next hpos =>
    rw [Option.some.injEq, Prod.mk.injEq] at h
    obtain ⟨htake, hdrop⟩ := h
    have hcs : cs = token ++ c :: more := by rw [← htake, ← hdrop, List.take_append_drop]
    have hlength : token.length = signLength cs + unsignedLength (cs.drop (signLength cs)) := by
      rw [← htake, List.length_take_of_le]
      have hlt := congrArg List.length hdrop
      rw [List.length_drop, List.length_cons] at hlt
      omega
    have hne : token ≠ [] := by
      rintro rfl
      rw [List.length_nil] at hlength
      omega
    have hsign : signLength token ≤ token.length := by
      rw [hlength, hcs, signLength_append hne]
      exact Nat.le_add_right _ _
    rw [hcs, signLength_append hne, List.drop_append_of_le_length hsign,
      unsignedLength_append hc] at hlength hpos
    exact ⟨⟨hpos, hlength.symm⟩, hcs⟩

/-- A number that a break follows ends there, whatever the break is and whatever stands behind. -/
theorem number?_append {token : List Char} (h : number? cs = some (token, rest))
    (hrest : Breaks rest) (more : List Char) :
    number? (cs ++ more) = some (token, rest ++ more) := by
  obtain ⟨htoken, rfl⟩ := isNumber_of_number? h hrest
  rw [List.append_assoc]
  exact number?_of_isNumber htoken (hrest.append more)

end Numbers

section Numerals

open Json (Digits Fraction Exponent Numeral)

theorem takeWhile_digits {digits tail : List Char} (h : Digits digits)
    (htail : ∀ c ∈ tail.head?, Decimal.isDigit c = false) :
    (digits ++ tail).takeWhile Decimal.isDigit = digits := by
  rw [List.takeWhile_append_of_pos h.all]
  cases tail with
  | nil => simp
  | cons c tail => simp [htail c rfl]

theorem ne_of_isDigit {c d : Char} (hc : Decimal.isDigit c = true)
    (hd : Decimal.isDigit d = false) : c ≠ d := by
  rintro rfl
  exact absurd (hc.symm.trans hd) (by decide)

theorem exponentLength_eq {text : List Char} (h : Exponent text) :
    exponentLength text = text.length := by
  cases h with
  | absent => rfl
  | @present mark sign digits hmark hsign hdigits =>
    obtain ⟨d, ds, rfl⟩ := List.exists_cons_of_ne_nil hdigits.ne_nil
    have hd := hdigits.all d List.mem_cons_self
    have hplus : d ≠ '+' := ne_of_isDigit hd (by decide)
    have hminus : d ≠ '-' := ne_of_isDigit hd (by decide)
    have htake := List.takeWhile_eq_self_iff.mpr hdigits.all
    rcases hsign with rfl | rfl | rfl <;>
      simp [exponentLength, hmark, hplus, hminus, htake] <;> omega

/-- A fraction and an exponent do not go on with the digits before them. -/
theorem head_fraction {fraction exponent : List Char} (hfraction : Fraction fraction)
    (hexponent : Exponent exponent) :
    ∀ c ∈ (fraction ++ exponent).head?, c = '.' ∨ c = 'e' ∨ c = 'E' := by
  cases hfraction with
  | present => simp
  | absent =>
    cases hexponent with
    | absent => simp
    | present hmark => simpa using Or.inr hmark

theorem wholeLength_eq {whole tail : List Char} (hwhole : Digits whole)
    (hzero : whole.head? = some '0' → whole = ['0'])
    (htail : ∀ c ∈ tail.head?, Decimal.isDigit c = false) :
    wholeLength (whole ++ tail) = whole.length := by
  obtain ⟨d, ds, rfl⟩ := List.exists_cons_of_ne_nil hwhole.ne_nil
  by_cases hd : d = '0'
  · subst hd
    obtain rfl : ds = [] := by simpa using hzero rfl
    rfl
  · rw [wholeLength.eq_2, takeWhile_digits hwhole htail]
    rintro more h
    cases h
    exact hd rfl

theorem decimalLength_eq {whole fraction exponent : List Char} (hwhole : Digits whole)
    (hzero : whole.head? = some '0' → whole = ['0']) (hfraction : Fraction fraction)
    (hexponent : Exponent exponent) :
    decimalLength (whole ++ (fraction ++ exponent)) =
      (whole ++ (fraction ++ exponent)).length := by
  have hhead := head_fraction hfraction hexponent
  have hdigit : ∀ c ∈ (fraction ++ exponent).head?, Decimal.isDigit c = false := by
    intro c hc
    rcases hhead c hc with rfl | rfl | rfl <;> decide
  have hpos := List.length_pos_of_ne_nil hwhole.ne_nil
  rw [decimalLength, wholeLength_eq hwhole hzero hdigit, List.drop_left]
  cases hfraction with
  | @present digits hdigits =>
    have htail : ∀ c ∈ exponent.head?, Decimal.isDigit c = false := fun c hc => by
      rcases head_fraction .absent hexponent c (by simpa using hc) with rfl | rfl | rfl <;> decide
    simp [takeWhile_digits hdigits htail, exponentLength_eq hexponent, hpos.ne']
    omega
  | absent =>
    rw [List.nil_append] at hhead ⊢
    split
    · cases hexponent with
      | present hmark => simp at hmark
    · rw [if_neg hpos.ne', exponentLength_eq hexponent, List.length_append]

theorem hexLength_eq_zero {whole tail : List Char} (hwhole : Digits whole)
    (hzero : whole.head? = some '0' → whole = ['0'])
    (htail : ∀ c ∈ tail.head?, c ≠ 'x' ∧ c ≠ 'X') : hexLength (whole ++ tail) = 0 := by
  obtain ⟨d, ds, rfl⟩ := List.exists_cons_of_ne_nil hwhole.ne_nil
  by_cases hd : d = '0'
  · subst hd
    obtain rfl : ds = [] := by simpa using hzero rfl
    cases tail with
    | nil => rfl
    | cons c tail => simp [hexLength, htail c rfl]
  · rw [List.cons_append, hexLength.eq_2]
    rintro x more h
    exact hd (List.cons.inj h).1

theorem signLength_eq {sign whole tail : List Char} (hsign : sign = [] ∨ sign = ['-'])
    (hwhole : Digits whole) : signLength (sign ++ (whole ++ tail)) = sign.length := by
  obtain ⟨d, ds, rfl⟩ := List.exists_cons_of_ne_nil hwhole.ne_nil
  have hd := hwhole.all d List.mem_cons_self
  have hplus : d ≠ '+' := ne_of_isDigit hd (by decide)
  have hminus : d ≠ '-' := ne_of_isDigit hd (by decide)
  rcases hsign with rfl | rfl <;> simp [signLength, hplus, hminus]

/-- A numeral of strict JSON is a number of JSON5. -/
theorem isNumber_of_numeral {text : List Char} (h : Numeral text) : IsNumber text := by
  cases h with
  | @mk sign whole fraction exponent hsign hwhole hzero hfraction hexponent =>
    have hletter : ∀ c ∈ (fraction ++ exponent).head?, c ≠ 'x' ∧ c ≠ 'X' := by
      intro c hc
      rcases head_fraction hfraction hexponent c hc with rfl | rfl | rfl <;> decide
    have hpos : (whole ++ (fraction ++ exponent)).length ≠ 0 := by
      simp [hwhole.ne_nil]
    have hunsigned : unsignedLength (whole ++ (fraction ++ exponent)) =
        (whole ++ (fraction ++ exponent)).length := by
      simp [unsignedLength, hexLength_eq_zero hwhole hzero hletter,
        decimalLength_eq hwhole hzero hfraction hexponent, hwhole.ne_nil]
    rw [IsNumber, signLength_eq hsign hwhole, List.drop_left, hunsigned]
    exact ⟨hpos, (List.length_append ..).symm⟩

end Numerals

end ProcessChart.Json5

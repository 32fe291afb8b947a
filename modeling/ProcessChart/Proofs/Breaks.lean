import ProcessChart.Json.Reader
import ProcessChart.Json5.Syntax
import Mathlib.Data.List.Infix

/-!
Where a word ends. Blanks, commas, colons, closing brackets and the stroke of a
comment belong to no number and no identifier, so whatever stands in front of
one of them is over there.
-/

namespace ProcessChart

/-- What is to hold of the characters of a list is decided on the list, not on all characters. -/
theorem forall_mem_of_all {p : Char → Prop} [DecidablePred p] {l : List Char}
    (h : (l.all fun c => decide (p c)) = true) : ∀ c ∈ l, p c := by
  simpa using h

namespace Json5

/-- All characters that end a word: what is skipped between tokens, or begins a comment, or
separates and closes. -/
def breaks : List Char :=
  ['/', ',', ':', ']', '\x7d', '\t', '\n', '\x0b', '\x0c', '\r', ' ', '\u00a0', '\u1680', '\u2000',
    '\u2001', '\u2002', '\u2003', '\u2004', '\u2005', '\u2006', '\u2007', '\u2008', '\u2009',
    '\u200a', '\u2028', '\u2029', '\u202f', '\u205f', '\u3000', '\ufeff']

/-- The text begins with the end of a word. -/
def Breaks (cs : List Char) : Prop := ∃ c ∈ breaks, ∃ more, cs = c :: more

theorem Breaks.append {cs : List Char} (h : Breaks cs) (more : List Char) :
    Breaks (cs ++ more) := by
  obtain ⟨c, hc, rest, rfl⟩ := h
  exact ⟨c, hc, rest ++ more, rfl⟩

theorem of_mem_breaks : ∀ c ∈ breaks,
    continuesIdentifier c = false ∧ isHexDigit c = false ∧ Decimal.isDigit c = false ∧
      c ∉ ['+', '-', '.', 'e', 'E', 'x', 'X', '\\'] :=
  forall_mem_of_all (by decide +kernel)

theorem mem_breaks_of_isSpace {c : Char} (h : isSpace c = true) : c ∈ breaks := by
  have hcode : ∀ n ∈ [0x09, 0x0B, 0x0C, 0x20, 0xA0, 0x1680, 0x202F, 0x205F, 0x3000, 0xFEFF],
      Char.ofNat n ∈ breaks := by decide
  have hrange : ∀ k < 11, Char.ofNat (0x2000 + k) ∈ breaks := by decide
  have hline : ∀ c ∈ ['\n', '\r', '\u2028', '\u2029'], c ∈ breaks :=
    forall_mem_of_all (by decide)
  by_cases hc : isLineEnd c = true
  · exact hline c (by simpa [isLineEnd, or_assoc] using hc)
  · rw [← Char.ofNat_toNat c]
    simp only [isSpace, hc, Bool.or_false, Bool.or_eq_true, Bool.and_eq_true,
      decide_eq_true_eq] at h
    by_cases hmiddle : 0x2000 ≤ c.toNat ∧ c.toNat ≤ 0x200A
    · have hk := hrange (c.toNat - 0x2000) (by omega)
      rwa [Nat.add_sub_cancel' hmiddle.1] at hk
    · exact hcode c.toNat (by simp; omega)

/-- A closing bracket or brace ends a word, and is neither skipped nor a comma. -/
theorem of_close {close : Char} (h : close = ']' ∨ close = '\x7d') :
    close ∈ breaks ∧ isSpace close = false ∧ close ≠ '/' ∧ close ≠ ',' := by
  rcases h with rfl | rfl <;> decide

section Skipping

variable {c : Char} {cs rest : List Char}

theorem skipFrom_space (hspace : isSpace c = true) (rest : List Char) :
    skipFrom .between (c :: rest) = skipFrom .between rest := by
  have hstroke : c ≠ '/' := by
    rintro rfl
    exact absurd hspace (by decide)
  rw [skipFrom.eq_6 c rest (fun _ h => absurd h hstroke) (fun _ h => absurd h hstroke),
    if_pos hspace]

/-- What is left is an end of the text; only in a block comment can it be the comment instead. -/
theorem skipFrom_suffix (state : SkipState) (cs : List Char) :
    skipFrom state cs <:+ cs ∨ ∃ start, state = .inBlock start ∧ skipFrom state cs = start := by
  fun_induction skipFrom state cs with
  | case1 => exact Or.inl List.suffix_rfl
  | case2 => exact Or.inl List.suffix_rfl
  | case3 start => exact Or.inr ⟨start, rfl, rfl⟩
  | case4 rest ih =>
    obtain h | ⟨start, h, -⟩ := ih
    · exact Or.inl (h.trans ⟨['/', '/'], rfl⟩)
    · cases h
  | case5 rest ih =>
    obtain h | ⟨start, h, heq⟩ := ih
    · exact Or.inl (h.trans ⟨['/', '*'], rfl⟩)
    · cases h
      rw [heq]
      exact Or.inl List.suffix_rfl
  | case6 c rest _ _ _ ih =>
    obtain h | ⟨start, h, -⟩ := ih
    · exact Or.inl (h.trans (List.suffix_cons c rest))
    · cases h
  | case7 => exact Or.inl List.suffix_rfl
  | case8 c rest _ ih =>
    obtain h | ⟨start, h, -⟩ := ih
    · exact Or.inl (h.trans (List.suffix_cons c rest))
    · cases h
  | case9 c rest _ ih =>
    obtain h | ⟨start, h, -⟩ := ih
    · exact Or.inl (h.trans (List.suffix_cons c rest))
    · cases h
  | case10 start rest ih =>
    obtain h | ⟨start, h, -⟩ := ih
    · exact Or.inl (h.trans ⟨['*', '/'], rfl⟩)
    · cases h
  | case11 start c rest _ ih =>
    obtain h | h := ih
    · exact Or.inl (h.trans (List.suffix_cons c rest))
    · exact Or.inr h

theorem skip_suffix (cs : List Char) : skip cs <:+ cs := by
  obtain h | ⟨start, h, -⟩ := skipFrom_suffix .between cs
  · exact h
  · cases h

theorem isSpace_of_strict (h : Json.isSpace c = true) : isSpace c = true := by
  have hall : ∀ d ∈ [' ', '\t', '\n', '\r'], isSpace d = true :=
    forall_mem_of_all (by decide)
  exact hall c (by simpa [Json.isSpace, or_assoc] using h)

theorem skip_cons (hspace : isSpace c = false) (hstroke : c ≠ '/') (rest : List Char) :
    skip (c :: rest) = c :: rest := by
  rw [skip, skipFrom.eq_6 c rest (fun _ h => absurd h hstroke) (fun _ h => absurd h hstroke),
    if_neg (by simp [hspace])]

/-- States that differ at most in the text of a comment that is still open. -/
inductive SkipState.Like : SkipState → SkipState → Prop
  | between : Like .between .between
  | inLine : Like .inLine .inLine
  | inBlock {start start' : List Char} (h : start.head? = some '/') :
      Like (.inBlock start) (.inBlock start')

theorem skipFrom_append {state state' : SkipState} (hlike : state.Like state')
    (h : skipFrom state cs = c :: rest) (hc : c ≠ '/') (more : List Char) :
    skipFrom state' (cs ++ more) = c :: (rest ++ more) := by
  -- An open comment begins with a stroke, so it is not what the skip leaves.
  have hopen : ∀ {start : List Char}, start.head? = some '/' → start ≠ c :: rest := by
    rintro start hstart rfl
    exact hc (by simpa using hstart)
  fun_induction skipFrom state cs generalizing state' with
  | case1 => cases h
  | case2 => cases h
  | case3 start =>
    cases hlike with
    | inBlock hstart => exact absurd h (hopen hstart)
  | case4 tail ih =>
    cases hlike
    exact ih .inLine h
  | case5 tail ih =>
    cases hlike
    exact ih (.inBlock rfl) h
  | case6 d tail _ _ hspace ih =>
    cases hlike
    rw [List.cons_append, skipFrom_space hspace, ih .between h]
  | case7 d tail _ _ hspace =>
    cases hlike
    cases h
    exact skip_cons (Bool.eq_false_iff.mpr hspace) hc _
  | case8 d tail hline ih =>
    cases hlike
    rw [List.cons_append, skipFrom, if_pos hline, ih .between h]
  | case9 d tail hline ih =>
    cases hlike
    rw [List.cons_append, skipFrom, if_neg hline, ih .inLine h]
  | case10 start tail ih =>
    cases hlike
    exact ih .between h
  | case11 start d tail hclose ih =>
    cases hlike with
    | inBlock hstart =>
      cases tail with
      | nil => exact absurd h (hopen hstart)
      | cons e tail =>
        rw [List.cons_append, skipFrom.eq_9 _ _ _ ?_, ih (.inBlock hstart) h]
        rintro after rfl heq
        cases heq
        exact hclose _ rfl rfl

theorem skip_append (h : skip cs = c :: rest) (hc : c ≠ '/') (more : List Char) :
    skip (cs ++ more) = c :: (rest ++ more) :=
  skipFrom_append .between h hc more

/-- What is skipped begins with the end of a word. -/
theorem breaks_of_skip (h : skip cs = c :: rest) (hc : c ∈ breaks) : Breaks cs := by
  cases cs with
  | nil => cases h
  | cons d tail =>
    refine ⟨d, ?_, tail, rfl⟩
    by_cases hstroke : d = '/'
    · rw [hstroke]
      decide
    · cases hspace : isSpace d with
      | true => exact mem_breaks_of_isSpace hspace
      | false =>
        rw [skip_cons hspace hstroke] at h
        cases h
        exact hc

/-- What strict JSON skips is skipped. -/
theorem skip_blanks {blanks : List Char} (hblanks : ∀ d ∈ blanks, Json.isSpace d = true)
    (hspace : isSpace c = false) (hstroke : c ≠ '/') (rest : List Char) :
    skip (blanks ++ c :: rest) = c :: rest := by
  induction blanks with
  | nil => exact skip_cons hspace hstroke rest
  | cons d blanks ih =>
    rw [List.cons_append, skip, skipFrom_space (isSpace_of_strict (hblanks d List.mem_cons_self))]
    exact ih fun e he => hblanks e (List.mem_cons_of_mem d he)

/-- Without strokes there are no comments, and only blanks are skipped. -/
theorem isSpace_of_skip_eq_nil (hstroke : '/' ∉ cs) (h : skip cs = []) :
    ∀ c ∈ cs, isSpace c = true := by
  induction cs with
  | nil => simp
  | cons d tail ih =>
    rw [List.mem_cons, not_or] at hstroke
    cases hspace : isSpace d with
    | true =>
      rw [skip, skipFrom_space hspace] at h
      intro c hc
      rcases List.mem_cons.mp hc with rfl | hc
      · exact hspace
      · exact ih hstroke.2 h c hc
    | false =>
      rw [skip_cons hspace (Ne.symm hstroke.1)] at h
      cases h

end Skipping

end Json5

end ProcessChart

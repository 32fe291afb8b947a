/-!
White space in the sense of Unicode, and what is done with it: trimming both
ends of a text and cutting a text into words.
-/
namespace ProcessChart.Text

/-- The 25 characters with the Unicode property White_Space. -/
def isBlank (c : Char) : Bool :=
  let n := c.toNat
  (9 ≤ n && n ≤ 13) || n = 0x20 || n = 0x85 || n = 0xA0 || n = 0x1680 ||
  (0x2000 ≤ n && n ≤ 0x200A) || n = 0x2028 || n = 0x2029 || n = 0x202F ||
  n = 0x205F || n = 0x3000

def trimStart (cs : List Char) : List Char := cs.dropWhile isBlank

def trimEnd (cs : List Char) : List Char := (cs.reverse.dropWhile isBlank).reverse

def trim (cs : List Char) : List Char := trimEnd (trimStart cs)

/-- A text that neither begins nor ends with a blank is left as it is. -/
theorem trim_of_ends {first last : Char} {inner : List Char} (hfirst : isBlank first = false)
    (hlast : isBlank last = false) :
    trim (first :: (inner ++ [last])) = first :: (inner ++ [last]) := by
  have hstart : trimStart (first :: (inner ++ [last])) = first :: (inner ++ [last]) :=
    List.dropWhile_cons_of_neg (by simp [hfirst])
  have hreverse : (first :: (inner ++ [last])).reverse = last :: (inner.reverse ++ [first]) := by
    simp
  rw [trim, hstart, trimEnd, hreverse, List.dropWhile_cons_of_neg (by simp [hlast]), ← hreverse,
    List.reverse_reverse]

/-- The words after `current`, a word that may still go on. -/
def wordsFrom (current : List Char) : List Char → List (List Char)
  | [] => if current.isEmpty then [] else [current]
  | c :: rest =>
    if isBlank c then
      if current.isEmpty then wordsFrom [] rest else current :: wordsFrom [] rest
    else wordsFrom (current ++ [c]) rest

/-- The longest stretches without white space. -/
def words (cs : List Char) : List (List Char) := wordsFrom [] cs

theorem mem_wordsFrom {current cs w : List Char} (h : ∀ c ∈ current, isBlank c = false)
    (hw : w ∈ wordsFrom current cs) : w ≠ [] ∧ ∀ c ∈ w, isBlank c = false := by
  induction cs generalizing current with
  | nil =>
    cases current with
    | nil => simp [wordsFrom] at hw
    | cons a rest =>
      simp [wordsFrom] at hw
      exact ⟨by simp [hw], by rw [hw]; exact h⟩
  | cons c rest ih =>
    have hnil : ∀ x ∈ ([] : List Char), isBlank x = false := by simp
    by_cases hc : isBlank c = true
    · cases current with
      | nil =>
        simp [wordsFrom, hc] at hw
        exact ih hnil hw
      | cons a more =>
        simp [wordsFrom, hc] at hw
        rcases hw with rfl | hw
        · exact ⟨by simp, h⟩
        · exact ih hnil hw
    · simp [wordsFrom, hc] at hw
      refine ih ?_ hw
      intro x hx
      rcases List.mem_append.mp hx with hx | hx
      · exact h x hx
      · rw [List.mem_singleton.mp hx]
        exact Bool.eq_false_iff.mpr hc

/-- A word is not empty and has no white space in it. -/
theorem word_of_mem {cs w : List Char} (h : w ∈ words cs) :
    w ≠ [] ∧ ∀ c ∈ w, isBlank c = false :=
  mem_wordsFrom (by simp) h

theorem mem_of_mem_wordsFrom {current cs w : List Char} (hw : w ∈ wordsFrom current cs) :
    ∀ c ∈ w, c ∈ current ∨ c ∈ cs := by
  induction cs generalizing current with
  | nil =>
    by_cases hcurrent : current.isEmpty = true
    · simp [wordsFrom, hcurrent] at hw
    · simp [wordsFrom, hcurrent] at hw
      exact fun c hc => .inl (hw ▸ hc)
  | cons x rest ih =>
    have hlater : ∀ {other : List Char}, w ∈ wordsFrom other rest → (∀ c ∈ other, c ∈ current ∨ c = x) →
        ∀ c ∈ w, c ∈ current ∨ c ∈ x :: rest := by
      intro other hw hother c hc
      rcases ih hw c hc with hc | hc
      · rcases hother c hc with hc | rfl
        · exact .inl hc
        · exact .inr List.mem_cons_self
      · exact .inr (List.mem_cons_of_mem x hc)
    rw [wordsFrom] at hw
    split at hw
    · split at hw
      · exact hlater hw (by simp)
      · rcases List.mem_cons.mp hw with rfl | hw
        · exact fun c hc => .inl hc
        · exact hlater hw (by simp)
    · exact hlater hw (by simp)

/-- Words are cut out of the text. -/
theorem mem_of_mem_words {cs w : List Char} (h : w ∈ words cs) : ∀ c ∈ w, c ∈ cs := by
  intro c hc
  rcases mem_of_mem_wordsFrom h c hc with hc | hc
  · exact absurd hc List.not_mem_nil
  · exact hc

end ProcessChart.Text

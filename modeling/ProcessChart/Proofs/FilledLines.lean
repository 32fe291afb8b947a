import ProcessChart.Picture.Label

/-!
The lines of a label hold its words, all of them and in their order, and no other way of
breaking the words into lines needs fewer. Filling a line as far as it goes is never a
loss: of two lines that begin at the same word the longer one leaves a shorter rest, and
a shorter rest needs no more lines.
-/

namespace ProcessChart

namespace Text

theorem wordsFrom_eq_splitOnP (current cs : List Char) :
    wordsFrom current cs =
      ((cs.splitOnP isBlank).modifyHead (current ++ ·)).filter fun w => !w.isEmpty := by
  induction cs generalizing current with
  | nil => cases current <;> simp [wordsFrom]
  | cons c rest ih =>
    obtain ⟨first, others, hsplit⟩ : ∃ first others, rest.splitOnP isBlank = first :: others :=
      List.exists_cons_of_ne_nil (List.splitOnP_ne_nil isBlank rest)
    rw [wordsFrom, List.splitOnP_cons_eq_if_modifyHead]
    split
    · rw [ih, hsplit]
      cases current <;> simp
    · rw [ih, hsplit]
      simp

/-- The words of a text are what stands between its blanks. -/
theorem words_eq_splitOnP (cs : List Char) :
    words cs = (cs.splitOnP isBlank).filter fun w => !w.isEmpty := by
  obtain ⟨first, others, hsplit⟩ : ∃ first others, cs.splitOnP isBlank = first :: others :=
    List.exists_cons_of_ne_nil (List.splitOnP_ne_nil isBlank cs)
  rw [words, wordsFrom_eq_splitOnP, hsplit]
  rfl

theorem words_append_cons {c : Char} (hc : isBlank c = true) (front rest : List Char) :
    words (front ++ c :: rest) = words front ++ words rest := by
  rw [words_eq_splitOnP, List.splitOnP_append_cons front rest hc, List.filter_append,
    ← words_eq_splitOnP, ← words_eq_splitOnP]

theorem words_of_no_blank {word : List Char} (hne : word ≠ [])
    (h : ∀ c ∈ word, isBlank c = false) : words word = [word] := by
  rw [words_eq_splitOnP, List.splitOnP_eq_singleton h]
  simp [hne]

end Text

namespace Picture

/-- The words of a line, written with one space between each and the next. -/
def joined (line : List (List Char)) : List Char := [' '].intercalate line

/-- A line of one word may have any length. -/
def Fits (limit : Nat) (line : List (List Char)) : Prop :=
  line.length = 1 ∨ (joined line).length ≤ limit

instance (limit : Nat) (line : List (List Char)) : Decidable (Fits limit line) :=
  inferInstanceAs (Decidable (_ ∨ _))

/-- A way of breaking words into lines, each of which fits. -/
structure Breaking (limit : Nat) (words : List (List Char)) (lines : List (List (List Char))) :
    Prop where
  flatten : lines.flatten = words
  fits : ∀ line ∈ lines, Fits limit line

section Joined

variable {line more : List (List Char)} {word : List Char}

theorem joined_singleton (word : List Char) : joined [word] = word :=
  List.intercalate_singleton

theorem joined_cons (word : List Char) (h : line ≠ []) :
    joined (word :: line) = word ++ ' ' :: joined line := by
  rw [joined, List.intercalate_cons_of_ne_nil h, List.append_assoc, List.singleton_append, joined]

theorem joined_append (hline : line ≠ []) (hmore : more ≠ []) :
    joined (line ++ more) = joined line ++ ' ' :: joined more := by
  induction line with
  | nil => exact absurd rfl hline
  | cons word rest ih =>
    cases rest with
    | nil => rw [List.singleton_append, joined_cons word hmore, joined_singleton]
    | cons next rest =>
      rw [List.cons_append, joined_cons word (by simp), ih (List.cons_ne_nil next rest),
        joined_cons word (List.cons_ne_nil next rest), List.append_assoc, List.cons_append]

/-- The words of a written line are the words that were put on it. -/
theorem words_joined (h : ∀ word ∈ line, word ≠ [] ∧ ∀ c ∈ word, Text.isBlank c = false) :
    Text.words (joined line) = line := by
  induction line with
  | nil => rfl
  | cons word rest ih =>
    obtain ⟨⟨hne, hword⟩, hrest⟩ := List.forall_mem_cons.mp h
    cases rest with
    | nil => rw [joined_singleton, Text.words_of_no_blank hne hword]
    | cons next rest =>
      rw [joined_cons word (List.cons_ne_nil next rest), Text.words_append_cons (by decide),
        Text.words_of_no_blank hne hword, ih hrest, List.singleton_append]

theorem joined_ne_nil (hline : line ≠ []) (h : ∀ word ∈ line, word ≠ []) : joined line ≠ [] := by
  obtain ⟨word, rest, rfl⟩ := List.exists_cons_of_ne_nil hline
  cases rest with
  | nil =>
    rw [joined_singleton]
    exact h word List.mem_cons_self
  | cons next rest =>
    rw [joined_cons word (List.cons_ne_nil next rest)]
    simp

/-- No part of a line is longer than the line. -/
theorem length_joined_le (line more : List (List Char)) :
    (joined line).length ≤ (joined (line ++ more)).length ∧
      (joined more).length ≤ (joined (line ++ more)).length := by
  by_cases hline : line = []
  · simp [hline, joined]
  by_cases hmore : more = []
  · simp [hmore, joined]
  rw [joined_append hline hmore, List.length_append, List.length_cons]
  omega

theorem Fits.suffix {limit : Nat} (h : Fits limit line) (hmore : more ≠ [])
    (hsuffix : more <:+ line) : Fits limit more := by
  obtain ⟨front, rfl⟩ := hsuffix
  rcases h with hone | hlength
  · have hpos := List.length_pos_iff.mpr hmore
    rw [List.length_append] at hone
    exact .inl (by omega)
  · exact .inr (Nat.le_trans (length_joined_le front more).2 hlength)

end Joined

section Filling

variable {limit : Nat} {line : List (List Char)}

/-- A word that has room on a line makes a longer line that fits. -/
theorem room_iff (hline : line ≠ []) (word : List Char) :
    (joined line).length + word.length + 1 ≤ limit ↔ (joined (line ++ [word])).length ≤ limit := by
  rw [joined_append hline (List.cons_ne_nil word []), joined_singleton, List.length_append,
    List.length_cons, Nat.add_assoc]

theorem joined_concat (hline : line ≠ []) (word : List Char) :
    joined line ++ [' '] ++ word = joined (line ++ [word]) := by
  rw [joined_append hline (List.cons_ne_nil word []), joined_singleton, List.append_assoc,
    List.singleton_append]

/-- The lines that are filled are a breaking of the words, and none of them is empty. -/
theorem exists_breaking_fillFrom (hline : line ≠ []) (hfits : Fits limit line)
    (words : List (List Char)) :
    ∃ lines, fillFrom limit (joined line) words = lines.map joined ∧
      Breaking limit (line ++ words) lines ∧ [] ∉ lines := by
  induction words generalizing line with
  | nil =>
    exact ⟨[line], rfl, ⟨by simp, by simpa using hfits⟩, by simpa using hline⟩
  | cons word rest ih =>
    rw [fillFrom]
    split
    · next hroom =>
      obtain ⟨lines, hlines, hbreaking, hne⟩ :=
        ih (by simp) (.inr ((room_iff hline word).mp hroom))
      exact ⟨lines, joined_concat hline word ▸ hlines, by simpa using hbreaking, hne⟩
    · obtain ⟨lines, hlines, hbreaking, hne⟩ := ih (List.cons_ne_nil word []) (.inl rfl)
      rw [joined_singleton] at hlines
      refine ⟨line :: lines, by rw [hlines, List.map_cons], ⟨?_, ?_⟩, ?_⟩
      · rw [List.flatten_cons, hbreaking.flatten, List.singleton_append]
      · exact List.forall_mem_cons.mpr ⟨hfits, hbreaking.fits⟩
      · simpa using ⟨hline, hne⟩

theorem exists_breaking_fillLines (limit : Nat) (words : List (List Char)) :
    ∃ lines, fillLines limit words = lines.map joined ∧ Breaking limit words lines ∧
      [] ∉ lines := by
  cases words with
  | nil => exact ⟨[], rfl, ⟨rfl, by simp⟩, by simp⟩
  | cons word rest =>
    have hfits : Fits limit [word] := .inl rfl
    have h := exists_breaking_fillFrom (List.cons_ne_nil word []) hfits rest
    rwa [joined_singleton] at h

/-- A line that is begun is filled, and the words that are left are broken by themselves. -/
theorem exists_fillFrom_eq (limit : Nat) (line : List Char) (words : List (List Char)) :
    ∃ first rest, fillFrom limit line words = first :: fillLines limit rest ∧ rest <:+ words := by
  induction words generalizing line with
  | nil => exact ⟨line, [], rfl, List.nil_suffix⟩
  | cons word words ih =>
    rw [fillFrom]
    split
    · obtain ⟨first, rest, heq, hrest⟩ := ih (line ++ [' '] ++ word)
      exact ⟨first, rest, heq, hrest.trans (List.suffix_cons word words)⟩
    · exact ⟨line, word :: words, rfl, List.suffix_rfl⟩

/-- A line that is begun is filled at least as far as the words fit that follow it. -/
theorem exists_fillFrom_append {more : List (List Char)} (hline : line ≠ [])
    (hfits : Fits limit (line ++ more)) (words : List (List Char)) :
    ∃ first rest, fillFrom limit (joined line) (more ++ words) = first :: fillLines limit rest ∧
      rest <:+ words := by
  induction more generalizing line with
  | nil => exact exists_fillFrom_eq limit (joined line) words
  | cons word more ih =>
    rw [List.append_cons] at hfits
    have hlength : (joined (line ++ [word] ++ more)).length ≤ limit := by
      have hpos := List.length_pos_iff.mpr hline
      refine hfits.resolve_left fun hone => ?_
      simp only [List.length_append, List.length_singleton] at hone
      omega
    have hroom := (room_iff hline word).mpr (Nat.le_trans (length_joined_le _ more).1 hlength)
    rw [List.cons_append, fillFrom, if_pos hroom, joined_concat hline word]
    exact ih (by simp) hfits

/-- The words at the end of any lines that fit are filled into no more lines. -/
theorem length_fillLines_le {lines : List (List (List Char))} {words : List (List Char)}
    (hfits : ∀ line ∈ lines, Fits limit line) (h : words <:+ lines.flatten) :
    (fillLines limit words).length ≤ lines.length := by
  induction lines generalizing words with
  | nil =>
    obtain rfl : words = [] := List.suffix_nil.mp h
    exact Nat.le_refl 0
  | cons line lines ih =>
    obtain ⟨hline, hlines⟩ := List.forall_mem_cons.mp hfits
    rw [List.flatten_cons] at h
    rcases List.suffix_or_suffix_of_suffix h (List.suffix_append line lines.flatten) with h' | h'
    · exact Nat.le_succ_of_le (ih hlines h')
    · -- The words begin within `line`: all that is left of it goes on the first line.
      obtain ⟨front, rfl⟩ := h'
      cases front with
      | nil => exact Nat.le_succ_of_le (ih hlines List.suffix_rfl)
      | cons word front =>
        have hfront : word :: front <:+ line := List.suffix_append_self_iff.mp h
        have hfirst : Fits limit ([word] ++ front) :=
          hline.suffix (List.cons_ne_nil word front) hfront
        obtain ⟨first, rest, hfilled, hrest⟩ :=
          exists_fillFrom_append (List.cons_ne_nil word []) hfirst lines.flatten
        rw [joined_singleton] at hfilled
        rw [List.cons_append, fillLines, hfilled, List.length_cons, List.length_cons]
        exact Nat.succ_le_succ (ih hlines hrest)

end Filling

/-- A label is broken into lines of whole words, all of them and in their order. No line is
empty, and a line of several words is no longer than the limit. No other way of breaking the
words into lines that fit, a word alone being a line that fits, has fewer lines. -/
theorem wrap_fewest_lines (limit : Nat) (label : String) :
    Text.words label.toList =
      (label.toList.splitOnP Text.isBlank).filter (fun word => !word.isEmpty) ∧
    (wrap limit label).flatMap (fun line => Text.words line.toList) = Text.words label.toList ∧
    (∀ line ∈ wrap limit label, line ≠ "" ∧ line.toList = joined (Text.words line.toList) ∧
      (2 ≤ (Text.words line.toList).length → line.length ≤ limit)) ∧
    ∀ lines, Breaking limit (Text.words label.toList) lines →
      (wrap limit label).length ≤ lines.length := by
  refine ⟨Text.words_eq_splitOnP label.toList, ?_⟩
  obtain ⟨lines, hfilled, hbreaking, hne⟩ :=
    exists_breaking_fillLines limit (Text.words label.toList)
  have hword : ∀ line ∈ lines, ∀ word ∈ line, word ≠ [] ∧ ∀ c ∈ word, Text.isBlank c = false := by
    intro line hline word hmem
    apply @Text.word_of_mem label.toList
    rw [← hbreaking.flatten]
    exact List.mem_flatten.mpr ⟨line, hline, hmem⟩
  have hwords : ∀ line ∈ lines, Text.words (joined line) = line :=
    fun line hline => words_joined (hword line hline)
  refine ⟨?_, fun written hmem => ?_, fun other hother => ?_⟩
  · have hread : lines.map (fun line => Text.words (joined line)) = lines :=
      (List.map_congr_left hwords).trans (List.map_id lines)
    simp only [wrap, hfilled, List.map_map, List.flatMap_map, Function.comp_apply,
      String.toList_ofList]
    rw [List.flatMap_def, hread, hbreaking.flatten]
  · rw [wrap, hfilled, List.map_map] at hmem
    obtain ⟨line, hline, rfl⟩ := List.mem_map.mp hmem
    rw [Function.comp_apply, String.toList_ofList, hwords line hline]
    refine ⟨?_, rfl, fun htwo => ?_⟩
    · rw [Ne, ← String.toList_eq_nil_iff, String.toList_ofList]
      exact joined_ne_nil (ne_of_mem_of_not_mem hline hne) fun word hmem =>
        (hword line hline word hmem).1
    · rw [String.length_ofList]
      exact (hbreaking.fits line hline).resolve_left (by omega)
  · rw [wrap, List.length_map]
    exact length_fillLines_le hother.fits (hother.flatten ▸ List.suffix_rfl)

theorem wrap_four_words :
    Breaking 9 (Text.words "one two three four".toList)
      [["one".toList, "two".toList], ["three".toList], ["four".toList]] ∧
    (wrap 9 "one two three four").length ≤ 3 := by
  have hbreaking : Breaking 9 (Text.words "one two three four".toList)
      [["one".toList, "two".toList], ["three".toList], ["four".toList]] :=
    ⟨by decide, by decide⟩
  exact ⟨hbreaking, (wrap_fewest_lines 9 "one two three four").2.2.2 _ hbreaking⟩

end Picture

end ProcessChart

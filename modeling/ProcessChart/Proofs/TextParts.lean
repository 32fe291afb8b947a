import ProcessChart.Text.Fence
import Mathlib.Data.List.DropRight
import Mathlib.Data.List.Infix

/-!
What stands inside other text. Trimming reaches only up to the first and from
the last character that is no blank. The first fence of a text is found where it
was put when the text before it neither holds a fence nor ends in a character
that could be part of one, and the outer braces are found where no other braces
stand around them.
-/

namespace ProcessChart.Text

section Blanks

variable {cs : List Char}

theorem trimStart_append_cons {c : Char} (hc : isBlank c = false) (front rest : List Char) :
    trimStart (front ++ c :: rest) = trimStart front ++ c :: rest := by
  rw [trimStart, List.dropWhile_append]
  split
  · next hblank =>
    rw [List.dropWhile_cons_of_neg (by simp [hc]), trimStart, List.isEmpty_iff.mp hblank]
    rfl
  · rfl

theorem trimEnd_append_cons {c : Char} (hc : isBlank c = false) (front rest : List Char) :
    trimEnd (front ++ c :: rest) = front ++ c :: trimEnd rest := by
  have hreverse : (front ++ c :: rest).reverse = rest.reverse ++ c :: front.reverse := by simp
  have hstart := trimStart_append_cons hc rest.reverse front.reverse
  rw [trimStart, ← hreverse] at hstart
  rw [trimEnd, hstart, trimEnd, trimStart]
  simp

/-- Trimming leaves a stretch between two characters that are no blanks as it is. -/
theorem trim_around {first last : Char} (hfirst : isBlank first = false)
    (hlast : isBlank last = false) (front inner rest : List Char) :
    trim (front ++ (first :: (inner ++ [last])) ++ rest) =
      trimStart front ++ (first :: (inner ++ [last])) ++ trimEnd rest := by
  have hstart := trimStart_append_cons hfirst front (inner ++ last :: rest)
  have hend := trimEnd_append_cons hlast (trimStart front ++ first :: inner) rest
  have hwhole : front ++ (first :: (inner ++ [last])) ++ rest =
      front ++ first :: (inner ++ last :: rest) := by simp
  rw [trim, hwhole, hstart]
  simpa using hend

theorem trimStart_eq_of_trim_eq (h : trim cs = cs) : trimStart cs = cs := by
  have hsuffix : trimStart cs <:+ cs := List.dropWhile_suffix isBlank
  apply hsuffix.eq_of_length_le
  have hle : (trim cs).length ≤ (trimStart cs).length := by
    have hdrop := (List.dropWhile_suffix isBlank (l := (trimStart cs).reverse)).length_le
    simpa [trim, trimEnd] using hdrop
  rwa [h] at hle

theorem trimEnd_eq_of_trim_eq (h : trim cs = cs) : trimEnd cs = cs := by
  rwa [trim, trimStart_eq_of_trim_eq h] at h

theorem isBlank_head_of_trimStart_eq {c : Char} {rest : List Char}
    (h : trimStart (c :: rest) = c :: rest) : isBlank c = false := by
  rw [← Bool.not_eq_true]
  intro hblank
  rw [trimStart, List.dropWhile_cons_of_pos hblank] at h
  have hlength := (List.dropWhile_suffix isBlank (l := rest)).length_le
  rw [h, List.length_cons] at hlength
  omega

theorem isBlank_head_of_trimStart {c : Char} (h : c ∈ (trimStart cs).head?) :
    isBlank c = false := by
  obtain ⟨rest, hrest⟩ := List.head?_eq_some_iff.mp h
  have hfix : trimStart (c :: rest) = c :: rest := by
    rw [← hrest]
    exact List.dropWhile_idempotent ..
  exact isBlank_head_of_trimStart_eq hfix

theorem suffix_trimStart (cs : List Char) : trimStart cs <:+ cs :=
  List.dropWhile_suffix isBlank

theorem prefix_trimEnd (cs : List Char) : trimEnd cs <+: cs :=
  List.reverse_suffix.mp (by simpa [trimEnd] using List.dropWhile_suffix isBlank)

theorem trim_infix (cs : List Char) : trim cs <:+: cs :=
  (prefix_trimEnd _).isInfix.trans (suffix_trimStart cs).isInfix

theorem isBlank_last_of_trimEnd {front : List Char} {c : Char} (h : trimEnd cs = front ++ [c]) :
    isBlank c = false := by
  have hhead : c ∈ (trimStart cs.reverse).head? := by
    rw [trimStart, ← List.reverse_reverse (cs.reverse.dropWhile isBlank), ← trimEnd, h]
    simp
  exact isBlank_head_of_trimStart hhead

end Blanks

section Fences

variable {mark front rest cs : List Char}

theorem after?_eq_none (h : ¬mark <:+: cs) : after? mark cs = none := by
  induction cs with
  | nil => rfl
  | cons c cs ih =>
    rw [after?, if_neg, ih fun hin => h (hin.trans (List.suffix_cons c cs).isInfix)]
    exact fun hprefix => h (List.isPrefixOf_iff_prefix.mp hprefix).isInfix

/-- A text is plain when it holds no fence and does not end in a character of one. -/
structure Plain (cs : List Char) : Prop where
  unfenced : ¬fence <:+: cs
  closed : cs.getLast? ≠ some '\x60'

theorem Plain.tail {c : Char} (h : Plain (c :: cs)) : Plain cs := by
  refine ⟨fun hin => h.unfenced (hin.trans (List.suffix_cons c cs).isInfix), fun hlast => ?_⟩
  cases cs with
  | nil => simp at hlast
  | cons d more => exact h.closed (by rwa [List.getLast?_cons_cons])

theorem Plain.suffix {rest : List Char} (h : Plain cs) (hsuffix : rest <:+ cs) : Plain rest := by
  obtain ⟨front, rfl⟩ := hsuffix
  induction front with
  | nil => exact h
  | cons c front ih => exact ih h.tail

/-- A fence does not begin in a plain text. -/
theorem Plain.not_fence_prefix {c : Char} (h : Plain (c :: cs)) (rest : List Char) :
    ¬fence.isPrefixOf (c :: (cs ++ (fence ++ rest))) = true := by
  intro hprefix
  match cs with
  | [] =>
    obtain rfl : '\x60' = c := by simpa [fence] using hprefix
    exact h.closed rfl
  | [d] =>
    obtain ⟨-, rfl⟩ : '\x60' = c ∧ '\x60' = d := by simpa [fence] using hprefix
    exact h.closed rfl
  | d :: e :: more =>
    obtain ⟨rfl, rfl, rfl⟩ : '\x60' = c ∧ '\x60' = d ∧ '\x60' = e := by
      simpa [fence] using hprefix
    exact h.unfenced (List.IsPrefix.isInfix ⟨more, rfl⟩)

theorem after?_fence (h : Plain front) : after? fence (front ++ (fence ++ rest)) = some rest := by
  induction front with
  | nil => rfl
  | cons c front ih => rw [List.cons_append, after?, if_neg (h.not_fence_prefix rest), ih h.tail]

theorem before?_fence (h : Plain front) :
    before? fence (front ++ (fence ++ rest)) = some front := by
  induction front with
  | nil => rfl
  | cons c front ih =>
    rw [List.cons_append, before?, if_neg (h.not_fence_prefix rest), ih h.tail]
    rfl

theorem Plain.line {content : List Char} (h : ¬fence <:+: content) : Plain (content ++ ['\n']) := by
  refine ⟨fun hin => ?_, by simp⟩
  rcases List.infix_concat_iff.mp hin with hsuffix | hin
  · obtain ⟨before, heq⟩ := hsuffix
    simpa [fence] using congrArg List.getLast? heq
  · exact h hin

/-- A tagged block with a line for each fence gives what stands between, whatever follows it. -/
theorem fenced?_block {content : List Char} (hfront : Plain front) (hne : content ≠ [])
    (htrim : trim content = content) (hcontent : ¬fence <:+: content) (rest : List Char) :
    fenced? (front ++ (fence ++ ("json\n".toList ++ (content ++ ('\n' :: (fence ++ rest)))))) =
      some content := by
  have htag : dropTag ("json\n".toList ++ (content ++ ('\n' :: (fence ++ rest)))) =
      '\n' :: (content ++ ('\n' :: (fence ++ rest))) := rfl
  have hstart : trimStart ('\n' :: (content ++ ('\n' :: (fence ++ rest)))) =
      (content ++ ['\n']) ++ (fence ++ rest) := by
    obtain ⟨c, more, rfl⟩ := List.exists_cons_of_ne_nil hne
    have hc := isBlank_head_of_trimStart_eq (trimStart_eq_of_trim_eq htrim)
    have hnewLine := trimStart_append_cons hc ['\n'] (more ++ ('\n' :: (fence ++ rest)))
    have hblank : trimStart ['\n'] = [] := rfl
    rw [hblank] at hnewLine
    simpa using hnewLine
  have hend : trimEnd (content ++ ['\n']) = content := by
    have hcontent := trimEnd_eq_of_trim_eq htrim
    rw [trimEnd] at hcontent ⊢
    rwa [List.reverse_concat, List.dropWhile_cons_of_pos (by decide)]
  rw [fenced?, after?_fence hfront]
  simp only [Option.bind_eq_bind, Option.bind_some, htag, hstart, before?_fence (.line hcontent),
    hend]
  rfl

theorem fenced?_eq_none (h : ¬fence <:+: cs) : fenced? cs = none := by
  rw [fenced?, after?_eq_none h]
  rfl

end Fences

section Braces

/-- The outer braces of a text are those of the only stretch that has any. -/
theorem braced?_around {front inner rest : List Char} (hfront : '\x7b' ∉ front)
    (hrest : '\x7d' ∉ rest) :
    braced? (front ++ ('\x7b' :: (inner ++ ['\x7d'])) ++ rest) =
      some ('\x7b' :: (inner ++ ['\x7d'])) := by
  have hopened : (front ++ ('\x7b' :: (inner ++ ['\x7d'])) ++ rest).dropWhile (· ≠ '\x7b') =
      '\x7b' :: (inner ++ ['\x7d']) ++ rest := by
    rw [List.append_assoc, List.dropWhile_append_of_pos fun c hc => ?_]
    · exact List.dropWhile_cons_of_neg (by simp)
    · exact decide_eq_true fun heq => hfront (heq ▸ hc)
  have hkept : (('\x7b' :: (inner ++ ['\x7d']) ++ rest).reverse).dropWhile (· ≠ '\x7d') =
      ('\x7b' :: (inner ++ ['\x7d'])).reverse := by
    rw [List.reverse_append, List.dropWhile_append_of_pos fun c hc => ?_]
    · rw [← List.cons_append, List.reverse_concat]
      exact List.dropWhile_cons_of_neg (by simp)
    · exact decide_eq_true fun heq => hrest (heq ▸ List.mem_reverse.mp hc)
  simp only [braced?, hopened, hkept, List.reverse_reverse]
  rfl

end Braces

end ProcessChart.Text

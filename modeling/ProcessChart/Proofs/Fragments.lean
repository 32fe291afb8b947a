import ProcessChart.Draft.Steps
import ProcessChart.Proofs.TextParts
import Mathlib.Data.List.SplitBy

/-!
The steps of a description are its fragments, trimmed, and each run of fragments that
are equal up to upper and lower case counts as its first. A text is cut into fragments
in one way only: no delimiter begins as another one ends, so the first delimiter after
a fragment is the one that ends it. Steps that are joined again with semicolons are cut
where they were joined.
-/

namespace ProcessChart.Draft

/-- What stands between a fragment and the next. -/
def delimiters : List (List Char) := [['\n'], ['.'], [';'], ['-', '>']]

def Undelimited (f : List Char) : Prop := ∀ d ∈ delimiters, ¬d <:+: f

instance (f : List Char) : Decidable (Undelimited f) :=
  inferInstanceAs (Decidable (∀ d ∈ delimiters, ¬d <:+: f))

/-- The text is the fragments with a delimiter after each but the last, and no fragment has a
delimiter in it. -/
inductive IsCut : List Char → List (List Char) → Prop
  | last {f : List Char} (hf : Undelimited f) : IsCut f [f]
  | next {f d rest : List Char} {fs : List (List Char)} (hf : Undelimited f)
      (hd : d ∈ delimiters) (hrest : IsCut rest fs) : IsCut (f ++ (d ++ rest)) (f :: fs)

/-- A step neither begins nor ends with a blank, and no delimiter is in it. -/
structure IsStep (f : List Char) : Prop where
  first : ∃ c, f.head? = some c ∧ Text.isBlank c = false
  last : ∃ c, f.getLast? = some c ∧ Text.isBlank c = false
  undelimited : Undelimited f

section Cuts

variable {text f current rest d : List Char} {fs : List (List Char)} {c : Char}

theorem Undelimited.mono {g : List Char} (h : Undelimited f) (hg : g <:+: f) :
    Undelimited g :=
  fun d hd hin => h d hd (hin.trans hg)

theorem undelimited_cons_iff :
    Undelimited (c :: f) ↔ (∀ d ∈ delimiters, ¬d <+: c :: f) ∧ Undelimited f := by
  simp only [Undelimited, List.infix_cons_iff, not_or]
  exact forall₂_and

theorem mem_delimiters_iff :
    d ∈ delimiters ↔ d = ['\n'] ∨ d = ['.'] ∨ d = [';'] ∨ d = ['-', '>'] := by
  simp [delimiters]

/-- Where no delimiter begins, the character belongs to the fragment. -/
theorem cutFrom_cons (h : ∀ d ∈ delimiters, ¬d <+: c :: rest) :
    cutFrom current (c :: rest) = cutFrom (current ++ [c]) rest := by
  have hsingle : ∀ x, [x] ∈ delimiters → c ≠ x := by
    rintro x hx rfl
    exact h [c] hx ⟨rest, rfl⟩
  have hends : ¬(c = '\n' || c = '.' || c = ';') = true := by
    simp [hsingle '\n' (by decide), hsingle '.' (by decide), hsingle ';' (by decide)]
  rw [cutFrom, if_neg hends]
  rintro more rfl rfl
  exact h ['-', '>'] (by decide) ⟨more, rfl⟩

theorem cutFrom_delimiter (hd : d ∈ delimiters) :
    cutFrom current (d ++ rest) = current :: cut rest := by
  rcases mem_delimiters_iff.mp hd with rfl | rfl | rfl | rfl <;> rfl

/-- No delimiter begins in a fragment and ends behind it. -/
theorem not_prefix_of_undelimited (hf : ∀ d ∈ delimiters, ¬d <+: c :: f) (hd : d ∈ delimiters) :
    ∀ e ∈ delimiters, ¬e <+: c :: (f ++ (d ++ rest)) := by
  intro e he hfront
  have hone : ∀ x, [x] ∈ delimiters → ¬[x] <+: c :: (f ++ (d ++ rest)) := by
    intro x hx hfront
    apply hf [x] hx
    simpa using hfront
  rcases mem_delimiters_iff.mp he with rfl | rfl | rfl | rfl
  · exact hone _ he hfront
  · exact hone _ he hfront
  · exact hone _ he hfront
  · cases f with
    | nil => rcases mem_delimiters_iff.mp hd with rfl | rfl | rfl | rfl <;> simp at hfront
    | cons x f =>
      apply hf ['-', '>'] he
      simpa using hfront

theorem cutFrom_fragment (hf : Undelimited f) (hd : d ∈ delimiters) :
    cutFrom current (f ++ (d ++ rest)) = (current ++ f) :: cut rest := by
  induction f generalizing current with
  | nil => rw [List.nil_append, List.append_nil, cutFrom_delimiter hd]
  | cons c f ih =>
    obtain ⟨hfirst, hf⟩ := undelimited_cons_iff.mp hf
    rw [List.cons_append, cutFrom_cons (not_prefix_of_undelimited hfirst hd), ih hf,
      List.append_assoc, List.singleton_append]

theorem cutFrom_last (hf : Undelimited f) : cutFrom current f = [current ++ f] := by
  induction f generalizing current with
  | nil => rw [cutFrom, List.append_nil]
  | cons c f ih =>
    obtain ⟨hfirst, hf⟩ := undelimited_cons_iff.mp hf
    rw [cutFrom_cons hfirst, ih hf, List.append_assoc, List.singleton_append]

theorem IsCut.eq_cut (h : IsCut text fs) : fs = cut text := by
  induction h with
  | last hf => rw [cut, cutFrom_last hf, List.nil_append]
  | next hf hd _ ih => rw [cut, cutFrom_fragment hf hd, ih, List.nil_append]

theorem IsCut.undelimited (h : IsCut text fs) : ∀ f ∈ fs, Undelimited f := by
  induction h with
  | last hf => simpa using hf
  | next hf _ _ ih => exact List.forall_mem_cons.mpr ⟨hf, ih⟩

theorem undelimited_nil : Undelimited [] := by decide

/-- A character with which no delimiter begins joins the first fragment of what follows it. -/
theorem IsCut.cons (h : IsCut rest fs) (hc : ∀ d ∈ delimiters, ¬d <+: c :: rest) :
    ∃ fs, IsCut (c :: rest) fs := by
  have hfirst : ∀ f, f <+: rest → ∀ d ∈ delimiters, ¬d <+: c :: f :=
    fun f hf d hd hfront => hc d hd (hfront.trans (List.prefix_cons_inj c |>.mpr hf))
  cases h with
  | last hf => exact ⟨_, .last (undelimited_cons_iff.mpr ⟨hfirst _ List.prefix_rfl, hf⟩)⟩
  | next hf hd hrest =>
    exact ⟨_, .next (undelimited_cons_iff.mpr ⟨hfirst _ (List.prefix_append _ _), hf⟩) hd hrest⟩

theorem exists_isCut (text : List Char) : ∃ fs, IsCut text fs := by
  induction h : text.length using Nat.strongRecOn generalizing text with
  | _ n ih =>
    subst h
    by_cases hd : ∃ d ∈ delimiters, d <+: text
    · obtain ⟨d, hd, rest, rfl⟩ := hd
      have hpos : 0 < d.length := by
        rcases mem_delimiters_iff.mp hd with rfl | rfl | rfl | rfl <;> decide
      obtain ⟨fs, hfs⟩ := ih rest.length (by simp; omega) rest rfl
      exact ⟨[] :: fs, .next undelimited_nil hd hfs⟩
    · cases text with
      | nil => exact ⟨[[]], .last undelimited_nil⟩
      | cons c rest =>
        obtain ⟨fs, hfs⟩ := ih rest.length (by simp) rest rfl
        exact hfs.cons fun d hd' hfront => hd ⟨d, hd', hfront⟩

/-- A text is cut into fragments in one way. -/
theorem isCut_iff : IsCut text fs ↔ fs = cut text := by
  refine ⟨IsCut.eq_cut, ?_⟩
  rintro rfl
  obtain ⟨fs, hfs⟩ := exists_isCut text
  rwa [← hfs.eq_cut]

/-- Fragments that are joined with semicolons are cut where they were joined. -/
theorem isCut_intercalate (hne : fs ≠ []) (h : ∀ f ∈ fs, Undelimited f) :
    IsCut ([';'].intercalate fs) fs := by
  induction fs with
  | nil => exact absurd rfl hne
  | cons f fs ih =>
    obtain ⟨hf, hfs⟩ := List.forall_mem_cons.mp h
    cases fs with
    | nil => simpa using IsCut.last hf
    | cons g fs =>
      rw [List.intercalate_cons_cons, List.append_assoc]
      exact .next hf (by decide) (ih (List.cons_ne_nil g fs) hfs)

end Cuts

section Runs

variable {f g : List Char} {fs run : List (List Char)}

theorem sameStep_iff : sameStep f g = true ↔ Text.lower f = Text.lower g := by
  simp [sameStep]

/-- A run is a fragment and others that are equal to it up to upper and lower case. -/
structure IsRun (f : List Char) (run : List (List Char)) : Prop where
  first : run.head? = some f
  same : ∀ g ∈ run, Text.lower g = Text.lower f

theorem IsRun.single (f : List Char) : IsRun f [f] := ⟨rfl, by simp⟩

theorem IsRun.concat (h : IsRun f run) (hg : Text.lower g = Text.lower f) :
    IsRun f (run ++ [g]) where
  first := by rw [List.head?_append, h.first, Option.some_or]
  same := by
    intro x hx
    rcases List.mem_append.mp hx with hx | hx
    · exact h.same x hx
    · rw [List.mem_singleton.mp hx, hg]

theorem IsRun.splitBy (h : IsRun f run) : run.splitBy sameStep = [run] := by
  apply List.splitBy_of_isChain
  · rintro rfl
    exact absurd h.first (by simp)
  · apply List.Pairwise.isChain
    apply List.pairwise_of_forall_mem_list
    intro x hx y hy
    rw [sameStep_iff, h.same x hx, h.same y hy]

/-- What is kept after a step is the first of each run that begins behind its own. -/
theorem IsRun.heads_append (h : IsRun f run) (fs : List (List Char)) :
    ((run ++ fs).splitBy sameStep).filterMap List.head? = f :: withoutRepeats (some f) fs := by
  induction fs generalizing f run with
  | nil => rw [List.append_nil, h.splitBy, List.filterMap_cons_some h.first]; rfl
  | cons g fs ih =>
    by_cases hg : Text.lower g = Text.lower f
    · have hskip : withoutRepeats (some f) (g :: fs) = withoutRepeats (some f) fs := by
        simp [withoutRepeats, sameStep, hg]
      rw [List.append_cons, ih (h.concat hg), hskip]
    · have hkeep : withoutRepeats (some f) (g :: fs) = g :: withoutRepeats (some g) fs := by
        simp [withoutRepeats, sameStep, Ne.symm hg]
      have hbreak : ∀ x ∈ run.getLast?, sameStep x g = false := by
        intro x hx
        rw [← Bool.not_eq_true, sameStep_iff, h.same x (List.mem_of_mem_getLast? hx)]
        exact Ne.symm hg
      rw [List.splitBy_append_cons fs hbreak, h.splitBy, hkeep, List.singleton_append,
        List.filterMap_cons_some h.first]
      exact congrArg (f :: ·) (ih (IsRun.single g))

theorem withoutRepeats_eq_heads (fs : List (List Char)) :
    withoutRepeats none fs = (fs.splitBy sameStep).filterMap List.head? := by
  cases fs with
  | nil => rfl
  | cons f fs => exact ((IsRun.single f).heads_append fs).symm

theorem mem_of_mem_withoutRepeats {last? : Option (List Char)}
    (h : f ∈ withoutRepeats last? fs) : f ∈ fs := by
  induction fs generalizing last? with
  | nil => simp [withoutRepeats] at h
  | cons g fs ih =>
    rw [withoutRepeats] at h
    split at h
    · exact List.mem_cons_of_mem g (ih h)
    · rcases List.mem_cons.mp h with rfl | h
      · exact List.mem_cons_self
      · exact List.mem_cons_of_mem g (ih h)

/-- Neighbours differ in more than upper and lower case. -/
def Differ (fs : List (List Char)) : Prop := fs.IsChain fun f g => Text.lower f ≠ Text.lower g

theorem differ_withoutRepeats (f : List Char) (fs : List (List Char)) :
    Differ (f :: withoutRepeats (some f) fs) := by
  induction fs generalizing f with
  | nil => exact List.isChain_singleton f
  | cons g fs ih =>
    rw [withoutRepeats]
    split
    · exact ih f
    · next h =>
      refine List.isChain_cons_cons.mpr ⟨?_, ih g⟩
      simpa [sameStep] using h

theorem withoutRepeats_of_differ (h : Differ fs) : withoutRepeats none fs = fs := by
  have hrest : ∀ {f fs}, Differ (f :: fs) → withoutRepeats (some f) fs = fs := by
    intro f fs h
    induction fs generalizing f with
    | nil => rfl
    | cons g fs ih =>
      obtain ⟨hne, hfs⟩ := List.isChain_cons_cons.mp h
      rw [withoutRepeats, if_neg (by simpa [sameStep] using hne), ih hfs]
  cases fs with
  | nil => rfl
  | cons f fs => exact congrArg (f :: ·) (hrest h)

end Runs

section Steps

variable {text : String} {f : List Char}

theorem isStep_of_mem_fragments {text : List Char} (h : f ∈ fragments text) : IsStep f := by
  obtain ⟨htrim, hne⟩ := List.mem_filter.mp h
  obtain ⟨piece, hpiece, rfl⟩ := List.mem_map.mp htrim
  have hundelimited : Undelimited piece := (isCut_iff.mpr rfl).undelimited piece hpiece
  have hnil : Text.trim piece ≠ [] := by simpa using hne
  refine ⟨?_, ?_, hundelimited.mono (Text.trim_infix piece)⟩
  · obtain ⟨c, rest, hcons⟩ := List.exists_cons_of_ne_nil hnil
    obtain ⟨more, hstart⟩ := Text.prefix_trimEnd (Text.trimStart piece)
    refine ⟨c, by rw [hcons, List.head?_cons], ?_⟩
    apply @Text.isBlank_head_of_trimStart piece
    rw [← hstart, ← Text.trim, hcons]
    rfl
  · obtain ⟨front, c, hlast⟩ := (List.eq_nil_or_concat' (Text.trim piece)).resolve_left hnil
    exact ⟨c, by rw [hlast, List.getLast?_concat], Text.isBlank_last_of_trimEnd hlast⟩

theorem IsStep.trim_eq (h : IsStep f) : Text.trim f = f := by
  obtain ⟨c, hfirst, hc⟩ := h.first
  obtain ⟨e, hlast, he⟩ := h.last
  obtain ⟨rest, hf⟩ := List.head?_eq_some_iff.mp hfirst
  obtain ⟨front, hf'⟩ := List.getLast?_eq_some_iff.mp hlast
  have hstart : Text.trimStart f = f := by
    have hcut := Text.trimStart_append_cons hc [] rest
    rwa [List.nil_append, ← hf] at hcut
  have hend : Text.trimEnd f = f := by
    have hcut := Text.trimEnd_append_cons he front []
    rwa [← hf', show Text.trimEnd [] = [] from rfl, ← hf'] at hcut
  rw [Text.trim, hstart, hend]

theorem fragments_eq {text : List Char} {fs : List (List Char)} (hcut : IsCut text fs)
    (h : ∀ f ∈ fs, IsStep f) : fragments text = fs := by
  have htrim : fs.map Text.trim = fs :=
    (List.map_congr_left fun f hf => (h f hf).trim_eq).trans (List.map_id fs)
  rw [fragments, ← hcut.eq_cut, htrim, List.filter_eq_self]
  intro f hf
  obtain ⟨c, hc, -⟩ := (h f hf).first
  cases f <;> simp at hc ⊢

theorem isStep_standardSteps : ∀ s ∈ standardSteps, IsStep s.toList := by
  simp only [standardSteps, List.forall_mem_cons]
  refine ⟨⟨⟨'P', rfl, by decide⟩, ⟨'n', rfl, by decide⟩, by decide⟩,
    ⟨⟨'S', rfl, by decide⟩, ⟨'n', rfl, by decide⟩, by decide⟩,
    ⟨⟨'P', rfl, by decide⟩, ⟨'n', rfl, by decide⟩, by decide⟩, by simp⟩

theorem differ_standardSteps : Differ (standardSteps.map String.toList) :=
  List.isChain_cons_cons.mpr ⟨by decide, List.isChain_cons_cons.mpr ⟨by decide, .singleton _⟩⟩

theorem isStep_of_mem_steps {s : String} (h : s ∈ steps text) : IsStep s.toList := by
  rw [steps] at h
  split at h
  · exact isStep_standardSteps s h
  · obtain ⟨f, hf, rfl⟩ := List.mem_map.mp h
    rw [String.toList_ofList]
    exact isStep_of_mem_fragments (mem_of_mem_withoutRepeats hf)

theorem differ_steps (text : String) : Differ ((steps text).map String.toList) := by
  rw [steps]
  split
  · exact differ_standardSteps
  · rw [List.map_map, String.toList_comp_ofList, List.map_id]
    cases fragments text.toList with
    | nil => exact List.isChain_nil
    | cons f fs => exact differ_withoutRepeats f fs

/-- Steps that differ from their neighbours are the steps of their text with semicolons. -/
theorem steps_intercalate {found : List String} (hne : found ≠ [])
    (hstep : ∀ s ∈ found, IsStep s.toList) (hdiffer : Differ (found.map String.toList)) :
    steps (";".intercalate found) = found := by
  have hsteps : ∀ f ∈ found.map String.toList, IsStep f := List.forall_mem_map.mpr hstep
  have hcut : IsCut (";".intercalate found).toList (found.map String.toList) := by
    rw [String.toList_intercalate]
    exact isCut_intercalate (by simpa using hne) fun f hf => (hsteps f hf).undelimited
  rw [steps, fragments_eq hcut hsteps, withoutRepeats_of_differ hdiffer]
  simp [hne, Function.comp_def]

end Steps

/-- The fragments that are not blank, without the blanks around them. -/
def trimmed (pieces : List (List Char)) : List (List Char) :=
  (pieces.map Text.trim).filter fun f => !f.isEmpty

/-- A text is cut at its delimiters in one way. Its steps are the trimmed fragments that are
not blank, the first of each run of neighbours that are equal in lower case, or the standard
steps if all fragments are blank. No step begins or ends with a blank or has a delimiter in
it, neighbours differ in lower case, and the steps of all steps joined with semicolons are
the steps themselves. -/
theorem steps_of_fragments (text : String) :
    (∃ pieces, (∀ other, IsCut text.toList other ↔ other = pieces) ∧
      steps text =
        if trimmed pieces = [] then standardSteps
        else (((trimmed pieces).splitBy fun f g => Text.lower f = Text.lower g).filterMap
          List.head?).map String.ofList) ∧
    (∀ s ∈ steps text, IsStep s.toList) ∧
    Differ ((steps text).map String.toList) ∧
    steps (";".intercalate (steps text)) = steps text := by
  refine ⟨⟨cut text.toList, fun other => isCut_iff, ?_⟩, fun s hs => isStep_of_mem_steps hs,
    differ_steps text, ?_⟩
  · have hfragments : trimmed (cut text.toList) = fragments text.toList := rfl
    have hsame : (fun f g => decide (Text.lower f = Text.lower g)) = sameStep := rfl
    have hempty : (withoutRepeats none (fragments text.toList)).isEmpty = true ↔
        fragments text.toList = [] := by
      cases fragments text.toList <;> simp [withoutRepeats]
    rw [hfragments, steps, hsame, ← withoutRepeats_eq_heads]
    simp only [hempty]
  · exact steps_intercalate (steps_ne_nil text) (fun s hs => isStep_of_mem_steps hs)
      (differ_steps text)

example : steps "Check; check ; CHECK. Ship-> Check" = ["Check", "Ship", "Check"] := by decide

end ProcessChart.Draft

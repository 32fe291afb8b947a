import ProcessChart.Proofs.Admission
import ProcessChart.Proofs.WellFormed

/-!
What a reader of markup makes of a written attribute. Before anything else every
line end becomes one line feed. Then white space that stands in the value counts
as a space, while a reference counts as the character it names. The characters
that have an entity are written as references and come back as they were; tabs
and line ends are written as they are and come back as spaces. So names and ids
are kept exactly when they contain neither.
-/

namespace ProcessChart

namespace Markup

/-- A carriage return before a line feed is dropped, and any other one becomes a line feed. -/
def normalizeLineEnds : List Char → List Char
  | [] => []
  | c :: rest =>
    if c = '\r' then
      if rest.head? = some '\n' then normalizeLineEnds rest else '\n' :: normalizeLineEnds rest
    else c :: normalizeLineEnds rest

/-- The character with this number, if it may stand in a document. -/
def numbered? (n : Nat) : Option Char :=
  if n.isValidChar ∧ isDocumentChar (Char.ofNat n) = true then some (Char.ofNat n) else none

/-- What the text between an ampersand and a semicolon stands for. -/
def referenced? : List Char → Option Char
  | '#' :: 'x' :: digits => (Decimal.hex? digits).bind numbered?
  | '#' :: digits =>
    if digits ≠ [] ∧ digits.all Decimal.isDigit = true then numbered? (Decimal.value digits)
    else none
  | name =>
    [("amp", '&'), ("lt", '<'), ("gt", '>'), ("quot", '"'), ("apos", '\'')].lookup
      (String.ofList name)

/-- White space of every kind counts as a space. -/
def blank (c : Char) : Char := if isSpace c then ' ' else c

/-- Reads on to the closing quote: the value, and the text behind the quote. What has been
read of a reference that is not ended yet is kept apart. -/
def readValue : Option (List Char) → List Char → Option (List Char × List Char)
  | _, [] => none
  | none, c :: rest =>
    if c = '"' then some ([], rest)
    else if c = '&' then readValue (some []) rest
    else if c = '<' || !isDocumentChar c then none
    else (readValue none rest).map fun (value, left) => (blank c :: value, left)
  | some name, c :: rest =>
    if c = ';' then
      (referenced? name).bind fun x =>
        (readValue none rest).map fun (value, left) => (x :: value, left)
    else readValue (some (name ++ [c])) rest

/-- Reads a text that begins with a value in quotes. -/
def readQuoted (text : List Char) : Option (List Char × List Char) :=
  match normalizeLineEnds text with
  | '"' :: rest => readValue none rest
  | _ => none

/-- What is read of a value that is written so between its quotes. -/
def readWritten (written : String) : Option (List Char) :=
  (readQuoted ('"' :: (written.toList ++ ['"']))).map (·.1)

/-- The text with a space for every tab and for every line end, be it one character or two. -/
def spaced : List Char → List Char
  | [] => []
  | c :: rest =>
    if c = '\r' ∧ rest.head? = some '\n' then spaced rest
    else (if c = '\t' ∨ c = '\n' ∨ c = '\r' then ' ' else c) :: spaced rest

/-- The text has no tab, line feed or carriage return. -/
def Unbroken (text : List Char) : Prop := ∀ c ∈ text, c ≠ '\t' ∧ c ≠ '\n' ∧ c ≠ '\r'

instance (text : List Char) : Decidable (Unbroken text) :=
  decidable_of_iff (text.all (fun c => c ≠ '\t' ∧ c ≠ '\n' ∧ c ≠ '\r') = true)
    (by simp [Unbroken])

-- A tab can be written so that it comes back, but not as itself.
example : readQuoted "\"a&#9;b\tc\" />".toList = some ("a\tb c".toList, " />".toList) := by
  decide

section LineEnds

variable {text : List Char}

theorem normalizeLineEnds_append {a : List Char} (h : '\r' ∉ a) (b : List Char) :
    normalizeLineEnds (a ++ b) = a ++ normalizeLineEnds b := by
  induction a with
  | nil => rfl
  | cons c rest ih =>
    rw [List.mem_cons, not_or] at h
    rw [List.cons_append, normalizeLineEnds, if_neg (Ne.symm h.1), ih h.2, List.cons_append]

theorem mem_of_mem_normalizeLineEnds {c : Char} (h : c ∈ normalizeLineEnds text) :
    c = '\n' ∨ c ∈ text := by
  induction text with
  | nil => exact Or.inr h
  | cons x rest ih =>
    have hlater : c ∈ normalizeLineEnds rest → c = '\n' ∨ c ∈ x :: rest :=
      fun hmem => (ih hmem).imp_right (List.mem_cons_of_mem x)
    rw [normalizeLineEnds] at h
    split at h
    · split at h
      · exact hlater h
      · rcases List.mem_cons.mp h with rfl | h
        · exact Or.inl rfl
        · exact hlater h
    · rcases List.mem_cons.mp h with rfl | h
      · exact Or.inr List.mem_cons_self
      · exact hlater h

/-- Blanks after the line ends are joined are the spaces of the text. -/
theorem map_blank_normalizeLineEnds : (normalizeLineEnds text).map blank = spaced text := by
  induction text with
  | nil => rfl
  | cons c rest ih =>
    rw [normalizeLineEnds, spaced]
    by_cases hreturn : c = '\r'
    · subst hreturn
      by_cases hfeed : rest.head? = some '\n'
      · rw [if_pos rfl, if_pos hfeed, if_pos ⟨rfl, hfeed⟩, ih]
      · rw [if_pos rfl, if_neg hfeed, if_neg (fun h => hfeed h.2), List.map_cons, ih]
        rfl
    · rw [if_neg hreturn, if_neg (fun h => hreturn h.1), List.map_cons, ih]
      by_cases htab : c = '\t'
      · rw [htab]; rfl
      by_cases hfeed : c = '\n'
      · rw [hfeed]; rfl
      by_cases hspace : c = ' '
      · rw [hspace]; rfl
      · simp [blank, isSpace, hreturn, htab, hfeed, hspace]

theorem unbroken_spaced : Unbroken (spaced text) := by
  rw [← map_blank_normalizeLineEnds]
  intro c hc
  obtain ⟨x, -, rfl⟩ := List.mem_map.mp hc
  rw [blank]
  split
  · decide
  · next hx =>
    refine ⟨?_, ?_, ?_⟩
    all_goals
      rintro rfl
      exact hx (by decide)

theorem spaced_eq_self_iff : spaced text = text ↔ Unbroken text := by
  constructor
  · intro h
    rw [← h]
    exact unbroken_spaced
  · intro h
    induction text with
    | nil => rfl
    | cons c rest ih =>
      obtain ⟨hc, hrest⟩ := List.forall_mem_cons.mp h
      rw [spaced, if_neg (fun hpair => hc.2.2 hpair.1), if_neg (by simp [hc]), ih hrest]

end LineEnds

section Escaped

variable {c : Char} {text rest : List Char}

theorem return_not_mem_escapeChar (h : c ≠ '\r') : '\r' ∉ escapeChar c := by
  by_cases hreserved : c ∈ reserved
  · have hentities : '\r' ∉ reserved.flatMap escapeChar := by decide
    exact fun hmem => hentities (List.mem_flatMap_of_mem hreserved hmem)
  · rw [escapeChar_of_not_reserved hreserved, List.mem_singleton]
    exact h.symm

/-- Escaping neither brings a line feed to the front nor takes one away. -/
theorem head_escaped :
    (escapeChars text ++ '"' :: rest).head? = some '\n' ↔ text.head? = some '\n' := by
  cases text with
  | nil =>
    rw [escapeChars_eq_flatMap, List.flatMap_nil, List.nil_append, List.head?_cons]
    simp
  | cons c text =>
    rw [escapeChars_cons, List.append_assoc, List.head?_cons]
    by_cases hreserved : c ∈ reserved
    · have hentity : ∃ more, escapeChar c = '&' :: more := by
        rcases mem_reserved_iff.mp hreserved with rfl | rfl | rfl | rfl | rfl <;> exact ⟨_, rfl⟩
      obtain ⟨more, hmore⟩ := hentity
      have hfeed : c ≠ '\n' := by
        rintro rfl
        exact absurd hreserved (by decide)
      rw [hmore, List.cons_append, List.head?_cons]
      simp [hfeed]
    · rw [escapeChar_of_not_reserved hreserved]
      rfl

theorem normalizeLineEnds_escaped :
    normalizeLineEnds (escapeChars text ++ '"' :: rest) =
      escapeChars (normalizeLineEnds text) ++ '"' :: normalizeLineEnds rest := by
  induction text with
  | nil => rfl
  | cons c text ih =>
    by_cases hreturn : c = '\r'
    · subst hreturn
      have hkept : escapeChar '\r' = ['\r'] := rfl
      rw [escapeChars_cons, hkept, List.singleton_append, List.cons_append, normalizeLineEnds,
        normalizeLineEnds, if_pos rfl, if_pos rfl]
      by_cases hfeed : text.head? = some '\n'
      · rw [if_pos hfeed, if_pos (head_escaped.mpr hfeed), ih]
      · rw [if_neg hfeed, if_neg (mt head_escaped.mp hfeed), ih, escapeChars_cons]
        rfl
    · rw [escapeChars_cons, List.append_assoc,
        normalizeLineEnds_append (return_not_mem_escapeChar hreturn), ih, normalizeLineEnds,
        if_neg hreturn, escapeChars_cons, List.append_assoc]

theorem readValue_escapeChar (hc : isDocumentChar c = true) :
    readValue none (escapeChar c ++ rest) =
      (readValue none rest).map fun (value, left) => (blank c :: value, left) := by
  by_cases hreserved : c ∈ reserved
  · rcases mem_reserved_iff.mp hreserved with rfl | rfl | rfl | rfl | rfl <;> rfl
  · have hplain := mt mem_reserved_iff.mpr hreserved
    simp only [not_or] at hplain
    obtain ⟨hamp, hlt, -, hquote, -⟩ := hplain
    rw [escapeChar_of_not_reserved hreserved, List.singleton_append, readValue, if_neg hquote,
      if_neg hamp, if_neg (by simp [hlt, hc])]

theorem readValue_escaped (h : Permitted text) :
    readValue none (escapeChars text ++ '"' :: rest) = some (text.map blank, rest) := by
  induction text with
  | nil => rfl
  | cons c text ih =>
    obtain ⟨hc, htext⟩ := List.forall_mem_cons.mp h
    rw [escapeChars_cons, List.append_assoc, readValue_escapeChar hc, ih htext]
    rfl

theorem permitted_normalizeLineEnds (h : Permitted text) : Permitted (normalizeLineEnds text) := by
  intro c hc
  rcases mem_of_mem_normalizeLineEnds hc with rfl | hc
  · decide
  · exact h c hc

theorem readQuoted_escaped (h : Permitted text) :
    readQuoted ('"' :: (escapeChars text ++ '"' :: rest)) =
      some (spaced text, normalizeLineEnds rest) := by
  have hquote : normalizeLineEnds ('"' :: (escapeChars text ++ '"' :: rest)) =
      '"' :: normalizeLineEnds (escapeChars text ++ '"' :: rest) := rfl
  rw [readQuoted, hquote, normalizeLineEnds_escaped]
  exact (readValue_escaped (permitted_normalizeLineEnds h)).trans
    (by rw [map_blank_normalizeLineEnds])

end Escaped

theorem readWritten_escape {text : String} (h : Permitted text.toList) :
    readWritten (escape text) = some (spaced text.toList) := by
  rw [readWritten, escape, String.toList_ofList, readQuoted_escaped h]
  rfl

section Documents

variable {p : ProcessGraph} {d : Diagram} {s : LayoutSettings}

theorem readWritten_writtenIds (h : p.layOut s = .ok d)
    (hpermitted : ∀ id ∈ p.documentIds, Permitted id.toList) :
    (writtenIds (Bpmn.pieces p d)).map readWritten =
      p.documentIds.map fun id => some (spaced id.toList) := by
  obtain ⟨hnodes, hedges⟩ := ProcessGraph.ids_of_layOut h
  rw [Bpmn.writtenIds_pieces hnodes hedges, List.map_map]
  refine List.map_congr_left fun id hid => ?_
  rw [Function.comp_apply, readWritten_escape (hpermitted id hid)]

theorem nodup_map_spaced {ids : List String} (hids : ids.Nodup)
    (hunbroken : ∀ id ∈ ids, Unbroken id.toList) :
    (ids.map fun id => some (spaced id.toList)).Nodup := by
  rw [List.nodup_map_iff_inj_on hids]
  intro x hx y hy h
  have hspaced : spaced x.toList = spaced y.toList := Option.some.inj h
  rw [spaced_eq_self_iff.mpr (hunbroken x hx), spaced_eq_self_iff.mpr (hunbroken y hy)] at hspaced
  exact String.toList_injective hspaced

end Documents

/-- Of a permitted text that is escaped and quoted a reader obtains the text with a space
for every tab and every line end, so the text itself exactly when it has none of them.
The same is read of every id of a compiled document; its ids are still different when
they have none of them. -/
theorem attribute_values_read_spaced (text : String) (rest : List Char) (p : ProcessGraph)
    (s : LayoutSettings) :
    (Permitted text.toList →
      readQuoted ('"' :: (escapeChars text.toList ++ '"' :: rest)) =
        some (spaced text.toList, normalizeLineEnds rest) ∧
      (spaced text.toList = text.toList ↔ Unbroken text.toList)) ∧
    ∀ c, p.compile s = .ok c → (∀ id ∈ p.documentIds, Permitted id.toList) →
      (writtenIds (Bpmn.pieces p c.diagram)).map readWritten =
        p.documentIds.map (fun id => some (spaced id.toList)) ∧
      ((∀ id ∈ p.documentIds, Unbroken id.toList) →
        ((writtenIds (Bpmn.pieces p c.diagram)).map readWritten).Nodup) := by
  constructor
  · intro h
    exact ⟨readQuoted_escaped h, spaced_eq_self_iff⟩
  · intro c hc hpermitted
    have hadmissible : p.Admissible := by
      by_contra h
      rw [ProcessGraph.compile_of_not_admissible h] at hc
      cases hc
    obtain ⟨d, hd, hcompiled⟩ := ProcessGraph.compile_of_admissible (s := s) hadmissible
    rw [hcompiled] at hc
    cases hc
    rw [readWritten_writtenIds hd hpermitted]
    exact ⟨rfl, nodup_map_spaced hadmissible.ids_distinct⟩

/-- The ids of two tasks differ only in a tab and a space. -/
def tabbedId : ProcessGraph where
  id := "P"
  name := none
  nodes := [⟨"s", .startEvent, none⟩, ⟨"a b", .task, none⟩, ⟨"a\tb", .task, none⟩,
    ⟨"e", .endEvent, none⟩]
  flows := [⟨"f1", "s", "a b"⟩, ⟨"f2", "a b", "a\tb"⟩, ⟨"f3", "a\tb", "e"⟩]

/-- Both tasks are accepted, and both are read back under one id. -/
theorem tabbedId_read_alike :
    (tabbedId.isValid = true ∧ ∀ id ∈ tabbedId.documentIds, Permitted id.toList) ∧
      readWritten (escape "a\tb") = some "a b".toList ∧
      ∃ c, tabbedId.compile .standard = .ok c ∧
        ¬ ((writtenIds (Bpmn.pieces tabbedId c.diagram)).map readWritten).Nodup := by
  have hvalid : tabbedId.isValid = true := by decide
  have hpermitted : ∀ id ∈ tabbedId.documentIds, Permitted id.toList := by decide
  obtain ⟨d, hd, hc⟩ :=
    ProcessGraph.compile_of_admissible (s := .standard) (ProcessGraph.isValid_iff.mp hvalid)
  refine ⟨⟨hvalid, hpermitted⟩, ?_, _, hc, ?_⟩
  · rw [readWritten_escape (by decide)]
    decide
  · rw [readWritten_writtenIds hd hpermitted]
    decide

/-- Entities come back, and a line end of two characters comes back as one space. -/
theorem read_twoLines :
    (Permitted "Pay &\r\n<go>".toList ∧ ProcessGraph.singleTask.isValid = true) ∧
      readQuoted "\"Pay &amp;\r\n&lt;go&gt;\" />".toList =
        some ("Pay & <go>".toList, " />".toList) ∧
      ∃ c, ProcessGraph.singleTask.compile .standard = .ok c ∧
        ((writtenIds (Bpmn.pieces ProcessGraph.singleTask c.diagram)).map readWritten).Nodup := by
  have hpermitted : Permitted "Pay &\r\n<go>".toList := by decide
  have hvalid : ProcessGraph.singleTask.isValid = true := by decide
  obtain ⟨hvalue, hids⟩ := attribute_values_read_spaced "Pay &\r\n<go>" " />".toList
    ProcessGraph.singleTask .standard
  obtain ⟨d, -, hc⟩ :=
    ProcessGraph.compile_of_admissible (s := .standard) (ProcessGraph.isValid_iff.mp hvalid)
  refine ⟨⟨hpermitted, hvalid⟩, (hvalue hpermitted).1, _, hc, ?_⟩
  exact (hids _ hc (by decide)).2 (by decide)

end Markup

end ProcessChart

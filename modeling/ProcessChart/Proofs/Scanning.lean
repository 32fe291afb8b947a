import ProcessChart.Proofs.WellFormed

/-!
Scanning markup character by character. A well-formed text is scanned back to
where content stands, and a text that has gone wrong once stays wrong. A value
goes wrong at an opening bracket, and at a quote that is not followed by what
may follow a value. So pieces are written as a well-formed text only when all
their values are fit to be quoted, unless one of them ends early.
-/

namespace ProcessChart.Markup

/-- Where the next character stands: outside of tags, in a tag, in a value, right
behind a value, or behind a flaw. -/
inductive Region where
  | content
  | tag
  | value
  | closed
  | broken

open Region

def Region.next : Region → Char → Region
  | content, c => if c = '<' then tag else content
  | tag, c => if c = '"' then value else if c = '>' then content else if c = '<' then broken else tag
  | value, c => if c = '"' then closed else if c = '<' then broken else value
  | closed, c => if isSpace c = true ∨ c = '/' then tag else if c = '>' then content else broken
  | broken, _ => broken

/-- The region behind a text that begins in the region. -/
def scan (r : Region) (text : List Char) : Region := text.foldl Region.next r

theorem scan_cons (r : Region) (c : Char) (rest : List Char) :
    scan r (c :: rest) = scan (r.next c) rest := rfl

theorem scan_append (r : Region) (a b : List Char) : scan r (a ++ b) = scan (scan r a) b :=
  List.foldl_append

theorem scan_broken (text : List Char) : scan broken text = broken := by
  induction text with
  | nil => rfl
  | cons c rest ih => exact ih

section Grammar

/-- In a tag and not in a value. -/
def Region.InTag (r : Region) : Prop := r = tag ∨ r = closed

/-- These characters neither end a tag nor begin a value. -/
theorem scan_tag {text : List Char} (h : ∀ c ∈ text, c ≠ '"' ∧ c ≠ '>' ∧ c ≠ '<') :
    scan tag text = tag := by
  induction text with
  | nil => rfl
  | cons c rest ih =>
    rw [List.forall_mem_cons] at h
    have hnext : Region.next tag c = tag := by simp [Region.next, h.1]
    rw [scan_cons, hnext, ih h.2]

theorem scan_name {name : String} (h : IsName name) : scan tag name.toList = tag := by
  apply scan_tag
  intro c hc
  have hne : ∀ d, continuesName d = false → c ≠ d := by
    rintro d hd rfl
    exact h.not_mem hd hc
  exact ⟨hne '"' (by decide), hne '>' (by decide), hne '<' (by decide)⟩

theorem scan_space {space : List Char} (h : ∀ c ∈ space, isSpace c = true) :
    scan tag space = tag := by
  apply scan_tag
  intro c hc
  have hne : ∀ d, isSpace d = false → c ≠ d := by
    rintro d hd rfl
    exact absurd (h c hc) (by simp [hd])
  exact ⟨hne '"' (by decide), hne '>' (by decide), hne '<' (by decide)⟩

/-- Behind white space a tag goes on. -/
theorem Region.InTag.scan_space {r : Region} (hr : r.InTag) {space : List Char}
    (h : space ≠ [] ∧ ∀ c ∈ space, isSpace c = true) : scan r space = tag := by
  rcases hr with rfl | rfl
  · exact Markup.scan_space h.2
  · obtain ⟨c, rest, rfl⟩ := List.exists_cons_of_ne_nil h.1
    have hall := List.forall_mem_cons.mp h.2
    have hnext : Region.next closed c = tag := by simp [Region.next, hall.1]
    rw [scan_cons, hnext, Markup.scan_space hall.2]

theorem scan_value {v : List Char} (h : '"' ∉ v) :
    scan value v = if '<' ∈ v then broken else value := by
  induction v with
  | nil => rfl
  | cons c rest ih =>
    rw [List.mem_cons, not_or] at h
    by_cases hc : c = '<'
    · subst hc
      rw [scan_cons, if_pos List.mem_cons_self]
      exact scan_broken rest
    · have hnext : Region.next value c = value := by
        simp [Region.next, Ne.symm h.1, hc]
      rw [scan_cons, hnext, ih h.2]
      simp [Ne.symm hc]

/-- The quote in front of a value is reached over the name of the attribute. -/
theorem scan_attribute {name : String} (hname : IsName name) (rest : List Char) :
    scan tag (name.toList ++ '=' :: '"' :: rest) = scan value rest := by
  rw [scan_append, scan_name hname]
  rfl

theorem Attributes.inTag {names : List String} {text : List Char} (h : Attributes names text)
    {r : Region} (hr : r.InTag) : (scan r text).InTag := by
  induction h generalizing r with
  | nil => exact hr
  | cons hspace hname _ hvalue _ ih =>
    rw [scan_append, hr.scan_space hspace, scan_attribute hname.1, scan_append,
      scan_value hvalue.1, if_neg hvalue.2]
    exact ih (.inr rfl)

theorem Tag.inTag {name : String} {text : List Char} (h : Tag name text) :
    (scan tag text).InTag := by
  cases h with
  | @mk names attributes space hname hattributes hspace =>
    have hin : (scan tag attributes).InTag := hattributes.inTag (.inl rfl)
    rw [scan_append, scan_name hname.1, scan_append]
    by_cases hnil : space = []
    · rwa [hnil]
    · exact .inl (hin.scan_space ⟨hnil, hspace⟩)

theorem Tag.isName {name : String} {text : List Char} (h : Tag name text) : IsName name := by
  cases h with
  | mk hname _ _ => exact hname.1

theorem Region.InTag.scan_bracket {r : Region} (h : r.InTag) (rest : List Char) :
    scan r ('>' :: rest) = scan content rest := by
  rcases h with rfl | rfl <;> rfl

theorem Region.InTag.scan_stroke {r : Region} (h : r.InTag) (rest : List Char) :
    scan r ('/' :: '>' :: rest) = scan content rest := by
  rcases h with rfl | rfl <;> rfl

theorem scan_opening (rest : List Char) : scan content ('<' :: rest) = scan tag rest := rfl

theorem scan_closing {name : String} (h : IsName name) (rest : List Char) :
    scan content ('<' :: '/' :: (name.toList ++ '>' :: rest)) = scan content rest := by
  have hstroke : scan content ('<' :: '/' :: (name.toList ++ '>' :: rest)) =
      scan tag (name.toList ++ '>' :: rest) := rfl
  rw [hstroke, scan_append, scan_name h]
  rfl

theorem Content.scan_append {text : List Char} (h : Content text) (rest : List Char) :
    scan content (text ++ rest) = scan content rest := by
  induction h generalizing rest with
  | nil => rfl
  | @char c text hc _ ih =>
    have hnext : Region.next content c = content := if_neg hc
    rw [List.cons_append, scan_cons, hnext, ih]
  | single ht _ ih =>
    simp only [List.cons_append, List.append_assoc]
    rw [scan_opening, Markup.scan_append, ht.inTag.scan_stroke, ih]
  | element ht _ _ ihi ih =>
    simp only [List.cons_append, List.append_assoc]
    rw [scan_opening, Markup.scan_append, ht.inTag.scan_bracket, ihi, scan_closing ht.isName, ih]

/-- A well-formed text ends where content stands. -/
theorem WellFormed.scan_eq {root : String} {text : List Char} (h : WellFormed root text) :
    scan content text = content := by
  obtain ⟨start, inner, ht, hi, rfl⟩ := h.element
  have hscan := (Content.element ht hi .nil).scan_append []
  rwa [List.append_nil] at hscan

end Grammar

section Pieces

/-- The first quote of the text is followed by what may follow the end of a value. -/
def EndsEarly (v : List Char) : Prop :=
  ∃ u c w, v = u ++ '"' :: c :: w ∧ '"' ∉ u ∧ (isSpace c = true ∨ c = '/' ∨ c = '>')

theorem not_endsEarly_of_not_mem {v : List Char} (h : '"' ∉ v) : ¬ EndsEarly v := by
  rintro ⟨u, c, w, rfl, -, -⟩
  exact h (by simp)

/-- The text has neither a quote nor an opening bracket. -/
def Clean (v : List Char) : Prop := '"' ∉ v ∧ '<' ∉ v

theorem scan_clean {v : List Char} (h : Clean v) : scan value (v ++ ['"']) = closed := by
  rw [scan_append, scan_value h.1, if_neg h.2]
  rfl

/-- What may not follow a value, be it the next character or the quote meant to end it. -/
theorem scan_closed {w : List Char}
    (h : ∀ c ∈ w.head?, ¬ (isSpace c = true ∨ c = '/' ∨ c = '>')) :
    scan closed (w ++ ['"']) = broken := by
  cases w with
  | nil => rfl
  | cons c w =>
    have hc := h c rfl
    rw [← or_assoc, not_or] at hc
    have hnext : Region.next closed c = broken := by rw [Region.next, if_neg hc.1, if_neg hc.2]
    rw [List.cons_append, scan_cons, hnext, scan_broken]

theorem scan_unclean {v : List Char} (h : ¬ Clean v) (hearly : ¬ EndsEarly v) :
    scan value (v ++ ['"']) = broken := by
  by_cases hquote : '"' ∈ v
  · obtain ⟨u, w, rfl, hu⟩ := List.eq_append_cons_of_mem hquote
    rw [List.append_assoc, scan_append, scan_value hu]
    by_cases hopen : '<' ∈ u
    · rw [if_pos hopen, scan_broken]
    · have hclose : Region.next value '"' = closed := rfl
      rw [if_neg hopen, List.cons_append, scan_cons, hclose]
      apply scan_closed
      intro c hc hfollows
      obtain ⟨more, rfl⟩ := List.head?_eq_some_iff.mp hc
      exact hearly ⟨u, c, more, rfl, hu, hfollows⟩
  · have hopen : '<' ∈ v := Decidable.not_not.mp fun hopen => h ⟨hquote, hopen⟩
    rw [scan_append, scan_value hquote, if_pos hopen, scan_broken]

theorem Region.InTag.scan_write {r : Region} (hr : r.InTag) {a : Attribute}
    (hname : IsName a.name) : scan r a.write = scan value (a.written ++ ['"']) := by
  have hwrite : a.write =
      [' '] ++ (a.name.toList ++ '=' :: '"' :: (a.written ++ ['"'])) := by
    simp [Attribute.write]
  rw [hwrite, scan_append, hr.scan_space (by simp [isSpace]), scan_attribute hname]

theorem scan_attributes {as : List Attribute} (hnames : ∀ a ∈ as, IsName a.name)
    (hearly : ∀ a ∈ as, ¬ EndsEarly a.written) {r : Region} (hr : r.InTag) :
    scan r (as.flatMap Attribute.write) = broken ∨
      (scan r (as.flatMap Attribute.write)).InTag ∧ ∀ a ∈ as, Clean a.written := by
  induction as generalizing r with
  | nil => exact .inr ⟨hr, by simp⟩
  | cons a as ih =>
    rw [List.forall_mem_cons] at hnames hearly
    rw [List.flatMap_cons, scan_append, hr.scan_write hnames.1, List.forall_mem_cons]
    by_cases hclean : Clean a.written
    · rw [scan_clean hclean]
      rcases ih hnames.2 hearly.2 (.inr rfl) with hbroken | ⟨hin, hall⟩
      · exact .inl hbroken
      · exact .inr ⟨hin, hclean, hall⟩
    · rw [scan_unclean hclean hearly.1, scan_broken]
      exact .inl rfl

/-- A tag up to its closing bracket. -/
theorem scan_front {name : String} {as : List Attribute} (h : NamedOnce name (as.map (·.name)))
    (hearly : ∀ a ∈ as, ¬ EndsEarly a.written) :
    scan content (['<'] ++ name.toList ++ as.flatMap Attribute.write) = broken ∨
      (scan content (['<'] ++ name.toList ++ as.flatMap Attribute.write)).InTag ∧
        ∀ a ∈ as, Clean a.written := by
  have hopen : scan content (['<'] ++ name.toList) = tag := by
    rw [List.singleton_append, scan_opening, scan_name h.name.1]
  rw [scan_append, hopen]
  exact scan_attributes h.isName hearly (.inl rfl)

theorem scan_piece {p : Piece} (h : p.Framed) (hearly : ∀ a ∈ p.attributes, ¬ EndsEarly a.written) :
    scan content (p.write "/>") = broken ∨
      scan content (p.write "/>") = content ∧ ∀ a ∈ p.attributes, Clean a.written := by
  cases p with
  | opening name as =>
    rw [Piece.write, scan_append]
    rcases scan_front h hearly with hbroken | ⟨hin, hclean⟩
    · rw [hbroken, scan_broken]
      exact .inl rfl
    · exact .inr ⟨hin.scan_bracket [], hclean⟩
  | closing name =>
    have hscan := scan_closing h.1 []
    simp only [Piece.write, List.cons_append, List.nil_append, hscan]
    exact .inr ⟨rfl, by simp [Piece.attributes]⟩
  | single name as =>
    have hfinish : "/>".toList = ['/', '>'] := by simp
    rw [Piece.write, scan_append, hfinish]
    rcases scan_front h hearly with hbroken | ⟨hin, hclean⟩
    · rw [hbroken, scan_broken]
      exact .inl rfl
    · exact .inr ⟨hin.scan_stroke [], hclean⟩
  | text written =>
    have hscan := (content_append h.opening .nil).scan_append []
    simp only [List.append_nil] at hscan
    exact .inr ⟨hscan, by simp [Piece.attributes]⟩

theorem scan_writePieces {ps : List Piece} (hframed : ∀ p ∈ ps, p.Framed)
    (hearly : ∀ p ∈ ps, ∀ a ∈ p.attributes, ¬ EndsEarly a.written) :
    scan content (writePieces "/>" ps) = broken ∨
      scan content (writePieces "/>" ps) = content ∧
        ∀ p ∈ ps, ∀ a ∈ p.attributes, Clean a.written := by
  induction ps with
  | nil => exact .inr ⟨rfl, by simp⟩
  | cons p ps ih =>
    rw [List.forall_mem_cons] at hframed hearly
    have hwrite : writePieces "/>" (p :: ps) = p.write "/>" ++ writePieces "/>" ps :=
      List.flatMap_cons
    rw [hwrite, scan_append, List.forall_mem_cons]
    rcases scan_piece hframed.1 hearly.1 with hbroken | ⟨hcontent, hclean⟩
    · rw [hbroken, scan_broken]
      exact .inl rfl
    · rw [hcontent]
      rcases ih hframed.2 hearly.2 with hbroken | ⟨hcontent, hall⟩
      · exact .inl hbroken
      · exact .inr ⟨hcontent, hclean, hall⟩

theorem exists_flatMap_write_eq_append {a : Attribute} {as : List Attribute} (h : a ∈ as) :
    ∃ x y, as.flatMap Attribute.write = x ++ (a.written ++ '"' :: y) := by
  obtain ⟨l, r, rfl⟩ := List.append_of_mem h
  refine ⟨l.flatMap Attribute.write ++ ([' '] ++ a.name.toList ++ ['=', '"']),
    r.flatMap Attribute.write, ?_⟩
  simp [Attribute.write]

/-- Behind every value stands its quote. -/
theorem exists_write_eq_append {a : Attribute} {p : Piece} (h : a ∈ p.attributes) :
    ∃ x y, p.write "/>" = x ++ (a.written ++ '"' :: y) := by
  obtain ⟨x, y, hxy⟩ := exists_flatMap_write_eq_append h
  cases p with
  | opening name as =>
    rw [Piece.attributes] at hxy
    exact ⟨['<'] ++ name.toList ++ x, y ++ ['>'], by simp [Piece.write, hxy]⟩
  | single name as =>
    rw [Piece.attributes] at hxy
    exact ⟨['<'] ++ name.toList ++ x, y ++ "/>".toList, by simp [Piece.write, hxy]⟩
  | closing name => exact absurd h List.not_mem_nil
  | text written => exact absurd h List.not_mem_nil

/-- The values in a well-formed text are fit to be quoted, unless one ends early. -/
theorem isValue_of_wellFormed {root : String} {ps : List Piece} (hframed : ∀ p ∈ ps, p.Framed)
    (hearly : ∀ p ∈ ps, ∀ a ∈ p.attributes, ¬ EndsEarly a.written)
    (h : WellFormed root (writePieces "/>" ps)) :
    ∀ p ∈ ps, ∀ a ∈ p.attributes, IsValue a.written := by
  rcases scan_writePieces hframed hearly with hbroken | ⟨-, hclean⟩
  · rw [h.scan_eq] at hbroken
    exact absurd hbroken (by simp)
  · intro p hp a ha
    obtain ⟨l, r, rfl⟩ := List.append_of_mem hp
    obtain ⟨x, y, hxy⟩ := exists_write_eq_append ha
    have htext : writePieces "/>" (l ++ p :: r) =
        writePieces "/>" l ++ x ++ (a.written ++ '"' :: (y ++ writePieces "/>" r)) := by
      simp [writePieces, hxy]
    have hlegible := h.toLegible
    rw [htext] at hlegible
    have hpermitted : Permitted a.written :=
      fun c hc => hlegible.permitted c (by simp [hc])
    obtain ⟨hquote, hopen⟩ := hclean p hp a ha
    exact ⟨⟨⟨hpermitted, hlegible.references.right.left⟩, hopen⟩, hquote⟩

end Pieces

end ProcessChart.Markup

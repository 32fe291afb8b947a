import ProcessChart.Proofs.Tags

/-!
Well-formed markup, said without a reader or a writer: one element, every tag
closed in the order of nesting, attributes behind white space in double quotes
and named once, and ampersands only where an entity begins. Pieces in the order
of their nesting are written as such a text when every value and every stretch
of text is fit to stand where it stands.
-/

namespace ProcessChart.Markup

/-- The five entities that need no declaration. -/
def entities : List String := ["&amp;", "&lt;", "&gt;", "&quot;", "&apos;"]

theorem map_escapeChar_reserved : reserved.map escapeChar = entities.map String.toList := by decide

theorem exists_entity {c : Char} (h : c ∈ reserved) :
    ∃ entity ∈ entities, entity.toList = escapeChar c := by
  have hmem : escapeChar c ∈ reserved.map escapeChar := List.mem_map_of_mem h
  rw [map_escapeChar_reserved] at hmem
  exact List.mem_map.mp hmem

/-- Every ampersand begins an entity. -/
def References : List Char → Prop
  | [] => True
  | c :: rest =>
    (c = '&' → ∃ entity ∈ entities, entity.toList <+: c :: rest) ∧ References rest

instance References.decidable : (text : List Char) → Decidable (References text)
  | [] => isTrue trivial
  | c :: rest =>
    have : Decidable (References rest) := References.decidable rest
    inferInstanceAs (Decidable ((c = '&' → ∃ entity ∈ entities, entity.toList <+: c :: rest) ∧ _))

namespace References

theorem of_not_mem {text : List Char} (h : '&' ∉ text) : References text := by
  induction text with
  | nil => trivial
  | cons c rest ih =>
    rw [List.mem_cons, not_or] at h
    exact ⟨fun hc => absurd hc.symm h.1, ih h.2⟩

theorem append {a b : List Char} (ha : References a) (hb : References b) :
    References (a ++ b) := by
  induction a with
  | nil => exact hb
  | cons c rest ih =>
    refine ⟨?_, ih ha.2⟩
    intro hc
    obtain ⟨entity, hentity, hprefix⟩ := ha.1 hc
    exact ⟨entity, hentity, hprefix.trans (List.prefix_append (c :: rest) b)⟩

theorem flatMap {α : Type} {l : List α} {f : α → List Char} (h : ∀ a ∈ l, References (f a)) :
    References (l.flatMap f) := by
  induction l with
  | nil => trivial
  | cons a l ih =>
    rw [List.flatMap_cons]
    exact (h a List.mem_cons_self).append (ih fun b hb => h b (List.mem_cons_of_mem a hb))

theorem right {a b : List Char} (h : References (a ++ b)) : References b := by
  induction a with
  | nil => exact h
  | cons c rest ih => exact ih h.2

/-- No entity goes on behind a quote. -/
theorem left {a b : List Char} (h : References (a ++ '"' :: b)) : References a := by
  induction a with
  | nil => trivial
  | cons c rest ih =>
    refine ⟨?_, ih h.2⟩
    intro hc
    obtain ⟨entity, hentity, hprefix⟩ := h.1 hc
    refine ⟨entity, hentity, ?_⟩
    have hquote : '"' ∉ entity.toList := by
      have hentities : ∀ e ∈ entities, '"' ∉ e.toList := by decide
      exact hentities entity hentity
    have hwhole : c :: rest ++ ['"'] <+: c :: (rest ++ '"' :: b) := ⟨b, by simp⟩
    rcases List.prefix_or_prefix_of_prefix hprefix hwhole with hle | hle
    · rcases List.prefix_concat_iff.mp hle with heq | hle
      · exact absurd (heq ▸ by simp) hquote
      · exact hle
    · exact absurd (hle.subset (by simp)) hquote

end References

def Permitted (text : List Char) : Prop := ∀ c ∈ text, isDocumentChar c = true

instance (text : List Char) : Decidable (Permitted text) :=
  decidable_of_iff (text.all isDocumentChar = true) List.all_eq_true

/-- Text that may stand in a document, be it as markup or between markup. -/
structure Legible (text : List Char) : Prop where
  permitted : Permitted text
  references : References text

namespace Legible

theorem append {a b : List Char} (ha : Legible a) (hb : Legible b) : Legible (a ++ b) where
  permitted := List.forall_mem_append.mpr ⟨ha.permitted, hb.permitted⟩
  references := ha.references.append hb.references

theorem flatMap {α : Type} {l : List α} {f : α → List Char} (h : ∀ a ∈ l, Legible (f a)) :
    Legible (l.flatMap f) where
  permitted := by
    intro c hc
    obtain ⟨a, ha, hc⟩ := List.mem_flatMap.mp hc
    exact (h a ha).permitted c hc
  references := .flatMap fun a ha => (h a ha).references

theorem of_permitted {text : List Char} (h : Permitted text ∧ '&' ∉ text) : Legible text :=
  ⟨h.1, .of_not_mem h.2⟩

end Legible

/-- Text that may stand between tags. -/
structure IsData (text : List Char) : Prop extends Legible text where
  opening : '<' ∉ text

/-- Text that may stand between the quotes of an attribute. -/
structure IsValue (text : List Char) : Prop extends IsData text where
  quote : '"' ∉ text

/-- A name whose first character is no digit, hyphen or dot. -/
def ProperName (name : String) : Prop :=
  IsName name ∧ name.toList.head?.any startsName = true

instance (name : String) : Decidable (ProperName name) :=
  inferInstanceAs (Decidable (_ ∧ _))

/-- The attributes of a tag with their names. -/
inductive Attributes : List String → List Char → Prop
  | nil : Attributes [] []
  | cons {names : List String} {name : String} {space value rest : List Char}
      (hspace : space ≠ [] ∧ ∀ c ∈ space, isSpace c = true) (hname : ProperName name)
      (hnew : name ∉ names) (hvalue : '"' ∉ value ∧ '<' ∉ value) (hrest : Attributes names rest) :
      Attributes (name :: names)
        (space ++ (name.toList ++ '=' :: '"' :: (value ++ '"' :: rest)))

/-- The name and the attributes of a tag. -/
inductive Tag (name : String) : List Char → Prop
  | mk {names : List String} {attributes space : List Char} (hname : ProperName name)
      (hattributes : Attributes names attributes) (hspace : ∀ c ∈ space, isSpace c = true) :
      Tag name (name.toList ++ (attributes ++ space))

/-- Text and elements, each closed before what it stands in. -/
inductive Content : List Char → Prop
  | nil : Content []
  | char {c : Char} {rest : List Char} (hc : c ≠ '<') (h : Content rest) : Content (c :: rest)
  | single {name : String} {tag rest : List Char} (ht : Tag name tag) (h : Content rest) :
      Content ('<' :: (tag ++ '/' :: '>' :: rest))
  | element {name : String} {tag inner rest : List Char} (ht : Tag name tag)
      (hi : Content inner) (h : Content rest) :
      Content ('<' :: (tag ++ '>' :: (inner ++ '<' :: '/' :: (name.toList ++ '>' :: rest))))

/-- The text is one element of this name. -/
structure WellFormed (root : String) (text : List Char) : Prop extends Legible text where
  element : ∃ tag inner, Tag root tag ∧ Content inner ∧
    text = '<' :: (tag ++ '>' :: (inner ++ '<' :: '/' :: (root.toList ++ ['>'])))

section Names

theorem isDocumentChar_of_continuesName {c : Char} (h : continuesName c = true) :
    isDocumentChar c = true := by
  have hforeign : ∀ n, n < 32 ∨ n = 0xFFFE ∨ n = 0xFFFF →
      continuesName (Char.ofNat n) = false := by
    rintro n (hn | rfl | rfl)
    · revert n
      decide
    · decide
    · decide
  unfold isDocumentChar
  have hnat : ¬ (c.toNat < 32 ∨ c.toNat = 0xFFFE ∨ c.toNat = 0xFFFF) := by
    intro hc
    rw [← Char.ofNat_toNat c, hforeign c.toNat hc] at h
    exact absurd h (by decide)
  rw [not_or, not_or] at hnat
  simp [hnat]

theorem IsName.not_mem {name : String} (h : IsName name) {c : Char}
    (hc : continuesName c = false) : c ∉ name.toList := by
  intro hmem
  rw [h.continues c hmem] at hc
  exact absurd hc (by decide)

theorem IsName.legible {name : String} (h : IsName name) : Legible name.toList :=
  .of_permitted ⟨fun c hc => isDocumentChar_of_continuesName (h.continues c hc),
    h.not_mem (by decide)⟩

end Names

section Pieces

/-- The names of a tag and its attributes are proper, and no attribute is named twice. -/
structure NamedOnce (name : String) (attributes : List String) : Prop where
  name : ProperName name
  proper : ∀ a ∈ attributes, ProperName a
  distinct : attributes.Nodup

instance (name : String) (attributes : List String) : Decidable (NamedOnce name attributes) :=
  decidable_of_iff (ProperName name ∧ (∀ a ∈ attributes, ProperName a) ∧ attributes.Nodup)
    ⟨fun h => ⟨h.1, h.2.1, h.2.2⟩, fun h => ⟨h.name, h.proper, h.distinct⟩⟩

/-- All about a piece but the values of its attributes is well-formed. -/
def Piece.Framed : Piece → Prop
  | opening name attributes => NamedOnce name (attributes.map (·.name))
  | single name attributes => NamedOnce name (attributes.map (·.name))
  | closing name => ProperName name
  | text written => IsData written

/-- The closing tags stand in the order of nesting. -/
inductive Nested : List Piece → Prop
  | nil : Nested []
  | text (written : List Char) {rest : List Piece} (h : Nested rest) :
      Nested (.text written :: rest)
  | single (name : String) (attributes : List Attribute) {rest : List Piece} (h : Nested rest) :
      Nested (.single name attributes :: rest)
  | element (name : String) (attributes : List Attribute) {inner rest : List Piece}
      (hi : Nested inner) (h : Nested rest) :
      Nested (.opening name attributes :: (inner ++ .closing name :: rest))

theorem Nested.append {a b : List Piece} (ha : Nested a) (hb : Nested b) : Nested (a ++ b) := by
  induction ha with
  | nil => exact hb
  | text written _ ih => exact .text written ih
  | single name attributes _ ih => exact .single name attributes ih
  | element name attributes hi _ _ ih =>
    rw [List.cons_append, List.append_assoc, List.cons_append]
    exact .element name attributes hi ih

theorem attributes_flatMap_write {as : List Attribute}
    (hnames : ∀ a ∈ as.map (·.name), ProperName a) (hdistinct : (as.map (·.name)).Nodup)
    (hvalues : ∀ a ∈ as, IsValue a.written) :
    Attributes (as.map (·.name)) (as.flatMap Attribute.write) := by
  induction as with
  | nil => exact .nil
  | cons a as ih =>
    rw [List.map_cons, List.forall_mem_cons] at hnames
    rw [List.map_cons, List.nodup_cons] at hdistinct
    rw [List.forall_mem_cons] at hvalues
    rw [List.map_cons, List.flatMap_cons, Attribute.write_append, ← List.singleton_append]
    have hspace : [' '] ≠ [] ∧ ∀ c ∈ [' '], isSpace c = true := by simp [isSpace]
    exact .cons hspace hnames.1 hdistinct.1 ⟨hvalues.1.quote, hvalues.1.opening⟩
      (ih hnames.2 hdistinct.2 hvalues.2)

theorem tag_write {name : String} {as : List Attribute} (h : NamedOnce name (as.map (·.name)))
    (hvalues : ∀ a ∈ as, IsValue a.written) :
    Tag name (name.toList ++ as.flatMap Attribute.write) := by
  have hattributes := attributes_flatMap_write h.proper h.distinct hvalues
  rw [← List.append_nil (as.flatMap Attribute.write)]
  exact .mk h.name hattributes (by simp)

theorem content_append {text : List Char} (ht : '<' ∉ text) {rest : List Char} (h : Content rest) :
    Content (text ++ rest) := by
  induction text with
  | nil => exact h
  | cons c text ih =>
    rw [List.mem_cons, not_or] at ht
    exact .char (Ne.symm ht.1) (ih ht.2)

/-- Pieces in the order of their nesting are written as text and elements. -/
theorem Nested.content {ps : List Piece} (h : Nested ps) (hframed : ∀ p ∈ ps, p.Framed)
    (hvalues : ∀ p ∈ ps, ∀ a ∈ p.attributes, IsValue a.written) :
    Content (writePieces "/>" ps) := by
  induction h with
  | nil => exact .nil
  | text written _ ih =>
    rw [List.forall_mem_cons] at hframed hvalues
    exact content_append hframed.1.opening (ih hframed.2 hvalues.2)
  | single name attributes _ ih =>
    rw [List.forall_mem_cons] at hframed hvalues
    have hcontent := Content.single (tag_write hframed.1 hvalues.1) (ih hframed.2 hvalues.2)
    simpa [writePieces, Piece.write] using hcontent
  | element name attributes _ _ ihi ih =>
    rw [List.forall_mem_cons, List.forall_mem_append, List.forall_mem_cons] at hframed hvalues
    have hcontent := Content.element (tag_write hframed.1 hvalues.1)
      (ihi hframed.2.1 hvalues.2.1) (ih hframed.2.2.2 hvalues.2.2.2)
    simpa [writePieces, Piece.write] using hcontent

theorem legible_write {a : Attribute} (hname : IsName a.name) (hvalue : Legible a.written) :
    Legible a.write := by
  have hspace : Legible [' '] := .of_permitted (by decide)
  have hquote : Legible ['=', '"'] := .of_permitted (by decide)
  have hclose : Legible ['"'] := .of_permitted (by decide)
  exact (((hspace.append hname.legible).append hquote).append hvalue).append hclose

theorem NamedOnce.isName {name : String} {as : List Attribute}
    (h : NamedOnce name (as.map (·.name))) : ∀ a ∈ as, IsName a.name :=
  fun a ha => (h.proper a.name (List.mem_map_of_mem ha)).1

/-- A tag up to its closing bracket. -/
theorem legible_front {name : String} {as : List Attribute} (h : NamedOnce name (as.map (·.name)))
    (hvalues : ∀ a ∈ as, IsValue a.written) :
    Legible (['<'] ++ name.toList ++ as.flatMap Attribute.write) := by
  have hopen : Legible ['<'] := .of_permitted (by decide)
  refine (hopen.append h.name.1.legible).append (.flatMap fun a ha => ?_)
  exact legible_write (h.isName a ha) (hvalues a ha).toLegible

theorem Piece.Framed.legible {p : Piece} (h : p.Framed)
    (hvalues : ∀ a ∈ p.attributes, IsValue a.written) : Legible (p.write "/>") := by
  have hstroke : Legible ['<', '/'] := .of_permitted (by decide)
  have hclose : Legible ['>'] := .of_permitted (by decide)
  have hfinish : Legible "/>".toList := .of_permitted (by decide)
  cases p with
  | opening name as => exact (legible_front h hvalues).append hclose
  | closing name => exact (hstroke.append h.1.legible).append hclose
  | single name as => exact (legible_front h hvalues).append hfinish
  | text written => exact IsData.toLegible h

/-- An element of pieces whose values are fit to be quoted is well-formed. -/
theorem wellFormed_writePieces {root : String} {as : List Attribute} {inner ps : List Piece}
    (hps : ps = .opening root as :: (inner ++ [.closing root])) (hinner : Nested inner)
    (hframed : ∀ p ∈ ps, p.Framed) (hvalues : ∀ p ∈ ps, ∀ a ∈ p.attributes, IsValue a.written) :
    WellFormed root (writePieces "/>" ps) where
  toLegible := .flatMap fun p hp => (hframed p hp).legible (hvalues p hp)
  element := by
    subst hps
    rw [List.forall_mem_cons, List.forall_mem_append] at hframed hvalues
    refine ⟨_, _, tag_write hframed.1 hvalues.1, hinner.content hframed.2.1 hvalues.2.1, ?_⟩
    simp [writePieces, Piece.write]

end Pieces

end ProcessChart.Markup

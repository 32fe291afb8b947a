import ProcessChart.Markup.Reading
import ProcessChart.Proofs.SelfDelimiting
import ProcessChart.Proofs.WrittenValues

/-!
A document of tags can be read in one way only. Names have no characters that
could end them and values have no quotes, so a tag shows its name, its
attributes and its kind, and a document shows its tags.
-/

namespace ProcessChart.Markup

def IsName (name : String) : Prop :=
  name.toList ≠ [] ∧ name.toList.all continuesName = true

instance (name : String) : Decidable (IsName name) :=
  inferInstanceAs (Decidable (_ ∧ _))

theorem IsName.continues {name : String} (h : IsName name) :
    ∀ c ∈ name.toList, continuesName c = true :=
  List.all_eq_true.mp h.2

theorem IsName.exists_cons {name : String} (h : IsName name) :
    ∃ c rest, name.toList = c :: rest ∧ continuesName c = true := by
  obtain ⟨c, rest, hname⟩ := List.exists_cons_of_ne_nil h.1
  exact ⟨c, rest, hname, h.continues c (hname ▸ List.mem_cons_self)⟩

theorem IsName.append_ne_stroke {name : String} (h : IsName name) (u v : List Char) :
    name.toList ++ u ≠ '/' :: v := by
  obtain ⟨c, rest, hname, hc⟩ := h.exists_cons
  rw [hname]
  intro heq
  have hstroke : c = '/' := (List.cons.inj heq).1
  rw [hstroke] at hc
  exact absurd hc (by decide)

/-- A name is read up to the first character that no name contains. -/
theorem name_append_eq_iff {n m : String} {x y : Char} {r s : List Char} (hn : IsName n)
    (hm : IsName m) (hx : continuesName x = false) (hy : continuesName y = false) :
    n.toList ++ x :: r = m.toList ++ y :: s ↔ n = m ∧ x = y ∧ r = s := by
  have h := append_cons_eq_iff (P := fun c => continuesName c = true) (r := r) (s := s)
    hn.continues hm.continues (Bool.eq_false_iff.mp hx) (Bool.eq_false_iff.mp hy)
  rwa [String.toList_inj] at h

namespace Attribute

/-- An attribute that a reader finds again: it has a name, and its value has no quote. -/
structure Plain (a : Attribute) : Prop where
  name : IsName a.name
  written : '"' ∉ a.written

@[simp] theorem plain_escaped_iff {name value : String} :
    (escaped name value).Plain ↔ IsName name := by
  constructor
  · intro h
    exact h.name
  · intro h
    exact ⟨h, quote_not_mem_escapeChars _⟩

@[simp] theorem plain_integer_iff {name : String} {value : Int} :
    (integer name value).Plain ↔ IsName name := by
  constructor
  · intro h
    exact h.name
  · intro h
    exact ⟨h, Decimal.quote_not_mem_integer value⟩

@[simp] theorem plain_verbatim_iff {name value : String} :
    (verbatim name value).Plain ↔ IsName name ∧ '"' ∉ value.toList := by
  constructor
  · intro h
    exact ⟨h.name, h.written⟩
  · intro h
    exact ⟨h.1, h.2⟩

theorem escaped_inj {name a b : String} : escaped name a = escaped name b ↔ a = b := by
  rw [escaped, escaped, mk.injEq, escapeChars_injective.eq_iff, String.toList_inj]
  exact and_iff_right rfl

theorem integer_inj {name : String} {i j : Int} : integer name i = integer name j ↔ i = j := by
  rw [integer, integer, mk.injEq, Decimal.integer_injective.eq_iff]
  exact and_iff_right rfl

theorem write_append (a : Attribute) (rest : List Char) :
    a.write ++ rest = ' ' :: (a.name.toList ++ '=' :: '"' :: (a.written ++ '"' :: rest)) := by
  simp [write]

/-- Whether one more attribute follows in a tag. -/
def follows : List Char → Prop
  | ' ' :: c :: _ => continuesName c = true
  | _ => False

theorem selfDelimiting : SelfDelimiting write id Plain follows where
  starts := by
    intro a rest ha
    obtain ⟨c, name, hname, hc⟩ := ha.name.exists_cons
    rw [write_append, hname]
    exact hc
  append_eq_iff := by
    intro a b r s ha hb
    have hwritten := append_cons_eq_iff (P := (· ≠ '"')) (r := r) (s := s)
      (fun c hc hquote => ha.written (hquote ▸ hc)) (fun c hc hquote => hb.written (hquote ▸ hc))
      (not_not_intro rfl) (not_not_intro rfl)
    rw [write_append, write_append, List.cons.injEq,
      name_append_eq_iff ha.name hb.name (by decide) (by decide), List.cons.injEq, hwritten]
    cases a
    cases b
    simp [and_assoc]

end Attribute

/-- What may stand behind the name and the attributes of a tag. -/
structure EndsTag (text : List Char) : Prop where
  noName : ∃ x rest, text = x :: rest ∧ continuesName x = false
  noAttribute : ¬ Attribute.follows text

theorem EndsTag.exists_cons {text : List Char} (h : EndsTag text) (attributes : List Attribute) :
    ∃ x rest, attributes.flatMap Attribute.write ++ text = x :: rest ∧ continuesName x = false := by
  cases attributes with
  | nil => exact h.noName
  | cons a attributes =>
    rw [List.flatMap_cons, List.append_assoc, Attribute.write_append]
    exact ⟨' ', _, rfl, by decide⟩

theorem endsTag_bracket (rest : List Char) : EndsTag ('>' :: rest) :=
  ⟨⟨'>', rest, rfl, by decide⟩, by simp [Attribute.follows]⟩

theorem endsTag_stroke (rest : List Char) : EndsTag (" />".toList ++ rest) := by
  have hfinish : " />".toList = [' ', '/', '>'] := by simp
  rw [hfinish]
  have hstroke : ¬ Attribute.follows ([' ', '/', '>'] ++ rest) := by
    show ¬ continuesName '/' = true
    decide
  exact ⟨⟨' ', '/' :: '>' :: rest, rfl, by decide⟩, hstroke⟩

/-- Behind the opening bracket a tag shows its name and its attributes. -/
theorem tag_append_eq_iff {n m : String} {as bs : List Attribute} {u v : List Char}
    (hn : IsName n) (hm : IsName m) (has : ∀ a ∈ as, a.Plain) (hbs : ∀ a ∈ bs, a.Plain)
    (hu : EndsTag u) (hv : EndsTag v) :
    n.toList ++ (as.flatMap Attribute.write ++ u) =
        m.toList ++ (bs.flatMap Attribute.write ++ v) ↔
      n = m ∧ as = bs ∧ u = v := by
  obtain ⟨x, r, hx, hxname⟩ := hu.exists_cons as
  obtain ⟨y, s, hy, hyname⟩ := hv.exists_cons bs
  have hattributes := Attribute.selfDelimiting.flatMap_append_eq_iff has hbs hu.noAttribute
    hv.noAttribute
  rw [List.map_id, List.map_id] at hattributes
  rw [← hattributes, hx, hy, name_append_eq_iff hn hm hxname hyname, List.cons.injEq]

namespace Piece

/-- A tag that a reader finds again. Text between tags is left out. -/
def Plain : Piece → Prop
  | opening name attributes => IsName name ∧ ∀ a ∈ attributes, a.Plain
  | closing name => IsName name
  | single name attributes => IsName name ∧ ∀ a ∈ attributes, a.Plain
  | text _ => False

@[simp] theorem plain_opening_iff {name : String} {attributes : List Attribute} :
    (opening name attributes).Plain ↔ IsName name ∧ ∀ a ∈ attributes, a.Plain := Iff.rfl

@[simp] theorem plain_closing_iff {name : String} : (closing name).Plain ↔ IsName name := Iff.rfl

@[simp] theorem plain_single_iff {name : String} {attributes : List Attribute} :
    (single name attributes).Plain ↔ IsName name ∧ ∀ a ∈ attributes, a.Plain := Iff.rfl

theorem write_opening_append (name : String) (attributes : List Attribute) (rest : List Char) :
    (opening name attributes).write " />" ++ rest =
      '<' :: (name.toList ++ (attributes.flatMap Attribute.write ++ '>' :: rest)) := by
  simp [Piece.write]

theorem write_closing_append (name : String) (rest : List Char) :
    (closing name).write " />" ++ rest = '<' :: '/' :: (name.toList ++ '>' :: rest) := by
  simp [Piece.write]

theorem write_single_append (name : String) (attributes : List Attribute) (rest : List Char) :
    (single name attributes).write " />" ++ rest =
      '<' :: (name.toList ++ (attributes.flatMap Attribute.write ++ (" />".toList ++ rest))) := by
  simp only [Piece.write, List.append_assoc, List.cons_append, List.nil_append]

theorem opening_append_eq_iff {n : String} {as : List Attribute} {y : Piece} {r s : List Char}
    (hx : (opening n as).Plain) (hy : y.Plain) :
    (opening n as).write " />" ++ r = y.write " />" ++ s ↔ opening n as = y ∧ r = s := by
  cases y with
  | opening m bs =>
    rw [write_opening_append, write_opening_append, List.cons.injEq,
      tag_append_eq_iff hx.1 hy.1 hx.2 hy.2 (endsTag_bracket r) (endsTag_bracket s)]
    simp [and_assoc]
  | closing m =>
    rw [write_opening_append, write_closing_append, List.cons.injEq]
    simp [hx.1.append_ne_stroke]
  | single m bs =>
    rw [write_opening_append, write_single_append, List.cons.injEq,
      tag_append_eq_iff hx.1 hy.1 hx.2 hy.2 (endsTag_bracket r) (endsTag_stroke s)]
    simp
  | text written => exact absurd hy id

theorem closing_append_eq_iff {n : String} {y : Piece} {r s : List Char}
    (hx : (closing n).Plain) (hy : y.Plain) :
    (closing n).write " />" ++ r = y.write " />" ++ s ↔ closing n = y ∧ r = s := by
  cases y with
  | opening m bs =>
    rw [write_closing_append, write_opening_append, List.cons.injEq]
    simp [(hy.1.append_ne_stroke _ _).symm]
  | closing m =>
    rw [write_closing_append, write_closing_append, List.cons.injEq, List.cons.injEq,
      name_append_eq_iff hx hy (by decide) (by decide)]
    simp
  | single m bs =>
    rw [write_closing_append, write_single_append, List.cons.injEq]
    simp [(hy.1.append_ne_stroke _ _).symm]
  | text written => exact absurd hy id

theorem single_append_eq_iff {n : String} {as : List Attribute} {y : Piece} {r s : List Char}
    (hx : (single n as).Plain) (hy : y.Plain) :
    (single n as).write " />" ++ r = y.write " />" ++ s ↔ single n as = y ∧ r = s := by
  cases y with
  | opening m bs =>
    rw [write_single_append, write_opening_append, List.cons.injEq,
      tag_append_eq_iff hx.1 hy.1 hx.2 hy.2 (endsTag_stroke r) (endsTag_bracket s)]
    simp
  | closing m =>
    rw [write_single_append, write_closing_append, List.cons.injEq]
    simp [hx.1.append_ne_stroke]
  | single m bs =>
    rw [write_single_append, write_single_append, List.cons.injEq,
      tag_append_eq_iff hx.1 hy.1 hx.2 hy.2 (endsTag_stroke r) (endsTag_stroke s)]
    simp [and_assoc]
  | text written => exact absurd hy id

theorem selfDelimiting : SelfDelimiting (Piece.write " />") id Plain (· ≠ []) where
  starts := by
    intro x rest hx
    cases x with
    | opening name attributes => simp [write_opening_append]
    | closing name => simp [write_closing_append]
    | single name attributes => simp [write_single_append]
    | text written => exact absurd hx id
  append_eq_iff := by
    intro x y r s hx hy
    cases x with
    | opening n as => exact opening_append_eq_iff hx hy
    | closing n => exact closing_append_eq_iff hx hy
    | single n as => exact single_append_eq_iff hx hy
    | text written => exact absurd hx id

end Piece

/-- Tags in a row are written alike exactly when they are the same tags. -/
theorem writePieces_eq_iff {xs ys : List Piece} (hxs : ∀ x ∈ xs, x.Plain)
    (hys : ∀ y ∈ ys, y.Plain) : writePieces " />" xs = writePieces " />" ys ↔ xs = ys := by
  have h := Piece.selfDelimiting.flatMap_eq_iff hxs hys (by simp)
  rwa [List.map_id, List.map_id] at h

end ProcessChart.Markup

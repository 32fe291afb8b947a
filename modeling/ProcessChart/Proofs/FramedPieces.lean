import ProcessChart.Decimal.Fixed
import ProcessChart.Proofs.Escaping
import ProcessChart.Proofs.Scanning

/-!
Markup put together from parts that are safe by themselves and from given texts
that are written as they are. Escaped text is safe, numbers are, and so is all
that keeps clear of the characters with a meaning. Whether the whole is
well-formed then depends on the given texts alone.
-/

namespace ProcessChart

namespace Markup

/-- The characters that may stand in a document and mean nothing in it. -/
def harmless (c : Char) : Bool := isDocumentChar c && !reserved.contains c

def Harmless (text : List Char) : Prop := ∀ c ∈ text, harmless c = true

instance (text : List Char) : Decidable (Harmless text) :=
  decidable_of_iff (text.all harmless = true) List.all_eq_true

@[simp] theorem harmless_nil : Harmless [] := by simp [Harmless]

@[simp] theorem harmless_cons_iff {c : Char} {rest : List Char} :
    Harmless (c :: rest) ↔ harmless c = true ∧ Harmless rest :=
  List.forall_mem_cons

@[simp] theorem harmless_append_iff {a b : List Char} :
    Harmless (a ++ b) ↔ Harmless a ∧ Harmless b :=
  List.forall_mem_append

theorem Harmless.isValue {text : List Char} (h : Harmless text) : IsValue text := by
  have hclear : ∀ d ∈ reserved, d ∉ text := by
    intro d hd hmem
    have hharmless := h d hmem
    simp [harmless, hd] at hharmless
  refine ⟨⟨⟨?_, .of_not_mem (hclear '&' (by decide))⟩, hclear '<' (by decide)⟩,
    hclear '"' (by decide)⟩
  intro c hc
  exact (Bool.and_eq_true_iff.mp (h c hc)).1

theorem permitted_escapeChars {text : List Char} (h : Permitted text) :
    Permitted (escapeChars text) := by
  rw [escapeChars_eq_flatMap]
  intro c hc
  obtain ⟨x, hx, hc⟩ := List.mem_flatMap.mp hc
  by_cases hreserved : x ∈ reserved
  · have hentities : ∀ entity ∈ entities, Permitted entity.toList := by decide
    obtain ⟨entity, hentity, heq⟩ := exists_entity hreserved
    exact hentities entity hentity c (heq ▸ hc)
  · rw [escapeChar_of_not_reserved hreserved, List.mem_singleton] at hc
    exact hc ▸ h x hx

/-- Only entities are left of the characters with a meaning. -/
theorem isValue_escapeChars {text : List Char} (h : Permitted text) :
    IsValue (escapeChars text) := by
  have hescaped := isEscaped_escapeChars text
  exact ⟨⟨⟨permitted_escapeChars h, hescaped.references⟩, hescaped.opening⟩, hescaped.quote⟩

end Markup

namespace Decimal

open Markup

theorem harmless_of_isDigit {c : Char} (h : isDigit c = true) : harmless c = true := by
  have hdigits : ∀ n < 58, 48 ≤ n → harmless (Char.ofNat n) = true := by decide
  have hbounds : 48 ≤ c.toNat ∧ c.toNat < 58 := by
    simp only [isDigit, Bool.and_eq_true, decide_eq_true_eq, Char.le_def,
      UInt32.le_iff_toNat_le] at h
    exact ⟨h.1, Nat.lt_succ_of_le h.2⟩
  rw [← Char.ofNat_toNat c]
  exact hdigits c.toNat hbounds.2 hbounds.1

theorem harmless_digits (n : Nat) : Harmless (digits n) :=
  fun _ hc => harmless_of_isDigit (isDigit_of_mem_digits hc)

theorem harmless_integer (i : Int) : Harmless (integer i) := by
  cases i with
  | ofNat n => exact harmless_digits n
  | negSucc n => exact harmless_cons_iff.mpr ⟨by decide, harmless_digits (n + 1)⟩

theorem harmless_signed {negative : Bool} {text : List Char} (h : Harmless text) :
    Harmless (signed negative text) := by
  cases negative with
  | false => exact h
  | true => exact harmless_cons_iff.mpr ⟨by decide, h⟩

theorem harmless_zeros (n : Nat) : Harmless (List.replicate n '0') := by
  intro c hc
  rw [List.eq_of_mem_replicate hc]
  decide

theorem harmless_withPlaces (places scaled : Nat) : Harmless (withPlaces places scaled) := by
  have hpoint : harmless '.' = true := by decide
  rw [withPlaces]
  split
  · exact harmless_digits scaled
  · simp [harmless_digits, harmless_zeros, hpoint]

theorem harmless_fixed (places : Nat) (x : BinaryValue) : Harmless (fixed places x) := by
  cases x with
  | nan => exact (by decide : Harmless "NaN".toList)
  | infinite negative => exact harmless_signed (by decide : Harmless "inf".toList)
  | finite negative significand exponent => exact harmless_signed (harmless_withPlaces _ _)

theorem harmless_positional (n : Nat) (exponent : Int) : Harmless (positional n exponent) := by
  have hpoint : harmless '.' = true := by decide
  have hzero : harmless '0' = true := by decide
  have htake : ∀ k, Harmless ((digits n).take k) :=
    fun k c hc => harmless_digits n c (List.mem_of_mem_take hc)
  have hdrop : ∀ k, Harmless ((digits n).drop k) :=
    fun k c hc => harmless_digits n c (List.mem_of_mem_drop hc)
  unfold positional
  dsimp only
  split
  · simp [harmless_digits, harmless_zeros]
  · split
    · simp [htake, hdrop, hpoint]
    · simp [harmless_digits, harmless_zeros, hpoint, hzero]

theorem harmless_plain (f : BinaryFormat) (x : BinaryValue) : Harmless (plain f x) := by
  unfold plain
  split
  · exact (by decide : Harmless "NaN".toList)
  · exact harmless_signed (by decide : Harmless "inf".toList)
  · exact harmless_signed (by decide : Harmless ['0'])
  · exact harmless_signed (harmless_positional _ _)

end Decimal

namespace Markup

section Parts

variable {given : List String}

/-- The value is safe, or it is one of the given texts. -/
def Attribute.Shows (given : List String) (a : Attribute) : Prop :=
  IsValue a.written ∨ ∃ s ∈ given, a.written = s.toList

theorem Harmless.shows {name : String} {written : List Char} (h : Harmless written) :
    Attribute.Shows given ⟨name, written⟩ :=
  .inl h.isValue

theorem shows_escaped {name value : String} (h : Permitted value.toList) :
    Attribute.Shows given (.escaped name value) :=
  .inl (isValue_escapeChars h)

theorem shows_given {name s : String} (h : s ∈ given) :
    Attribute.Shows given (.verbatim name s) :=
  .inr ⟨s, h, rfl⟩

/-- Nested pieces in which only values that are given texts may be flawed. -/
structure Assembled (given : List String) (ps : List Piece) : Prop where
  nested : Nested ps
  framed : ∀ p ∈ ps, p.Framed
  shows : ∀ p ∈ ps, ∀ a ∈ p.attributes, a.Shows given

namespace Assembled

theorem nil : Assembled given [] := ⟨.nil, by simp, by simp⟩

theorem append {a b : List Piece} (ha : Assembled given a) (hb : Assembled given b) :
    Assembled given (a ++ b) where
  nested := ha.nested.append hb.nested
  framed := List.forall_mem_append.mpr ⟨ha.framed, hb.framed⟩
  shows := List.forall_mem_append.mpr ⟨ha.shows, hb.shows⟩

theorem flatMap {α : Type} {l : List α} {f : α → List Piece}
    (h : ∀ a ∈ l, Assembled given (f a)) : Assembled given (l.flatMap f) := by
  induction l with
  | nil => exact nil
  | cons a l ih =>
    rw [List.forall_mem_cons] at h
    rw [List.flatMap_cons]
    exact h.1.append (ih h.2)

theorem flatten {l : List (List Piece)} (h : ∀ ps ∈ l, Assembled given ps) :
    Assembled given l.flatten := by
  rw [← List.flatMap_id]
  exact flatMap h

theorem text {written : List Char} (h : IsData written) : Assembled given [.text written] where
  nested := .text written .nil
  framed := List.forall_mem_singleton.mpr h
  shows := by simp [Piece.attributes]

theorem single {name : String} {as : List Attribute} (h : NamedOnce name (as.map (·.name)))
    (hshows : ∀ a ∈ as, a.Shows given) : Assembled given [.single name as] where
  nested := .single name as .nil
  framed := List.forall_mem_singleton.mpr h
  shows := List.forall_mem_singleton.mpr hshows

theorem element {name : String} {as : List Attribute} {inner : List Piece}
    (h : NamedOnce name (as.map (·.name))) (hshows : ∀ a ∈ as, a.Shows given)
    (hinner : Assembled given inner) :
    Assembled given (.opening name as :: (inner ++ [.closing name])) where
  nested := .element name as hinner.nested .nil
  framed := by
    rw [List.forall_mem_cons, List.forall_mem_append, List.forall_mem_singleton]
    exact ⟨h, hinner.framed, h.name⟩
  shows := by
    rw [List.forall_mem_cons, List.forall_mem_append, List.forall_mem_singleton]
    exact ⟨hshows, hinner.shows, by simp [Piece.attributes]⟩

theorem not_endsEarly {ps : List Piece} (h : Assembled given ps)
    (hearly : ∀ s ∈ given, ¬ EndsEarly s.toList) :
    ∀ p ∈ ps, ∀ a ∈ p.attributes, ¬ EndsEarly a.written := by
  intro p hp a ha
  rcases h.shows p hp a ha with hvalue | ⟨s, hs, hwritten⟩
  · exact not_endsEarly_of_not_mem hvalue.quote
  · rw [hwritten]
    exact hearly s hs

end Assembled

/-- The text stands as it is in one of the attributes. -/
def Carries (ps : List Piece) (s : String) : Prop :=
  ∃ p ∈ ps, ∃ a ∈ p.attributes, a.written = s.toList

theorem Carries.of_subset {ps qs : List Piece} {s : String} (h : Carries ps s)
    (hsub : ∀ p ∈ ps, p ∈ qs) : Carries qs s := by
  obtain ⟨p, hp, hs⟩ := h
  exact ⟨p, hsub p hp, hs⟩

section Element

variable {root : String} {as : List Attribute} {inner : List Piece}
  (hroot : NamedOnce root (as.map (·.name))) (hshows : ∀ a ∈ as, a.Shows given)
  (hinner : Assembled given inner)

include hroot hshows hinner

/-- An element around assembled pieces is well-formed when the given texts are fit to be
quoted. -/
theorem wellFormed_of_assembled (hgiven : ∀ s ∈ given, IsValue s.toList) :
    WellFormed root (writePieces "/>" (.opening root as :: (inner ++ [.closing root]))) := by
  have hwhole := Assembled.element hroot hshows hinner
  refine wellFormed_writePieces rfl hinner.nested hwhole.framed fun p hp a ha => ?_
  rcases hwhole.shows p hp a ha with hvalue | ⟨s, hs, hwritten⟩
  · exact hvalue
  · rw [hwritten]
    exact hgiven s hs

/-- Only then, unless one of the given texts ends early. -/
theorem isValue_of_assembled (hcarries : ∀ s ∈ given, Carries inner s)
    (hearly : ∀ s ∈ given, ¬ EndsEarly s.toList)
    (h : WellFormed root (writePieces "/>" (.opening root as :: (inner ++ [.closing root])))) :
    ∀ s ∈ given, IsValue s.toList := by
  have hwhole := Assembled.element hroot hshows hinner
  intro s hs
  obtain ⟨p, hp, a, ha, hwritten⟩ := hcarries s hs
  rw [← hwritten]
  exact isValue_of_wellFormed hwhole.framed (hwhole.not_endsEarly hearly) h p (by simp [hp]) a ha

end Element

end Parts

end Markup

end ProcessChart

import ProcessChart.ProcessGraph.Defect
import ProcessChart.Proofs.WellFormed

/-!
Escaped text. Replacing the five characters with a meaning one kind after the other
comes to a single pass, because no entity has any of them but the ampersand, and that
is replaced first. What is left has no brackets and no quotes, and every ampersand in
it begins an entity. Every text of this form is the escaped form of one text only, the
one that resolving its entities gives; a text that looks escaped is no exception.
-/

namespace ProcessChart.Markup

/-- Brackets and quotes occur as entities only, and every ampersand begins one. -/
structure IsEscaped (written : List Char) : Prop where
  opening : '<' ∉ written
  closing : '>' ∉ written
  quote : '"' ∉ written
  apostrophe : '\'' ∉ written
  references : References written

instance (written : List Char) : Decidable (IsEscaped written) :=
  decidable_of_iff
    ('<' ∉ written ∧ '>' ∉ written ∧ '"' ∉ written ∧ '\'' ∉ written ∧ References written)
    ⟨fun ⟨ho, hc, hq, ha, hr⟩ => ⟨ho, hc, hq, ha, hr⟩,
      fun h => ⟨h.opening, h.closing, h.quote, h.apostrophe, h.references⟩⟩

theorem escapeChar_ne_nil (c : Char) : escapeChar c ≠ [] := by
  by_cases h : c ∈ reserved
  · have hentities : ∀ entity ∈ entities, entity.toList ≠ [] := by decide
    obtain ⟨entity, hentity, heq⟩ := exists_entity h
    exact heq ▸ hentities entity hentity
  · rw [escapeChar_of_not_reserved h]
    exact List.cons_ne_nil c []

theorem references_escapeChar (c : Char) : References (escapeChar c) := by
  by_cases h : c ∈ reserved
  · have hentities : ∀ entity ∈ entities, References entity.toList := by decide
    obtain ⟨entity, hentity, heq⟩ := exists_entity h
    exact heq ▸ hentities entity hentity
  · rw [escapeChar_of_not_reserved h]
    refine .of_not_mem fun hamp => h ?_
    rw [← List.mem_singleton.mp hamp]
    decide

theorem isEscaped_escapeChars (text : List Char) : IsEscaped (escapeChars text) where
  opening := not_mem_escapeChars (by decide) (by decide) text
  closing := not_mem_escapeChars (by decide) (by decide) text
  quote := not_mem_escapeChars (by decide) (by decide) text
  apostrophe := not_mem_escapeChars (by decide) (by decide) text
  references := by
    rw [escapeChars_eq_flatMap]
    exact .flatMap fun c _ => references_escapeChar c

namespace IsEscaped

theorem right {a b : List Char} (h : IsEscaped (a ++ b)) : IsEscaped b where
  opening hmem := h.opening (List.mem_append_right a hmem)
  closing hmem := h.closing (List.mem_append_right a hmem)
  quote hmem := h.quote (List.mem_append_right a hmem)
  apostrophe hmem := h.apostrophe (List.mem_append_right a hmem)
  references := h.references.right

/-- Of the characters that have an entity, an escaped text begins with an ampersand at most. -/
theorem not_reserved {c : Char} {rest : List Char} (h : IsEscaped (c :: rest)) (hamp : c ≠ '&') :
    c ∉ reserved := by
  intro hreserved
  rcases mem_reserved_iff.mp hreserved with rfl | rfl | rfl | rfl | rfl
  · exact hamp rfl
  · exact h.opening List.mem_cons_self
  · exact h.closing List.mem_cons_self
  · exact h.quote List.mem_cons_self
  · exact h.apostrophe List.mem_cons_self

/-- An escaped text begins with what some character is written as. -/
theorem exists_escapeChar {x : Char} {rest : List Char} (h : IsEscaped (x :: rest)) :
    ∃ c left, x :: rest = escapeChar c ++ left := by
  by_cases hamp : x = '&'
  · obtain ⟨entity, hentity, left, hleft⟩ := h.references.1 hamp
    have hmem : entity.toList ∈ reserved.map escapeChar := by
      rw [map_escapeChar_reserved]
      exact List.mem_map_of_mem hentity
    obtain ⟨c, -, hc⟩ := List.mem_map.mp hmem
    exact ⟨c, left, by rw [hc, hleft]⟩
  · have hplain := h.not_reserved hamp
    exact ⟨x, rest, by rw [escapeChar_of_not_reserved hplain, List.singleton_append]⟩

theorem exists_text {written : List Char} (h : IsEscaped written) :
    ∃ text, escapeChars text = written := by
  induction hlength : written.length using Nat.strongRecOn generalizing written with
  | _ n ih =>
    cases written with
    | nil => exact ⟨[], rfl⟩
    | cons x rest =>
      -- What is left behind the first written character is escaped and shorter.
      obtain ⟨c, left, hsplit⟩ := h.exists_escapeChar
      have hshorter : left.length < n := by
        have hlengths := congrArg List.length hsplit
        have hpos : 0 < (escapeChar c).length := List.length_pos_iff.mpr (escapeChar_ne_nil c)
        rw [List.length_append] at hlengths
        omega
      obtain ⟨text, htext⟩ := ih left.length hshorter (hsplit ▸ h).right rfl
      exact ⟨c :: text, by rw [escapeChars_cons, htext, hsplit]⟩

/-- Escaping brings back what resolving has taken away. -/
theorem escapeChars_resolve {written : List Char} (h : IsEscaped written) :
    escapeChars (resolve written) = written := by
  obtain ⟨text, rfl⟩ := h.exists_text
  rw [resolve_escapeChars]

end IsEscaped

theorem toList_escape (text : String) : (escape text).toList = escapeChars text.toList :=
  String.toList_ofList

theorem escape_append (a b : String) : escape (a ++ b) = escape a ++ escape b := by
  rw [escape, String.toList_append, escapeChars_append, String.ofList_append]
  rfl

/-- The five replacements are one pass over the characters, so escaping goes part by part
and leaves the suffix of diagram ids alone. The escaped text has no brackets and no quotes,
and every ampersand in it begins an entity; the entities resolved are the text again, and
no other text of this form is resolved to it. -/
theorem escape_in_one_pass (text : String) :
    (escape text).toList = text.toList.flatMap escapeChar ∧
    (∀ more, escape (text ++ more) = escape text ++ escape more) ∧
    escape (diagramId text) = escape text ++ "_di" ∧
    (IsEscaped (escape text).toList ∧ resolve (escape text).toList = text.toList) ∧
    ∀ written : String, IsEscaped written.toList → resolve written.toList = text.toList →
      written = escape text := by
  have hsuffix : escape "_di" = "_di" := by decide
  refine ⟨?_, escape_append text, ?_, ⟨?_, ?_⟩, ?_⟩
  · rw [toList_escape, escapeChars_eq_flatMap]
  · rw [diagramId, escape_append, hsuffix]
  · rw [toList_escape]
    exact isEscaped_escapeChars text.toList
  · rw [toList_escape, resolve_escapeChars]
  · intro written hwritten hresolve
    rw [← String.toList_inj, toList_escape, ← hresolve, hwritten.escapeChars_resolve]

/-- A text that looks escaped is escaped once more, and resolved once it is itself again. -/
theorem escape_twice_escaped :
    IsEscaped "&amp;amp;lt;".toList ∧ resolve "&amp;amp;lt;".toList = "&amp;lt;".toList ∧
      "&amp;amp;lt;" = escape "&amp;lt;" := by
  have hwritten : IsEscaped "&amp;amp;lt;".toList := by decide
  have hresolve : resolve "&amp;amp;lt;".toList = "&amp;lt;".toList := by decide
  obtain ⟨-, -, -, -, honly⟩ := escape_in_one_pass "&amp;lt;"
  exact ⟨hwritten, hresolve, honly "&amp;amp;lt;" hwritten hresolve⟩

end ProcessChart.Markup

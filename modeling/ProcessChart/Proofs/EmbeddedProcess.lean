import ProcessChart.Proofs.PrintedProcess
import ProcessChart.Proofs.SharedSyntax
import ProcessChart.Proofs.TextParts

/-!
A process inside other text is found. A text that is a process as a whole begins
with an opening brace, so prose in front is never taken for one; and a process
with prose behind it is, if anything, the same process, because the two readers
end an object at the same brace.
-/

namespace ProcessChart

section Objects

variable {cs rest : List Char} {limit depth : Nat}

theorem Json.parse?_eq_some {j : Json} (h : Json.parse? cs = some j) :
    ∃ rest, Json.value? (cs.length + 1) Json.maxDepth (Json.skipSpace cs) = some (j, rest) ∧
      Json.skipSpace rest = [] := by
  unfold Json.parse? at h
  split at h
  · next j rest hvalue =>
    split_ifs at h with hrest
    cases h
    exact ⟨rest, hvalue, List.isEmpty_iff.mp hrest⟩
  · cases h

theorem Json5.parse?_eq_some {j : Json5} (h : Json5.parse? cs = some j) :
    ∃ rest, Json5.value? (cs.length + 1) (cs.length + 1) (Json5.skip cs) = some (j, rest) ∧
      Json5.skip rest = [] := by
  unfold Json5.parse? at h
  dsimp only at h
  split at h
  · next j rest hvalue =>
    split_ifs at h with hrest
    cases h
    exact ⟨rest, hvalue, List.isEmpty_iff.mp hrest⟩
  · cases h

theorem Json.exists_brace_of_value? {fields : List (String × Json)}
    (h : Json.value? limit depth cs = some (.object fields, rest)) :
    ∃ tail, cs = '\x7b' :: tail := by
  unfold Json.value? at h
  split at h
  · cases h
  · next c tail =>
    split at h
    case h_6 => exact ⟨tail, rfl⟩
    case h_5 =>
      split at h
      · cases h
      · obtain ⟨r, -, h⟩ := Option.map_eq_some_iff.mp h
        cases h
    all_goals
      obtain ⟨r, -, h⟩ := Option.map_eq_some_iff.mp h
      cases h

theorem Json5.exists_brace_of_value? {entries : List (List Json5.Component × Json5)}
    (h : Json5.value? limit depth cs = some (.object entries, rest)) :
    ∃ tail, cs = '\x7b' :: tail := by
  unfold Json5.value? at h
  split at h
  · cases h
  · cases h
  · next c tail =>
    split at h
    case h_7 => exact ⟨tail, rfl⟩
    all_goals
      obtain ⟨r, -, h⟩ := Option.map_eq_some_iff.mp h
      cases h

theorem Json5.exists_object_of_toJson {j : Json5} {fields : List (String × Json)}
    (h : j.toJson = .ok (.object fields)) : ∃ entries, j = .object entries := by
  cases j with
  | object entries => exact ⟨entries, rfl⟩
  | null => cases h
  | bool b => cases h
  | number token =>
    rw [Json5.toJson] at h
    split at h
    · obtain ⟨i, -, h⟩ := bind_eq_ok_iff.mp h
      cases h
    · obtain ⟨x, -, h⟩ := bind_eq_ok_iff.mp h
      split at h <;> cases h
  | string parts =>
    rw [Json5.toJson] at h
    obtain ⟨s, -, h⟩ := bind_eq_ok_iff.mp h
    cases h
  | array items =>
    rw [Json5.toJson] at h
    obtain ⟨items, -, h⟩ := bind_eq_ok_iff.mp h
    cases h

/-- Blanks of JSON5 are white space, except for the byte order mark. -/
theorem Json5.isBlank_of_isSpace {c : Char} (h : Json5.isSpace c = true) (hmark : c ≠ '\ufeff') :
    Text.isBlank c = true := by
  have hall : ∀ c ∈ Json5.breaks, Json5.isSpace c = true → c ≠ '\ufeff' → Text.isBlank c = true :=
    forall_mem_of_all (by decide)
  exact hall c (Json5.mem_breaks_of_isSpace h) h hmark

theorem Json.isBlank_of_isSpace {c : Char} (h : Json.isSpace c = true) : Text.isBlank c = true := by
  have hall : ∀ c ∈ [' ', '\t', '\n', '\r'], Text.isBlank c = true :=
    forall_mem_of_all (by decide)
  exact hall c (by simpa [Json.isSpace, or_assoc] using h)

end Objects

namespace ProcessGraph

variable {p : ProcessGraph} {cs : List Char}

theorem exists_object_of_ofJson {j : Json} (h : ofJson j = .ok p) :
    ∃ fields, j = .object fields := by
  cases j with
  | object fields => exact ⟨fields, rfl⟩
  | null => cases h
  | bool b => cases h
  | number n => cases h
  | string s => cases h
  | array items => cases h

theorem exists_json_of_ofPart (h : ofPart cs = .ok p) :
    ∃ j, jsonOfText? cs = some j ∧ ofJson j = .ok p := by
  unfold ofPart at h
  split at h
  · next j hj => exact ⟨j, hj, h⟩
  · cases h

/-- JSON5 is asked only where strict JSON fails. -/
theorem jsonOfText?_eq_some {j : Json} (h : jsonOfText? cs = some j) :
    Json.parse? cs = some j ∨
      Json.parse? cs = none ∧ ∃ j5, Json5.parse? cs = some j5 ∧ j5.toJson = .ok j := by
  rw [jsonOfText?, Option.or_eq_some_iff] at h
  rcases h with h | ⟨hnone, h⟩
  · exact Or.inl h
  · obtain ⟨j5, hj5, h⟩ := Option.bind_eq_some_iff.mp h
    split at h
    · next value hvalue =>
      cases h
      exact Or.inr ⟨hnone, j5, hj5, hvalue⟩
    · cases h

/-- What is a process as a whole begins with an opening brace. -/
theorem exists_brace_of_ofPart (h : ofPart cs = .ok p) :
    (∃ tail, Json.skipSpace cs = '\x7b' :: tail) ∨ ∃ tail, Json5.skip cs = '\x7b' :: tail := by
  obtain ⟨j, hj, hread⟩ := exists_json_of_ofPart h
  obtain ⟨fields, rfl⟩ := exists_object_of_ofJson hread
  rcases jsonOfText?_eq_some hj with hj | ⟨-, j5, hj5, hjson⟩
  · obtain ⟨rest, hvalue, -⟩ := Json.parse?_eq_some hj
    exact Or.inl (Json.exists_brace_of_value? hvalue)
  · obtain ⟨rest, hvalue, -⟩ := Json5.parse?_eq_some hj5
    obtain ⟨entries, rfl⟩ := Json5.exists_object_of_toJson hjson
    exact Or.inr (Json5.exists_brace_of_value? hvalue)

theorem brace_mem_of_ofPart (h : ofPart cs = .ok p) : '\x7b' ∈ cs := by
  rcases exists_brace_of_ofPart h with ⟨tail, hskip⟩ | ⟨tail, hskip⟩
  · have hsuffix : Json.skipSpace cs <:+ cs := List.dropWhile_suffix Json.isSpace
    exact hsuffix.subset (hskip ▸ List.mem_cons_self)
  · exact (Json5.skip_suffix cs).subset (hskip ▸ List.mem_cons_self)

/-- Prose in front is not taken for a process. -/
theorem not_ofPart_of_prose {c : Char} {tail : List Char} (hblank : Text.isBlank c = false)
    (hc : c ∉ ['\x7b', '/', '\ufeff']) : ofPart (c :: tail) ≠ .ok p := by
  intro h
  have hspace : Json5.isSpace c = false := by
    rw [← Bool.not_eq_true]
    intro hspace
    have hmark : c ≠ '\ufeff' := fun heq => hc (by simp [heq])
    exact absurd ((Json5.isBlank_of_isSpace hspace hmark).symm.trans hblank) (by decide)
  have hstrict : Json.isSpace c = false := by
    rw [← Bool.not_eq_true]
    exact fun h => absurd ((Json5.isSpace_of_strict h).symm.trans hspace) (by decide)
  rcases exists_brace_of_ofPart h with ⟨rest, hskip⟩ | ⟨rest, hskip⟩
  · rw [Json.skipSpace_cons hstrict] at hskip
    exact hc (by simp [(List.cons.inj hskip).1])
  · rw [Json5.skip_cons hspace fun heq => hc (by simp [heq])] at hskip
    exact hc (by simp [(List.cons.inj hskip).1])

/-- The second part is taken when the whole is no other process. -/
theorem ofText_of_second {text : String} {whole part : List Char} {others : List (List Char)}
    (htrim : Text.trim text.toList = whole) (hparts : parts whole = whole :: part :: others)
    (hbrace : '\x7b' ∈ whole) (hpart : ofPart part = .ok p)
    (hwhole : ∀ p', ofPart whole = .ok p' → p' = p) : ofText text = .ok p := by
  have hsome : whole.isEmpty = false := List.isEmpty_eq_false_iff.mpr (List.ne_nil_of_mem hbrace)
  have hfound : whole.contains '\x7b' = true := List.contains_iff_mem.mpr hbrace
  rw [ofText, htrim, hsome, hfound, hparts]
  cases h : ofPart whole with
  | ok p' =>
    rw [← hwhole p' h]
    exact firstOf_cons_of_ok .noObject h
  | error e => simp [firstOf, h, hpart]

/-- A start alone, as JSON5 with a comment that has a brace and quotes in it. -/
def shortText : String :=
  "\x7b // ``\x7b`` 'opens\n id: 'P', nodes: [\x7bid: 's', type: 'start'\x7d],\x7d"

def shortProcess : ProcessGraph := ⟨"P", none, [⟨"s", .startEvent, none⟩], []⟩

theorem ofPart_shortText : ofPart shortText.toList = .ok shortProcess :=
  eq_ok_of_toOption (by decide +kernel)

section Fenced

/-- A fenced block with a line for each fence. -/
def fencedBlock (content : List Char) : List Char :=
  Text.fence ++ ("json\n".toList ++ (content ++ '\n' :: Text.fence))

theorem fencedBlock_eq (content : List Char) :
    fencedBlock content =
      '\x60' :: ("``json\n".toList ++ content ++ "\n``".toList ++ ['\x60']) := by
  simp [fencedBlock, Text.fence]

theorem not_ofPart_of_front {front more : List Char} (hne : Text.trimStart front ≠ [])
    (hhead : ∀ c ∈ (Text.trimStart front).head?, c ∉ ['\x7b', '/', '\ufeff']) :
    ofPart (Text.trimStart front ++ more) ≠ .ok p := by
  obtain ⟨c, tail, hfront⟩ := List.exists_cons_of_ne_nil hne
  have hc : c ∈ (Text.trimStart front).head? := by rw [hfront]; rfl
  have hblank := Text.isBlank_head_of_trimStart hc
  rw [hfront, List.cons_append]
  exact not_ofPart_of_prose hblank (hhead c hc)

/-- A fenced block is understood whatever stands around it: prose in front must not look like the
beginning of a value or of a fence, and behind the block anything may follow. -/
theorem ofText_fenced {front text rest : String} (hfront : Text.Plain front.toList)
    (hhead : ∀ c ∈ (Text.trimStart front.toList).head?, c ∉ ['\x7b', '/', '\ufeff'])
    (htrim : Text.trim text.toList = text.toList) (hfence : ¬Text.fence <:+: text.toList)
    (h : ofPart text.toList = .ok p) :
    ofText (front ++ "```json\n" ++ text ++ "\n```" ++ rest) = .ok p := by
  have hbrace := brace_mem_of_ofPart h
  have hwhole : Text.trim (front ++ "```json\n" ++ text ++ "\n```" ++ rest).toList =
      Text.trimStart front.toList ++ fencedBlock text.toList ++ Text.trimEnd rest.toList := by
    rw [fencedBlock_eq, ← Text.trim_around (by decide) (by decide)]
    simp
  have hplain := hfront.suffix (List.dropWhile_suffix Text.isBlank)
  have hfenced : Text.fenced? (Text.trimStart front.toList ++ fencedBlock text.toList ++
      Text.trimEnd rest.toList) = some text.toList := by
    have hblock := Text.fenced?_block hplain (List.ne_nil_of_mem hbrace) htrim hfence
      (Text.trimEnd rest.toList)
    rw [← hblock]
    simp [fencedBlock, Text.trimStart]
  refine ofText_of_second hwhole (by rw [parts, hfenced]; rfl) (by simp [fencedBlock, hbrace]) h
    fun p' hp' => ?_
  by_cases hblank : Text.trimStart front.toList = []
  · rw [hblank, List.nil_append, fencedBlock_eq] at hp'
    exact absurd hp' (not_ofPart_of_prose (by decide) (by decide))
  · rw [List.append_assoc] at hp'
    exact absurd hp' (not_ofPart_of_front hblank hhead)

/-- A brace and a quote in front, and another block and a brace behind. -/
theorem ofText_fenced_reply :
    (Text.Plain "A `\x7b` opens:\n".toList ∧ ¬Text.fence <:+: shortText.toList ∧
      ofPart shortText.toList = .ok shortProcess) ∧
    ofText ("A `\x7b` opens:\n" ++ "```json\n" ++ shortText ++ "\n```" ++
      "\n```\x7b\x7d```\x7d") = .ok shortProcess := by
  have hfront : Text.Plain "A `\x7b` opens:\n".toList := ⟨by decide, by decide⟩
  have hfence : ¬Text.fence <:+: shortText.toList := by decide
  refine ⟨⟨hfront, hfence, ofPart_shortText⟩, ?_⟩
  exact ofText_fenced hfront (by rintro c ⟨⟩; decide) (by decide) hfence ofPart_shortText

end Fenced

section Prose

/-- Characters that prose around an object must not have: those that could begin or end an object,
begin a comment, or be skipped without being white space. -/
def marks : List Char := ['\x7b', '\x7d', '/', '\ufeff']

def Prose (cs : List Char) : Prop := ∀ c ∈ cs, c ∉ marks

/-- Strict JSON does not go on behind an object. -/
theorem parse?_object_append (inner front : List Char) {last : Char}
    (hblank : Text.isBlank last = false) (hclose : last ≠ '\x7d') :
    Json.parse? ('\x7b' :: (inner ++ (front ++ [last]))) = none := by
  rw [Option.eq_none_iff_forall_ne_some]
  intro j h
  obtain ⟨rest, hvalue, hrest⟩ := Json.parse?_eq_some h
  rw [Json.skipSpace_cons (by decide)] at hvalue
  obtain ⟨text, htext, -⟩ := Json.exists_ends_of_value?_object 0 0 hvalue
  have hmem : last ∈ '\x7d' :: rest := by
    have hends := congrArg List.getLast? htext
    rw [← List.append_assoc, List.getLast?_concat, List.getLast?_append_cons] at hends
    exact List.mem_of_getLast? hends.symm
  rcases List.mem_cons.mp hmem with heq | hmem
  · exact hclose heq
  · have hspace := List.dropWhile_eq_nil_iff.mp hrest last hmem
    exact absurd ((Json.isBlank_of_isSpace hspace).symm.trans hblank) (by decide)

/-- What stands behind an object gives no other process. -/
theorem ofPart_append {inner front : List Char} {last : Char} {p' : ProcessGraph}
    (h : ofPart ('\x7b' :: inner) = .ok p) (hblank : Text.isBlank last = false)
    (hprose : Prose (front ++ [last]))
    (hwhole : ofPart ('\x7b' :: (inner ++ (front ++ [last]))) = .ok p') : p' = p := by
  obtain ⟨j, hj, hread⟩ := exists_json_of_ofPart h
  obtain ⟨j', hj', hread'⟩ := exists_json_of_ofPart hwhole
  have hlast : last ∉ marks := hprose last (by simp)
  have hclose : last ≠ '\x7d' := fun heq => hlast (heq ▸ by decide)
  have hnone := parse?_object_append inner front hblank hclose
  obtain hstrict | ⟨-, j5', hj5', hjson'⟩ := jsonOfText?_eq_some hj'
  · rw [hnone] at hstrict
    cases hstrict
  obtain ⟨rest', hvalue', hrest'⟩ := Json5.parse?_eq_some hj5'
  obtain ⟨limit, hlimit⟩ : ∃ n, n = ('\x7b' :: (inner ++ (front ++ [last]))).length + 1 := ⟨_, rfl⟩
  rw [Json5.skip_cons (by decide) (by decide), ← hlimit] at hvalue'
  rcases jsonOfText?_eq_some hj with hj | ⟨-, j5, hj5, hjson⟩
  · -- Both readers end the object at the same brace, and the prose is left behind it.
    obtain ⟨rest, hvalue, hrest⟩ := Json.parse?_eq_some hj
    rw [Json.skipSpace_cons (by decide)] at hvalue
    obtain ⟨text, rfl, hends⟩ := Json.exists_ends_of_value?_object limit limit hvalue
    obtain rfl := hends (rest ++ (front ++ [last])) j5' rest' (by simpa using hvalue')
    have hstroke : '/' ∉ rest ++ (front ++ [last]) := by
      intro hmem
      rcases List.mem_append.mp hmem with hmem | hmem
      · exact absurd (List.dropWhile_eq_nil_iff.mp hrest '/' hmem) (by decide)
      · exact hprose '/' hmem (by decide)
    have hspace := Json5.isSpace_of_skip_eq_nil hstroke hrest' last (by simp)
    have hmark : last ≠ '\ufeff' := fun heq => hlast (heq ▸ by decide)
    exact absurd ((Json5.isBlank_of_isSpace hspace hmark).symm.trans hblank) (by decide)
  · -- The object is JSON5, and it is read the same with prose behind it.
    obtain ⟨rest, hvalue, -⟩ := Json5.parse?_eq_some hj5
    rw [Json5.skip_cons (by decide) (by decide)] at hvalue
    have hle : ('\x7b' :: inner).length + 1 ≤ limit := by simp [hlimit]
    rw [Json5.value?_object_append hvalue hle hle] at hvalue'
    cases hvalue'
    obtain rfl := Except.ok.inj (hjson'.symm.trans hjson)
    exact Except.ok.inj (hread'.symm.trans hread)

/-- Prose on both sides of an object gives no other process. -/
theorem ofPart_around {inner front rest : List Char} {p' : ProcessGraph}
    (h : ofPart ('\x7b' :: inner) = .ok p) (hfront : Prose front) (hrest : Prose rest)
    (hwhole : ofPart (Text.trimStart front ++ '\x7b' :: inner ++ Text.trimEnd rest) = .ok p') :
    p' = p := by
  by_cases hblank : Text.trimStart front = []
  · rw [hblank, List.nil_append] at hwhole
    obtain hnone | ⟨tail, last, hlast⟩ := List.eq_nil_or_concat (Text.trimEnd rest)
    · rw [hnone, List.append_nil] at hwhole
      exact Except.ok.inj (hwhole.symm.trans h)
    · rw [List.concat_eq_append] at hlast
      have hend : Prose (tail ++ [last]) := fun c hc =>
        hrest c ((Text.prefix_trimEnd rest).subset (hlast ▸ hc))
      rw [hlast, List.cons_append] at hwhole
      exact ofPart_append h (Text.isBlank_last_of_trimEnd hlast) hend hwhole
  · have hhead : ∀ c ∈ (Text.trimStart front).head?, c ∉ ['\x7b', '/', '\ufeff'] := by
      intro c hc hmem
      have hsub : ['\x7b', '/', '\ufeff'] ⊆ marks := by simp [marks]
      have hin := (Text.suffix_trimStart front).subset (List.mem_of_mem_head? hc)
      exact hfront c hin (hsub hmem)
    rw [List.append_assoc] at hwhole
    exact absurd hwhole (not_ofPart_of_front hblank hhead)

theorem exists_inner {cs : List Char} (hopen : cs.head? = some '\x7b')
    (hclose : cs.getLast? = some '\x7d') : ∃ inner, cs = '\x7b' :: (inner ++ ['\x7d']) := by
  obtain ⟨tail, rfl⟩ := List.head?_eq_some_iff.mp hopen
  obtain rfl | ⟨inner, last, rfl⟩ := List.eq_nil_or_concat tail
  · cases hclose
  · rw [List.concat_eq_append, ← List.cons_append, List.getLast?_concat] at hclose
    cases hclose
    exact ⟨inner, by rw [List.concat_eq_append]⟩

/-- An object inside prose is found, whether the prose stands in front, behind, or both. -/
theorem ofText_inProse {front text rest : String} (hfront : Prose front.toList)
    (hrest : Prose rest.toList) (hopen : text.toList.head? = some '\x7b')
    (hclose : text.toList.getLast? = some '\x7d')
    (hfence : ¬Text.fence <:+: (front ++ text ++ rest).toList)
    (h : ofPart text.toList = .ok p) : ofText (front ++ text ++ rest) = .ok p := by
  obtain ⟨inner, htext⟩ := exists_inner hopen hclose
  have hwhole : Text.trim (front ++ text ++ rest).toList =
      Text.trimStart front.toList ++ text.toList ++ Text.trimEnd rest.toList := by
    rw [htext, ← Text.trim_around (by decide) (by decide), ← htext]
    simp
  have hbraced : Text.braced? (Text.trimStart front.toList ++ text.toList ++
      Text.trimEnd rest.toList) = some text.toList := by
    rw [htext]
    apply Text.braced?_around
    · exact fun hc => hfront _ ((Text.suffix_trimStart _).subset hc) (by decide)
    · exact fun hc => hrest _ ((Text.prefix_trimEnd _).subset hc) (by decide)
  have hunfenced := Text.fenced?_eq_none fun hin => hfence (hin.trans (Text.trim_infix _))
  rw [hwhole] at hunfenced
  refine ofText_of_second hwhole (by rw [parts, hunfenced, hbraced]; rfl) (by simp [htext]) h
    fun p' hp' => ?_
  rw [htext] at h hp'
  exact ofPart_around h hfront hrest hp'

/-- Brackets around the object make the whole an array, which is no process. -/
theorem ofText_inProse_array :
    (Prose "[".toList ∧ Prose "]".toList ∧ ofPart shortText.toList = .ok shortProcess) ∧
    ofText ("[" ++ shortText ++ "]") = .ok shortProcess := by
  have hfront : Prose "[".toList := forall_mem_of_all (by decide)
  have hrest : Prose "]".toList := forall_mem_of_all (by decide)
  refine ⟨⟨hfront, hrest, ofPart_shortText⟩, ?_⟩
  exact ofText_inProse hfront hrest (by decide) (by decide) (by decide) ofPart_shortText

end Prose

end ProcessGraph

end ProcessChart

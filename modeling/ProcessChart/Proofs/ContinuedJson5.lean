import ProcessChart.Proofs.NumberTexts

/-!
Reading JSON5 from a text that goes on. What a reader takes from the front of a
text it takes also when more text stands behind, and when lists, strings and
nesting may be longer. Values and identifiers are to be followed by a break,
since without one they could go on; an object closes itself.
-/

namespace ProcessChart.Json5

variable {c : Char} {cs rest : List Char}

section Strings

variable {quote : Char} {limit limit' count : Nat}

theorem literal?_append {word : List Char} (h : literal? word cs = some rest)
    (more : List Char) : literal? word (cs ++ more) = some (rest ++ more) := by
  unfold literal? at h
  split at h
  · next hword =>
    cases h
    obtain ⟨tail, rfl⟩ := List.isPrefixOf_iff_prefix.mp hword
    have hprefix : word.isPrefixOf (word ++ tail ++ more) = true :=
      List.isPrefixOf_iff_prefix.mpr ⟨tail ++ more, (List.append_assoc ..).symm⟩
    rw [literal?, if_pos hprefix, List.append_assoc, List.drop_left, List.drop_left]
  · cases h

theorem hexDigits?_append {digits : List Char} (h : hexDigits? count cs = some (digits, rest))
    (more : List Char) : hexDigits? count (cs ++ more) = some (digits, rest ++ more) := by
  unfold hexDigits? at h
  dsimp only at h
  split at h
  · next hdigits =>
    have hle : count ≤ cs.length := by
      simp only [Bool.and_eq_true, decide_eq_true_eq, List.length_take] at hdigits
      omega
    cases h
    rw [hexDigits?, List.take_append_of_le_length hle, if_pos hdigits,
      List.drop_append_of_le_length hle]
  · cases h

/-- A carriage return could be followed by a new line, so the text must not end behind it. -/
theorem escape?_append {parts : List Component} (h : escape? cs = some (parts, rest))
    (hne : rest ≠ []) (more : List Char) : escape? (cs ++ more) = some (parts, rest ++ more) := by
  unfold escape? at h
  split at h
  · cases h
  · cases h
    rfl
  · obtain ⟨⟨digits, tail⟩, hdigits, h⟩ := Option.map_eq_some_iff.mp h
    cases h
    rw [List.cons_append, escape?, hexDigits?_append hdigits]
    rfl
  · obtain ⟨⟨digits, tail⟩, hdigits, h⟩ := Option.map_eq_some_iff.mp h
    cases h
    rw [List.cons_append, escape?, hexDigits?_append hdigits]
    rfl
  · cases h
    rfl
  · next c tail hnul hhex hunicode hreturn =>
    have hrest : rest = tail := by
      split_ifs at h <;> cases h <;> rfl
    subst hrest
    have hreturn' : ∀ after, c = '\r' → rest ++ more = '\n' :: after → False := by
      intro after hc hafter
      obtain ⟨d, rest, rfl⟩ := List.exists_cons_of_ne_nil hne
      obtain ⟨rfl, -⟩ := List.cons.inj hafter
      exact hreturn rest hc rfl
    rw [List.cons_append, escape?.eq_6 c _ hnul hhex hunicode hreturn']
    split_ifs at h ⊢ <;> cases h <;> rfl

theorem components?_append {parts : List Component}
    (h : components? quote limit cs = some (parts, rest)) (hle : limit ≤ limit')
    (more : List Char) : components? quote limit' (cs ++ more) = some (parts, rest ++ more) := by
  induction limit generalizing limit' cs parts with
  | zero => cases cs <;> cases h
  | succ limit ih =>
    obtain ⟨limit', rfl⟩ := Nat.exists_eq_add_one_of_ne_zero (Nat.ne_zero_of_lt hle)
    have hlater : ∀ {cs others}, components? quote limit cs = some (others, rest) →
        components? quote limit' (cs ++ more) = some (others, rest ++ more) :=
      fun h => ih h (Nat.le_of_succ_le_succ hle)
    cases cs with
    | nil => cases h
    | cons c tail =>
      rw [components?] at h
      rw [List.cons_append, components?]
      split_ifs at h ⊢ with hquote hstroke hline
      · cases h
        rfl
      · obtain ⟨⟨first, after⟩, hescape, h⟩ := Option.bind_eq_some_iff.mp h
        obtain ⟨⟨others, last⟩, hothers, h⟩ := Option.bind_eq_some_iff.mp h
        cases h
        have hne : after ≠ [] := by
          rintro rfl
          cases limit <;> cases hothers
        simp [escape?_append hescape hne, hlater hothers]
      · obtain ⟨⟨others, last⟩, hothers, h⟩ := Option.bind_eq_some_iff.mp h
        cases h
        simp [hlater hothers]

end Strings

section Keys

variable {limit limit' : Nat} {fits : Char → Bool}

theorem identifierPart?_append {part : Component} (hfits : fits '\\' = false)
    (h : identifierPart? fits cs = some (part, rest)) (more : List Char) :
    identifierPart? fits (cs ++ more) = some (part, rest ++ more) := by
  unfold identifierPart? at h
  split at h
  · obtain ⟨⟨digits, tail⟩, hdigits, h⟩ := Option.map_eq_some_iff.mp h
    cases h
    rw [List.cons_append, List.cons_append, identifierPart?, hexDigits?_append hdigits]
    rfl
  · next c tail hunicode =>
    split at h
    · next hc =>
      cases h
      have hstroke : c ≠ '\\' := by
        rintro rfl
        exact absurd (hc.symm.trans hfits) (by decide)
      rw [List.cons_append, identifierPart?.eq_2 _ _ _ fun _ h _ => hstroke h, if_pos hc]
    · cases h
  · cases h

theorem startsIdentifier_stroke : startsIdentifier '\\' = false := by decide +kernel

theorem continuesIdentifier_stroke : continuesIdentifier '\\' = false := by decide +kernel

/-- No part of an identifier begins with a break. -/
theorem identifierPart?_of_breaks (h : Breaks cs) :
    identifierPart? continuesIdentifier cs = none := by
  obtain ⟨c, hc, more, rfl⟩ := h
  have hstroke : c ≠ '\\' := ne_of_mem_breaks hc (by decide)
  rw [identifierPart?.eq_2 _ _ _ fun _ h _ => hstroke h, if_neg]
  simp [(of_mem_breaks c hc).1]

theorem identifierParts_append {parts : List Component}
    (h : identifierParts limit cs = (parts, rest)) (hrest : Breaks rest) (hle : limit ≤ limit')
    (more : List Char) : identifierParts limit' (cs ++ more) = (parts, rest ++ more) := by
  induction limit generalizing limit' cs parts with
  | zero =>
    cases h
    cases limit' with
    | zero => rfl
    | succ limit' => rw [identifierParts, identifierPart?_of_breaks (hrest.append more)]
  | succ limit ih =>
    obtain ⟨limit', rfl⟩ := Nat.exists_eq_add_one_of_ne_zero (Nat.ne_zero_of_lt hle)
    rw [identifierParts] at h ⊢
    cases hpart : identifierPart? continuesIdentifier cs with
    | none =>
      rw [hpart] at h
      cases h
      rw [identifierPart?_of_breaks (hrest.append more)]
    | some first =>
      obtain ⟨part, tail⟩ := first
      rw [hpart] at h
      rw [identifierPart?_append continuesIdentifier_stroke hpart]
      cases hparts : identifierParts limit tail with
      | mk others last =>
        simp only [hparts, Prod.mk.injEq] at h
        obtain ⟨rfl, rfl⟩ := h
        simp [ih hparts (Nat.le_of_succ_le_succ hle)]

theorem identifier?_append {parts : List Component}
    (h : identifier? limit cs = some (parts, rest)) (hrest : Breaks rest) (hle : limit ≤ limit')
    (more : List Char) : identifier? limit' (cs ++ more) = some (parts, rest ++ more) := by
  obtain ⟨⟨part, tail⟩, hpart, h⟩ := Option.bind_eq_some_iff.mp h
  cases hparts : identifierParts limit tail with
  | mk others last =>
    simp only [hparts, Option.pure_def, Option.some.injEq, Prod.mk.injEq] at h
    obtain ⟨rfl, rfl⟩ := h
    rw [identifier?, identifierPart?_append startsIdentifier_stroke hpart]
    simp [identifierParts_append hparts hrest hle]

theorem string?_append {parts : List Component}
    (h : string? limit cs = some (parts, rest)) (hle : limit ≤ limit')
    (more : List Char) : string? limit' (cs ++ more) = some (parts, rest ++ more) := by
  unfold string? at h
  split at h
  · exact components?_append h hle more
  · exact components?_append h hle more
  · cases h

/-- No identifier begins with a quote. -/
theorem identifier?_quote (hc : c = '"' ∨ c = '\'') (more : List Char) :
    identifier? limit (c :: more) = none := by
  have hquotes : startsIdentifier '"' = false ∧ startsIdentifier '\'' = false := by
    decide +kernel
  rcases hc with rfl | rfl
  · simp [identifier?, identifierPart?, hquotes.1]
  · simp [identifier?, identifierPart?, hquotes.2]

theorem exists_quote_of_string? {r : List Component × List Char} (h : string? limit cs = some r) :
    ∃ quote more, (quote = '"' ∨ quote = '\'') ∧ cs = quote :: more := by
  unfold string? at h
  split at h
  · exact ⟨'"', _, Or.inl rfl, rfl⟩
  · exact ⟨'\'', _, Or.inr rfl, rfl⟩
  · cases h

theorem key?_append {parts : List Component}
    (h : key? limit cs = some (parts, rest)) (hrest : Breaks rest) (hle : limit ≤ limit')
    (more : List Char) : key? limit' (cs ++ more) = some (parts, rest ++ more) := by
  rw [key?, Option.or_eq_some_iff] at h
  rcases h with h | ⟨-, h⟩
  · rw [key?, identifier?_append h hrest hle, Option.some_or]
  · obtain ⟨quote, tail, hquote, htail⟩ := exists_quote_of_string? h
    rw [key?, string?_append h hle, htail, List.cons_append, identifier?_quote hquote,
      Option.none_or]

end Keys

section Values

variable {α : Type} {item? item?' : List Char → Option (α × List Char)} {close : Char}
  {limit limit' : Nat}

/-- In a text that goes on after the end of a word, the second reader takes what the first takes,
and the first takes nothing that begins with a stroke. -/
structure Continues (item? item?' : List Char → Option (α × List Char)) : Prop where
  append {cs rest : List Char} {x : α} (h : item? cs = some (x, rest)) (hrest : Breaks rest)
    (more : List Char) : item?' (cs ++ more) = some (x, rest ++ more)
  head {cs : List Char} {r : α × List Char} (h : item? cs = some r) :
    ∃ c tail, cs = c :: tail ∧ c ≠ '/'

theorem Continues.ne_stroke (h : Continues item? item?') {r : α × List Char} {tail : List Char}
    (hitem : item? (c :: tail) = some r) : c ≠ '/' := by
  obtain ⟨d, more, heq, hd⟩ := h.head hitem
  rwa [(List.cons.inj heq).1]

/-- What stands behind an item: the end of the list, a comma and the end, or a comma and another
item. -/
theorem items?_eq_some {xs : List α} (h : items? item? close (limit + 1) cs = some (xs, rest)) :
    ∃ x after, item? cs = some (x, after) ∧
      (skip after = close :: rest ∧ xs = [x] ∨
        ∃ more, skip after = ',' :: more ∧
          (skip more = close :: rest ∧ xs = [x] ∨
            ∃ next tail ys, skip more = next :: tail ∧ next ≠ close ∧
              items? item? close limit (next :: tail) = some (ys, rest) ∧ xs = x :: ys)) := by
  obtain ⟨⟨x, after⟩, hx, h⟩ := Option.bind_eq_some_iff.mp h
  refine ⟨x, after, hx, ?_⟩
  dsimp only at h
  split at h
  · cases h
  · next c more hskip =>
    split_ifs at h with hclose hcomma
    · cases h
      exact Or.inl ⟨hclose ▸ hskip, rfl⟩
    · subst hcomma
      refine Or.inr ⟨more, hskip, ?_⟩
      split at h
      · cases h
      · next c tail hnext =>
        split_ifs at h with hend
        · cases h
          exact Or.inl ⟨hend ▸ hnext, rfl⟩
        · obtain ⟨⟨ys, last⟩, hys, h⟩ := Option.bind_eq_some_iff.mp h
          cases h
          exact Or.inr ⟨c, tail, ys, hnext, hend, hys, rfl⟩

theorem Continues.items?_ne_stroke (h : Continues item? item?') {r : List α × List Char}
    {tail : List Char} (hitems : items? item? close limit (c :: tail) = some r) : c ≠ '/' := by
  cases limit with
  | zero => cases hitems
  | succ limit =>
    obtain ⟨x, after, hx, -⟩ := items?_eq_some hitems
    exact h.ne_stroke hx

theorem items?_append (hitem : Continues item? item?') (hclose : close = ']' ∨ close = '\x7d')
    {xs : List α} (h : items? item? close limit cs = some (xs, rest)) (hle : limit ≤ limit')
    (more : List Char) : items? item?' close limit' (cs ++ more) = some (xs, rest ++ more) := by
  obtain ⟨hbreak, -, hstroke, hcomma⟩ := of_close hclose
  induction limit generalizing limit' cs xs with
  | zero => cases h
  | succ limit ih =>
    obtain ⟨limit', rfl⟩ := Nat.exists_eq_add_one_of_ne_zero (Nat.ne_zero_of_lt hle)
    obtain ⟨x, after, hx, ⟨hskip, rfl⟩ | ⟨tail, hskip, hnext⟩⟩ := items?_eq_some h
    · have hx' := hitem.append hx (breaks_of_skip hskip hbreak) more
      simp [items?, hx', skip_append hskip hstroke]
    · have hx' := hitem.append hx (breaks_of_skip hskip (by decide)) more
      have hskip' := skip_append hskip (by decide) more
      obtain ⟨hend, rfl⟩ | ⟨next, others, ys, hnext, hne, hys, rfl⟩ := hnext
      · simp [items?, hx', hskip', hcomma.symm, skip_append hend hstroke]
      · have hhead := hitem.items?_ne_stroke hys
        have hys' := ih hys (Nat.le_of_succ_le_succ hle)
        rw [List.cons_append] at hys'
        simp [items?, hx', hskip', hcomma.symm, skip_append hnext hhead, hne, hys']

theorem list?_append (hitem : Continues item? item?') (hclose : close = ']' ∨ close = '\x7d')
    {xs : List α} (h : list? item? close limit cs = some (xs, rest)) (hle : limit ≤ limit')
    (more : List Char) : list? item?' close limit' (cs ++ more) = some (xs, rest ++ more) := by
  obtain ⟨-, -, hstroke, -⟩ := of_close hclose
  unfold list? at h
  split at h
  · cases h
  · next c tail hskip =>
    split_ifs at h with hc
    · cases h
      subst hc
      simp [list?, skip_append hskip hstroke]
    · have hhead := hitem.items?_ne_stroke h
      have hxs := items?_append hitem hclose h hle more
      rw [List.cons_append] at hxs
      simp [list?, skip_append hskip hhead, hc, hxs]

variable {read? read?' : List Char → Option (Json5 × List Char)}

theorem member?_append (hvalue : Continues read? read?')
    {entry : List Component × Json5} (h : member? read? limit cs = some (entry, rest))
    (hrest : Breaks rest) (hle : limit ≤ limit') (more : List Char) :
    member? read?' limit' (cs ++ more) = some (entry, rest ++ more) := by
  obtain ⟨⟨key, after⟩, hkey, h⟩ := Option.bind_eq_some_iff.mp h
  dsimp only at h
  split at h
  · next tail hskip =>
    obtain ⟨⟨value, last⟩, hread, h⟩ := Option.bind_eq_some_iff.mp h
    cases h
    have hkey' := key?_append hkey (breaks_of_skip hskip (by decide)) hle more
    obtain ⟨c, front, hvalueText, hhead⟩ := hvalue.head hread
    have hread' := hvalue.append hread hrest more
    rw [hvalueText, List.cons_append] at hread'
    simp [member?, hkey', skip_append hskip (by decide), skip_append hvalueText hhead, hread']
  · cases h

theorem key?_stroke (rest : List Char) : key? limit ('/' :: rest) = none := by
  have hstart : startsIdentifier '/' = false := by decide +kernel
  simp [key?, identifier?, identifierPart?, string?, hstart]

theorem Continues.member? (hvalue : Continues read? read?') (hle : limit ≤ limit') :
    Continues (member? read? limit) (member? read?' limit') where
  append h hrest more := member?_append hvalue h hrest hle more
  head {cs r} h := by
    obtain ⟨key, hkey, -⟩ := Option.bind_eq_some_iff.mp h
    cases cs with
    | nil => cases hkey
    | cons c tail =>
      refine ⟨c, tail, rfl, ?_⟩
      rintro rfl
      rw [key?_stroke] at hkey
      cases hkey

theorem number?_stroke (rest : List Char) : number? ('/' :: rest) = none := by
  have hdigit : Decimal.isDigit '/' = false := by decide
  simp [number?, unsignedLength, hexLength, decimalLength, wholeLength, hdigit]

theorem value?_head {depth : Nat} {r : Json5 × List Char} (h : value? limit depth cs = some r) :
    ∃ c tail, cs = c :: tail ∧ c ≠ '/' := by
  cases cs with
  | nil => cases depth <;> cases h
  | cons c tail =>
    refine ⟨c, tail, rfl, ?_⟩
    rintro rfl
    cases depth with
    | zero => cases h
    | succ depth =>
      rw [value?, number?_stroke] at h
      · cases h
      all_goals decide

theorem word_append {word : List Char} {j j' : Json5}
    (h : (literal? word cs).map (j, ·) = some (j', rest)) (more : List Char) :
    (literal? word (cs ++ more)).map (j, ·) = some (j', rest ++ more) := by
  obtain ⟨after, hword, h⟩ := Option.map_eq_some_iff.mp h
  cases h
  rw [literal?_append hword]
  rfl

/-- A value made of what a reader takes is read in the longer text if the reader's part is. -/
theorem mapped_append {read? read?' : List Char → Option (α × List Char)} {f : α → Json5}
    {j : Json5} {more : List Char}
    (happend : ∀ {x}, read? cs = some (x, rest) → read?' (cs ++ more) = some (x, rest ++ more))
    (h : ((read? cs).map fun r => (f r.1, r.2)) = some (j, rest)) :
    ((read?' (cs ++ more)).map fun r => (f r.1, r.2)) = some (j, rest ++ more) := by
  obtain ⟨⟨x, after⟩, hread, h⟩ := Option.map_eq_some_iff.mp h
  cases h
  rw [happend hread]
  rfl

/-- By induction on the depth, of which the longer text may have more. -/
theorem continues_value? (hle : limit ≤ limit') {depth depth' : Nat} (hdepth : depth ≤ depth') :
    Continues (value? limit depth) (value? limit' depth') := by
  induction depth generalizing depth' with
  | zero =>
    refine ⟨fun {cs} {_} {_} h => ?_, value?_head⟩
    cases cs <;> cases h
  | succ depth ih =>
    obtain ⟨depth', rfl⟩ := Nat.exists_eq_add_one_of_ne_zero (Nat.ne_zero_of_lt hdepth)
    have hvalue := ih (Nat.le_of_succ_le_succ hdepth)
    refine ⟨fun {cs} {rest} {j} h hrest more => ?_, value?_head⟩
    obtain ⟨c, tail, rfl, hhead⟩ := value?_head h
    rw [value?.eq_def] at h
    dsimp only at h
    split at h
    · exact word_append h more
    · exact word_append h more
    · exact word_append h more
    · exact mapped_append (fun hread => components?_append hread hle more) h
    · exact mapped_append (fun hread => components?_append hread hle more) h
    · exact mapped_append (fun hread => list?_append hvalue (Or.inl rfl) hread hle more) h
    · exact mapped_append
        (fun hread => list?_append (hvalue.member? hle) (Or.inr rfl) hread hle more) h
    · have hnumber := mapped_append (fun hread => number?_append hread hrest more) h
      rw [List.cons_append] at hnumber
      rw [List.cons_append, value?, hnumber]
      all_goals assumption

/-- An object is read the same in a text that goes on, whatever follows it. -/
theorem value?_object_append {depth depth' : Nat} {j : Json5}
    (h : value? limit depth ('\x7b' :: cs) = some (j, rest)) (hle : limit ≤ limit')
    (hdepth : depth ≤ depth') (more : List Char) :
    value? limit' depth' ('\x7b' :: (cs ++ more)) = some (j, rest ++ more) := by
  cases depth with
  | zero => cases h
  | succ depth =>
    obtain ⟨depth', rfl⟩ := Nat.exists_eq_add_one_of_ne_zero (Nat.ne_zero_of_lt hdepth)
    have hvalue := continues_value? hle (Nat.le_of_succ_le_succ hdepth)
    exact mapped_append
      (fun hread => list?_append (hvalue.member? hle) (Or.inr rfl) hread hle more) h

end Values

end ProcessChart.Json5

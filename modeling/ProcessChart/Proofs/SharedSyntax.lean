import ProcessChart.Proofs.ContinuedJson5
import Mathlib.Data.List.DropRight

/-!
Texts that both readers accept. Where the strict reader has taken a value from
the front of a text, the reader of JSON5 cannot end anywhere else, whatever
stands behind: it either fails or takes exactly the same characters. Behind
numbers and words a break is needed, behind strings, arrays and objects is not.
-/

namespace ProcessChart.Json

/-- If the reader takes anything from this text and what follows, it takes this text. -/
def Ends {α : Type} (read? : List Char → Option (α × List Char)) (text more : List Char) : Prop :=
  ∀ a rest, read? (text ++ more) = some (a, rest) → rest = more

variable {c : Char} {cs rest : List Char} {limit : Nat}

section Strings

/-- A stretch of a string that JSON5 passes over: behind it the string goes on. -/
def Passes (text : List Char) : Prop :=
  ∀ more limit parts rest, Json5.components? '"' limit (text ++ more) = some (parts, rest) →
    ∃ limit' others, Json5.components? '"' limit' more = some (others, rest)

theorem Passes.append {front text : List Char} (hfront : Passes front) (htext : Passes text) :
    Passes (front ++ text) := by
  intro more limit parts rest h
  rw [List.append_assoc] at h
  obtain ⟨limit', others, hothers⟩ := hfront _ _ _ _ h
  exact htext _ _ _ _ hothers

theorem Passes.ends {front text : List Char} (hfront : Passes front)
    (htext : ∀ more limit, Ends (Json5.components? '"' limit) text more) (more : List Char)
    (limit : Nat) : Ends (Json5.components? '"' limit) (front ++ text) more := by
  intro parts rest h
  rw [List.append_assoc] at h
  obtain ⟨limit', others, hothers⟩ := hfront _ _ _ _ h
  exact htext more limit' others rest hothers

theorem passes_char (hquote : c ≠ '"') (hstroke : c ≠ '\\') : Passes [c] := by
  intro more limit parts rest h
  cases limit with
  | zero => cases h
  | succ limit =>
    rw [List.singleton_append, Json5.components?, if_neg hquote, if_neg hstroke] at h
    split at h
    · cases h
    · obtain ⟨⟨others, last⟩, hothers, h⟩ := Option.bind_eq_some_iff.mp h
      cases h
      exact ⟨limit, others, hothers⟩

/-- An escape is passed over when its body is all that is taken behind the stroke. -/
theorem passes_escape {body : List Char}
    (h : ∀ more parts rest, Json5.escape? (body ++ more) = some (parts, rest) → rest = more) :
    Passes ('\\' :: body) := by
  intro more limit parts rest hread
  cases limit with
  | zero => cases hread
  | succ limit =>
    rw [List.cons_append, Json5.components?, if_neg (by decide), if_pos rfl] at hread
    obtain ⟨⟨first, after⟩, hescape, hread⟩ := Option.bind_eq_some_iff.mp hread
    obtain ⟨⟨others, last⟩, hothers, hread⟩ := Option.bind_eq_some_iff.mp hread
    cases hread
    obtain rfl := h more first after hescape
    exact ⟨limit, others, hothers⟩

theorem passes_short (hc : c ∈ ['"', '\\', '/', 'b', 'f', 'n', 'r', 't']) :
    Passes ['\\', c] := by
  apply passes_escape
  intro more parts rest h
  have hescape : Json5.escape? ([c] ++ more) = some ([.escaped c], more) := by
    simp only [List.mem_cons, List.not_mem_nil, or_false] at hc
    rcases hc with rfl | rfl | rfl | rfl | rfl | rfl | rfl | rfl <;> rfl
  rw [hescape] at h
  cases h
  rfl

theorem passes_unicode {digits : List Char} (hlength : digits.length = 4) :
    Passes ('\\' :: 'u' :: digits) := by
  apply passes_escape
  intro more parts rest h
  obtain ⟨⟨ds, after⟩, hdigits, h⟩ := Option.map_eq_some_iff.mp h
  cases h
  unfold Json5.hexDigits? at hdigits
  dsimp only at hdigits
  split at hdigits
  · cases hdigits
    exact List.drop_left' hlength
  · cases hdigits

theorem exists_digits_of_unit? {n : Nat} (h : unit? cs = some (n, rest)) :
    ∃ digits, digits.length = 4 ∧ cs = digits ++ rest := by
  unfold unit? at h
  split at h
  · next a b c d tail =>
    obtain ⟨code, -, h⟩ := Option.map_eq_some_iff.mp h
    cases h
    exact ⟨[a, b, c, d], rfl, rfl⟩
  · cases h

theorem exists_passes_of_unicodeEscape? {x : Char} (h : unicodeEscape? cs = some (x, rest)) :
    ∃ body, cs = body ++ rest ∧ Passes ('\\' :: 'u' :: body) := by
  obtain ⟨⟨unit, after⟩, hunit, h⟩ := Option.bind_eq_some_iff.mp h
  dsimp only at h
  obtain ⟨digits, hlength, hcs⟩ := exists_digits_of_unit? hunit
  rw [hcs]
  split at h
  · cases h
  · split at h
    · -- A trailing surrogate is an escape of its own in JSON5.
      split at h
      · next more =>
        obtain ⟨⟨trail, last⟩, htrail, h⟩ := Option.bind_eq_some_iff.mp h
        obtain ⟨digits', hlength', hmore⟩ := exists_digits_of_unit? htrail
        rw [hmore]
        split at h
        · simp only [Option.some.injEq, Prod.mk.injEq] at h
          obtain ⟨-, rfl⟩ := h
          refine ⟨digits ++ '\\' :: 'u' :: digits', by simp, ?_⟩
          exact (passes_unicode hlength).append (passes_unicode hlength')
        · cases h
      · cases h
    · simp only [Option.some.injEq, Prod.mk.injEq] at h
      obtain ⟨-, rfl⟩ := h
      exact ⟨digits, rfl, passes_unicode hlength⟩

theorem exists_passes_of_escape? {x : Char} (h : escape? cs = some (x, rest)) :
    ∃ body, cs = body ++ rest ∧ Passes ('\\' :: body) := by
  unfold escape? at h
  split at h
  case h_9 =>
    obtain ⟨body, rfl, hbody⟩ := exists_passes_of_unicodeEscape? h
    exact ⟨'u' :: body, rfl, hbody⟩
  case h_10 => cases h
  all_goals
    cases h
    exact ⟨[_], rfl, passes_short (by decide)⟩

/-- A string of strict JSON ends at its quote for JSON5 too. -/
theorem exists_ends_of_chars? {xs : List Char} (h : chars? limit cs = some (xs, rest)) :
    ∃ text, cs = text ++ rest ∧ ∀ more limit', Ends (Json5.components? '"' limit') text more := by
  induction limit generalizing cs xs with
  | zero => cases cs <;> cases h
  | succ limit ih =>
    cases cs with
    | nil => cases h
    | cons c tail =>
      rw [chars?] at h
      split_ifs at h with hquote hstroke hcontrol
      · cases h
        subst hquote
        refine ⟨['"'], rfl, fun more limit' parts last h => ?_⟩
        cases limit' with
        | zero => cases h
        | succ limit' =>
          rw [List.singleton_append, Json5.components?, if_pos rfl] at h
          cases h
          rfl
      · obtain ⟨⟨x, after⟩, hescape, h⟩ := Option.bind_eq_some_iff.mp h
        obtain ⟨⟨others, last⟩, hothers, h⟩ := Option.bind_eq_some_iff.mp h
        cases h
        subst hstroke
        obtain ⟨body, rfl, hbody⟩ := exists_passes_of_escape? hescape
        obtain ⟨text, rfl, htext⟩ := ih hothers
        exact ⟨'\\' :: body ++ text, by simp, hbody.ends htext⟩
      · obtain ⟨⟨others, last⟩, hothers, h⟩ := Option.bind_eq_some_iff.mp h
        cases h
        obtain ⟨text, rfl, htext⟩ := ih hothers
        exact ⟨[c] ++ text, rfl, (passes_char hquote hstroke).ends htext⟩

theorem exists_ends_of_string? {s : String} (h : string? limit cs = some (s, rest)) :
    ∃ text, cs = '"' :: (text ++ rest) ∧
      ∀ more limit', Ends (Json5.components? '"' limit') text more := by
  unfold string? at h
  split at h
  · obtain ⟨⟨xs, last⟩, hchars, h⟩ := Option.map_eq_some_iff.mp h
    cases h
    obtain ⟨text, rfl, htext⟩ := exists_ends_of_chars? hchars
    exact ⟨text, rfl, htext⟩
  · cases h

end Strings

section Lists

variable {α β : Type} {item? : List Char → Option (α × List Char)}
  {item5? : List Char → Option (β × List Char)} {close : Char}

/-- The text begins with a character that is no blank, opens no comment and ends no list. -/
def Starts (text : List Char) : Prop :=
  ∃ c more, text = c :: more ∧ Json5.isSpace c = false ∧ c ∉ ['/', ']', '\x7d']

/-- What the strict reader takes is a text behind which, at a break, the reader of JSON5 ends. -/
def Shared (item? : List Char → Option (α × List Char))
    (item5? : List Char → Option (β × List Char)) : Prop :=
  ∀ {cs rest x}, item? cs = some (x, rest) →
    ∃ text, cs = text ++ rest ∧ Starts text ∧ ∀ more, Json5.Breaks more → Ends item5? text more

theorem Starts.append {text : List Char} (h : Starts text) (more : List Char) :
    Starts (text ++ more) := by
  obtain ⟨c, tail, rfl, hc⟩ := h
  exact ⟨c, tail ++ more, rfl, hc⟩

theorem starts_cons (hc : c ∉ Json5.breaks) (more : List Char) : Starts (c :: more) := by
  refine ⟨c, more, rfl, ?_, fun hmem => hc ?_⟩
  · rw [← Bool.not_eq_true]
    exact fun hspace => hc (Json5.mem_breaks_of_isSpace hspace)
  · have hall : ∀ c ∈ ['/', ']', '\x7d'], c ∈ Json5.breaks := forall_mem_of_all (by decide)
    exact hall c hmem

theorem exists_blanks (cs : List Char) :
    ∃ blanks, (∀ c ∈ blanks, isSpace c = true) ∧ cs = blanks ++ skipSpace cs :=
  ⟨cs.takeWhile isSpace, fun _ hc => List.mem_takeWhile_imp hc,
    (List.takeWhile_append_dropWhile ..).symm⟩

theorem items?_eq_some {xs : List α} (h : items? item? close (limit + 1) cs = some (xs, rest)) :
    ∃ x after, item? (skipSpace cs) = some (x, after) ∧
      (skipSpace after = close :: rest ∧ xs = [x] ∨
        ∃ more ys, skipSpace after = ',' :: more ∧ items? item? close limit more = some (ys, rest) ∧
          xs = x :: ys) := by
  obtain ⟨⟨x, after⟩, hx, h⟩ := Option.bind_eq_some_iff.mp h
  refine ⟨x, after, hx, ?_⟩
  dsimp only at h
  split at h
  · cases h
  · next c more hskip =>
    split_ifs at h with hclose hcomma
    · cases h
      exact Or.inl ⟨hclose ▸ hskip, rfl⟩
    · subst hcomma
      obtain ⟨⟨ys, last⟩, hys, h⟩ := Option.bind_eq_some_iff.mp h
      cases h
      exact Or.inr ⟨more, ys, hskip, hys, rfl⟩

/-- What the reader of JSON5 makes of the mark behind an item. -/
theorem items5?_mark {text blanks last : List Char} {ys : List β}
    (hends : ∀ more, Json5.Breaks more → Ends item5? text more)
    (hblanks : ∀ d ∈ blanks, isSpace d = true) (hmark : c ∈ [',', ']', '\x7d'])
    (more : List Char)
    (h : Json5.items? item5? close (limit + 1) (text ++ (blanks ++ c :: more)) = some (ys, last)) :
    c = close ∧ last = more ∨
      c = ',' ∧ (Json5.skip more = close :: last ∨
        ∃ next tail zs, Json5.skip more = next :: tail ∧ next ≠ close ∧
          Json5.items? item5? close limit (next :: tail) = some (zs, last)) := by
  have hall : ∀ c ∈ [',', ']', '\x7d'], Json5.isSpace c = false ∧ c ≠ '/' ∧ c ∈ Json5.breaks :=
    forall_mem_of_all (by decide)
  obtain ⟨hspace, hstroke, hbreak⟩ := hall c hmark
  have hskip := Json5.skip_blanks hblanks hspace hstroke more
  obtain ⟨y, after, hy, hafter⟩ := Json5.items?_eq_some h
  obtain rfl := hends _ (Json5.breaks_of_skip hskip hbreak) y after hy
  rw [hskip] at hafter
  obtain ⟨hlast, -⟩ | ⟨tail, htail, hnext⟩ := hafter
  · obtain ⟨rfl, rfl⟩ := List.cons.inj hlast
    exact Or.inl ⟨rfl, rfl⟩
  · obtain ⟨rfl, rfl⟩ := List.cons.inj htail
    obtain ⟨hlast, -⟩ | ⟨next, tail, zs, hskip, hne, hzs, -⟩ := hnext
    · exact Or.inr ⟨rfl, Or.inl hlast⟩
    · exact Or.inr ⟨rfl, Or.inr ⟨next, tail, zs, hskip, hne, hzs⟩⟩

theorem Starts.skip_blanks {text blanks : List Char} (h : Starts text)
    (hblanks : ∀ d ∈ blanks, isSpace d = true) (more : List Char) :
    Json5.skip (blanks ++ (text ++ more)) = text ++ more := by
  obtain ⟨c, tail, rfl, hspace, hc⟩ := h
  exact Json5.skip_blanks hblanks hspace (fun heq => hc (heq ▸ List.mem_cons_self)) _

theorem Starts.ne_close {text : List Char} (h : Starts text) (hclose : close = ']' ∨ close = '\x7d')
    (more : List Char) (last : List Char) : text ++ more ≠ close :: last := by
  obtain ⟨c, tail, rfl, -, hc⟩ := h
  rintro heq
  obtain ⟨rfl, -⟩ := List.cons.inj heq
  rcases hclose with rfl | rfl <;> exact hc (by simp)

/-- Items of strict JSON are the same items for JSON5, up to the closing bracket. -/
theorem exists_ends_of_items? (hitem : Shared item? item5?) (hclose : close = ']' ∨ close = '\x7d')
    {xs : List α} (h : items? item? close limit cs = some (xs, rest)) :
    ∃ text, skipSpace cs = text ++ close :: rest ∧ Starts text ∧
      ∀ more limit', Ends (Json5.items? item5? close limit') (text ++ [close]) more := by
  have hmark : close ∈ [',', ']', '\x7d'] := by rcases hclose with rfl | rfl <;> decide
  obtain ⟨-, -, -, hcomma⟩ := Json5.of_close hclose
  -- The strict reader goes through the list; the other is asked again behind every comma.
  induction limit generalizing cs xs with
  | zero => cases h
  | succ limit ih =>
    obtain ⟨x, after, hx, hafter⟩ := items?_eq_some h
    obtain ⟨text, htext, hstarts, hends⟩ := hitem hx
    obtain ⟨blanks, hblanks, hafterText⟩ := exists_blanks after
    obtain ⟨hskip, -⟩ | ⟨tail, ys, hskip, hys, -⟩ := hafter
    · refine ⟨text ++ blanks, ?_, hstarts.append blanks, fun more limit' zs last hread => ?_⟩
      · rw [htext, hafterText, hskip, List.append_assoc]
      · cases limit' with
        | zero => cases hread
        | succ limit' =>
          obtain ⟨-, hlast⟩ | ⟨heq, -⟩ :=
            items5?_mark hends hblanks hmark more (by simpa using hread)
          · exact hlast
          · exact absurd heq hcomma
    · obtain ⟨later, hlater, hlaterStarts, hlaterEnds⟩ := ih hys
      obtain ⟨gap, hgap, htail⟩ := exists_blanks tail
      refine ⟨text ++ (blanks ++ ',' :: (gap ++ later)), ?_, hstarts.append _,
        fun more limit' zs last hread => ?_⟩
      · rw [htext, hafterText, hskip, htail, hlater]
        simp
      · cases limit' with
        | zero => cases hread
        | succ limit' =>
          have hnext := hlaterStarts.skip_blanks hgap (close :: more)
          obtain ⟨heq, -⟩ | ⟨-, hend | ⟨next, front, zs, hfront, -, hzs⟩⟩ :=
            items5?_mark hends hblanks List.mem_cons_self (gap ++ (later ++ close :: more))
              (by simpa using hread)
          · exact absurd heq.symm hcomma
          · exact absurd (hnext.symm.trans hend) (hlaterStarts.ne_close hclose _ last)
          · rw [← hfront, hnext] at hzs
            exact hlaterEnds more limit' zs last (by simpa using hzs)

/-- A list of strict JSON ends at its closing bracket for JSON5 too. -/
theorem exists_ends_of_list? (hitem : Shared item? item5?) (hclose : close = ']' ∨ close = '\x7d')
    {xs : List α} (h : list? item? close limit cs = some (xs, rest)) :
    ∃ text, cs = text ++ close :: rest ∧
      ∀ more limit', Ends (Json5.list? item5? close limit') (text ++ [close]) more := by
  obtain ⟨-, hspace, hstroke, -⟩ := Json5.of_close hclose
  obtain ⟨blanks, hblanks, hcs⟩ := exists_blanks cs
  unfold list? at h
  split at h
  · cases h
  · next c tail hskip =>
    split_ifs at h with hc
    · cases h
      refine ⟨blanks, by rw [hcs, hskip, hc], fun more limit' ys last hread => ?_⟩
      have hread' :
          Json5.list? item5? close limit' (blanks ++ close :: more) = some ([], more) := by
        simp [Json5.list?, Json5.skip_blanks hblanks hspace hstroke]
      rw [List.append_assoc, List.singleton_append, hread'] at hread
      cases hread
      rfl
    · obtain ⟨text, htext, hstarts, hends⟩ := exists_ends_of_items? hitem hclose h
      rw [← hskip, skipSpace, skipSpace, List.dropWhile_idempotent, ← skipSpace] at htext
      refine ⟨blanks ++ text, by rw [hcs, htext, List.append_assoc],
        fun more limit' ys last hread => ?_⟩
      have hstart := hstarts.skip_blanks hblanks (close :: more)
      rw [List.append_assoc, List.append_assoc, List.singleton_append, Json5.list?, hstart] at hread
      split at hread
      · cases hread
      · next d front hfront =>
        have hd : d ≠ close := by
          rintro rfl
          exact hstarts.ne_close hclose _ front hfront
        rw [if_neg hd, ← hfront] at hread
        exact hends more limit' ys last (by simpa using hread)

end Lists

section Values

variable {depth : Nat}

theorem Shared.member? {read? : List Char → Option (Json × List Char)}
    {read5? : List Char → Option (Json5 × List Char)} (hvalue : Shared read? read5?)
    (limit limit' : Nat) : Shared (member? read? limit) (Json5.member? read5? limit') := by
  intro cs rest entry h
  obtain ⟨⟨key, after⟩, hkey, h⟩ := Option.bind_eq_some_iff.mp h
  obtain ⟨keyText, hcs, hkeyEnds⟩ := exists_ends_of_string? hkey
  dsimp only at h
  split at h
  · next tail hskip =>
    obtain ⟨⟨value, last⟩, hread, h⟩ := Option.bind_eq_some_iff.mp h
    cases h
    obtain ⟨valueText, hvalueText, hstarts, hvalueEnds⟩ := hvalue hread
    obtain ⟨blanks, hblanks, hafter⟩ := exists_blanks after
    obtain ⟨gap, hgap, htail⟩ := exists_blanks tail
    refine ⟨'"' :: (keyText ++ (blanks ++ ':' :: (gap ++ valueText))), ?_,
      starts_cons (by decide) _, fun more hmore entry5 last5 h5 => ?_⟩
    · rw [hcs, hafter, hskip, htail, hvalueText]
      simp
    · obtain ⟨⟨key5, after5⟩, hkey5, h5⟩ := Option.bind_eq_some_iff.mp h5
      have hskip5 : Json5.skip (blanks ++ ':' :: (gap ++ (valueText ++ more))) =
          ':' :: (gap ++ (valueText ++ more)) :=
        Json5.skip_blanks hblanks (by decide) (by decide) _
      rw [Json5.key?, List.cons_append, Json5.identifier?_quote (Or.inl rfl), Option.none_or,
        Json5.string?] at hkey5
      obtain rfl := hkeyEnds (blanks ++ ':' :: (gap ++ (valueText ++ more))) limit' key5 after5
        (by simpa using hkey5)
      simp only [hskip5, hstarts.skip_blanks hgap] at h5
      obtain ⟨⟨value5, last⟩, hread5, h5⟩ := Option.bind_eq_some_iff.mp h5
      cases h5
      exact hvalueEnds more hmore value5 _ hread5
  · cases h

theorem literal?_eq_some {word : List Char} (h : literal? word cs = some rest) :
    cs = word ++ rest := by
  unfold literal? at h
  split at h
  · next hword =>
    cases h
    exact (List.prefix_iff_eq_append.mp (List.isPrefixOf_iff_prefix.mp hword)).symm
  · cases h

variable {limit' depth' : Nat}

/-- A value ends where the reader ends that its first character chooses. -/
theorem ends_cons {γ : Type} (read5? : Nat → List Char → Option (γ × List Char)) (f : γ → Json5)
    (hread : ∀ d cs, Json5.value? limit' (d + 1) (c :: cs) =
      (read5? d cs).map fun r => (f r.1, r.2))
    {text more : List Char} (hends : Ends (read5? (depth' - 1)) text more) :
    Ends (Json5.value? limit' depth') (c :: text) more := by
  intro j rest h
  cases depth' with
  | zero => cases h
  | succ depth' =>
    rw [List.cons_append, hread] at h
    obtain ⟨⟨x, last⟩, hx, h⟩ := Option.map_eq_some_iff.mp h
    cases h
    exact hends x _ hx

theorem ends_word {word : List Char} {j : Json5}
    (hread : ∀ d cs, Json5.value? limit' (d + 1) (c :: cs) =
      (Json5.literal? word cs).map (j, ·)) (more : List Char) :
    Ends (Json5.value? limit' depth') (c :: word) more := by
  refine ends_cons (fun _ cs => (Json5.literal? word cs).map ((), ·)) (fun _ => j)
    (fun d cs => ?_) fun x rest h => ?_
  · rw [hread, Option.map_map]
    rfl
  · obtain ⟨after, hafter, h⟩ := Option.map_eq_some_iff.mp h
    cases h
    have hword : word.isPrefixOf (word ++ more) = true :=
      List.isPrefixOf_iff_prefix.mpr ⟨more, rfl⟩
    rw [Json5.literal?, if_pos hword, List.drop_left] at hafter
    cases hafter
    rfl

theorem exists_ends_of_word {word : List Char} {j : Json5} (hc : c ∉ Json5.breaks)
    (hread : ∀ d cs, Json5.value? limit' (d + 1) (c :: cs) =
      (Json5.literal? word cs).map (j, ·)) (h : literal? word cs = some rest) :
    ∃ text, c :: cs = text ++ rest ∧ Starts text ∧
      ∀ more, Json5.Breaks more → Ends (Json5.value? limit' depth') text more := by
  rw [literal?_eq_some h]
  exact ⟨c :: word, rfl, starts_cons hc word, fun more _ => ends_word hread more⟩

theorem ends_numeral {text more : List Char} (h : Numeral text) (hmore : Json5.Breaks more) :
    Ends (Json5.value? limit' depth') text more := by
  obtain ⟨c, tail, rfl, hc⟩ := h.exists_cons
  refine ends_cons (fun _ cs => Json5.number? (c :: cs)) .number
    (fun d cs => ?_) fun token rest hread => ?_
  · rw [Json5.value?]
    all_goals
      rintro rfl
      revert hc
      decide
  · dsimp only at hread
    rw [← List.cons_append,
      Json5.number?_of_isNumber (Json5.isNumber_of_numeral h) hmore] at hread
    cases hread
    rfl

theorem starts_numeral {text : List Char} (h : Numeral text) : Starts text := by
  obtain ⟨c, tail, rfl, hc⟩ := h.exists_cons
  refine starts_cons (fun hbreak => ?_) tail
  rcases hc with rfl | hc
  · exact absurd hbreak (by decide)
  · exact absurd (hc.symm.trans (Json5.of_mem_breaks c hbreak).2.2.1) (by decide)

theorem exists_ends_of_array {j : Json}
    (hvalue : Shared (value? limit depth) (Json5.value? limit' (depth' - 1)))
    (h : value? limit (depth + 1) ('[' :: cs) = some (j, rest)) :
    ∃ text, cs = text ++ ']' :: rest ∧
      ∀ more, Ends (Json5.value? limit' depth') ('[' :: (text ++ [']'])) more := by
  obtain ⟨⟨items, after⟩, hitems, h⟩ := Option.map_eq_some_iff.mp h
  cases h
  obtain ⟨text, htext, hends⟩ := exists_ends_of_list? hvalue (Or.inl rfl) hitems
  exact ⟨text, htext, fun more => ends_cons _ _ (fun _ _ => rfl) (hends more limit')⟩

theorem exists_ends_of_object {j : Json}
    (hvalue : Shared (value? limit depth) (Json5.value? limit' (depth' - 1)))
    (h : value? limit (depth + 1) ('\x7b' :: cs) = some (j, rest)) :
    ∃ text, cs = text ++ '\x7d' :: rest ∧
      ∀ more, Ends (Json5.value? limit' depth') ('\x7b' :: (text ++ ['\x7d'])) more := by
  obtain ⟨⟨entries, after⟩, hentries, h⟩ := Option.map_eq_some_iff.mp h
  cases h
  obtain ⟨text, htext, hends⟩ :=
    exists_ends_of_list? (hvalue.member? limit limit') (Or.inr rfl) hentries
  exact ⟨text, htext, fun more => ends_cons _ _ (fun _ _ => rfl) (hends more limit')⟩

/-- What strict JSON takes as a value, JSON5 takes as a whole or not at all. -/
theorem shared_value? (limit limit' depth depth' : Nat) :
    Shared (value? limit depth) (Json5.value? limit' depth') := by
  induction depth using Nat.strong_induction_on generalizing depth' with
  | h depth ih =>
    intro cs rest j h
    unfold value? at h
    split at h
    · cases h
    · next c tail =>
      split at h
      · obtain ⟨after, hword, h⟩ := Option.map_eq_some_iff.mp h
        cases h
        exact exists_ends_of_word (by decide) (fun _ _ => rfl) hword
      · obtain ⟨after, hword, h⟩ := Option.map_eq_some_iff.mp h
        cases h
        exact exists_ends_of_word (by decide) (fun _ _ => rfl) hword
      · obtain ⟨after, hword, h⟩ := Option.map_eq_some_iff.mp h
        cases h
        exact exists_ends_of_word (by decide) (fun _ _ => rfl) hword
      · obtain ⟨⟨s, after⟩, hstring, h⟩ := Option.map_eq_some_iff.mp h
        cases h
        obtain ⟨text, htext, hends⟩ := exists_ends_of_string? hstring
        exact ⟨'"' :: text, htext, starts_cons (by decide) _,
          fun more _ => ends_cons _ _ (fun _ _ => rfl) (hends more limit')⟩
      · cases depth with
        | zero => cases h
        | succ depth =>
          have hvalue := ih depth (Nat.lt_succ_self depth)
          obtain ⟨text, htext, hends⟩ := exists_ends_of_array (hvalue _) h
          exact ⟨'[' :: (text ++ [']']), by simp [htext], starts_cons (by decide) _,
            fun more _ => hends more⟩
      · cases depth with
        | zero => cases h
        | succ depth =>
          have hvalue := ih depth (Nat.lt_succ_self depth)
          obtain ⟨text, htext, hends⟩ := exists_ends_of_object (hvalue _) h
          exact ⟨'\x7b' :: (text ++ ['\x7d']), by simp [htext], starts_cons (by decide) _,
            fun more _ => hends more⟩
      · obtain ⟨⟨n, after⟩, hnumber, h⟩ := Option.map_eq_some_iff.mp h
        cases h
        obtain ⟨text, htext, hcs⟩ := Number.numeral_of_read hnumber
        exact ⟨text, hcs, starts_numeral htext, fun more hmore => ends_numeral htext hmore⟩

/-- An object of strict JSON ends at its brace for JSON5 too, whatever stands behind. -/
theorem exists_ends_of_value?_object {j : Json} (limit' depth' : Nat)
    (h : value? limit depth ('\x7b' :: cs) = some (j, rest)) :
    ∃ text, cs = text ++ '\x7d' :: rest ∧
      ∀ more, Ends (Json5.value? limit' depth') ('\x7b' :: (text ++ ['\x7d'])) more := by
  cases depth with
  | zero => cases h
  | succ depth => exact exists_ends_of_object (shared_value? limit limit' depth _) h

end Values

end ProcessChart.Json

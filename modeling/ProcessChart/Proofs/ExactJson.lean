import ProcessChart.Proofs.PrintedJson
import ProcessChart.Proofs.SelfDelimiting
import ProcessChart.Proofs.WrittenValues

/-!
Values without doubles are told apart by their text. A string, an array and an
object show where they end, and a whole number ends where no digit follows, as
none does behind a value inside an array or object. The order of fields counts,
and whole numbers may be of any size.
-/

namespace ProcessChart.Json

/-- No part of the value is a double. -/
inductive Exact : Json → Prop
  | null : Exact null
  | bool (b : Bool) : Exact (bool b)
  | integer (i : Int) : Exact (number (.integer i))
  | string (s : String) : Exact (string s)
  | array {items : List Json} (h : ∀ item ∈ items, Exact item) : Exact (array items)
  | object {fields : List (String × Json)} (h : ∀ f ∈ fields, Exact f.2) : Exact (object fields)

/-- A number in front of this text ends there. -/
def NoDigit (text : List Char) : Prop := ¬ ∃ c ∈ text.head?, Decimal.isDigit c = true

theorem noDigit_cons {c : Char} {rest : List Char} (h : Decimal.isDigit c = false) :
    NoDigit (c :: rest) := by
  simp [NoDigit, h]

section Leaves

theorem string_append_inj {a b : String} {r s : List Char}
    (h : writeString a ++ r = writeString b ++ s) : a = b ∧ r = s := by
  have ha := reads_writeString (Nat.le_max_left (writeString a).length (writeString b).length) r
  have hb := reads_writeString (Nat.le_max_right (writeString a).length (writeString b).length) s
  rw [h, hb] at ha
  obtain ⟨hs, hr⟩ := Prod.mk.inj (Option.some.inj ha)
  exact ⟨hs.symm, hr.symm⟩

theorem digits_append_inj {m n : Nat} {r s : List Char} (hr : NoDigit r) (hs : NoDigit s)
    (h : Decimal.digits m ++ r = Decimal.digits n ++ s) : m = n ∧ r = s := by
  have hread := (selfDelimiting_singleton fun c => Decimal.isDigit c = true).flatMap_append_eq_iff
    (fun _ => Decimal.isDigit_of_mem_digits (n := m))
    (fun _ => Decimal.isDigit_of_mem_digits (n := n)) hr hs
  simp only [List.flatMap_singleton', List.map_id] at hread
  obtain ⟨hdigits, hrest⟩ := hread.mp h
  exact ⟨Decimal.digits_injective hdigits, hrest⟩

theorem exists_digits_eq_cons (n : Nat) :
    ∃ c rest, Decimal.digits n = c :: rest ∧ Decimal.isDigit c = true := by
  obtain ⟨c, rest, hdigits⟩ := List.exists_cons_of_ne_nil (Decimal.digits_ne_nil n)
  exact ⟨c, rest, hdigits, Decimal.isDigit_of_mem_digits (hdigits ▸ List.mem_cons_self)⟩

theorem digits_append_ne_minus (n : Nat) (r s : List Char) : Decimal.digits n ++ r ≠ '-' :: s := by
  obtain ⟨c, rest, hdigits, hc⟩ := exists_digits_eq_cons n
  rw [hdigits]
  intro h
  rw [(List.cons.inj h).1] at hc
  exact absurd hc (by decide)

theorem integer_append_inj {i j : Int} {r s : List Char} (hr : NoDigit r) (hs : NoDigit s)
    (h : Decimal.integer i ++ r = Decimal.integer j ++ s) : i = j ∧ r = s := by
  cases i with
  | ofNat m =>
    cases j with
    | ofNat n =>
      obtain ⟨rfl, hrest⟩ := digits_append_inj hr hs h
      exact ⟨rfl, hrest⟩
    | negSucc n => exact absurd h (digits_append_ne_minus m r _)
  | negSucc m =>
    cases j with
    | ofNat n => exact absurd h.symm (digits_append_ne_minus n s _)
    | negSucc n =>
      obtain ⟨hsucc, hrest⟩ := digits_append_inj hr hs (List.cons.inj h).2
      obtain rfl := Nat.succ.inj hsucc
      exact ⟨rfl, hrest⟩

end Leaves

section Lists

variable {ι : Type} {text : ι → List Char} {Valid : ι → Prop} {style : Style} {level : Nat}
  {close : Char}

/-- Among valid items, the text of this one is followed by no digit and shows the item. -/
def Shows (text : ι → List Char) (Valid : ι → Prop) (i : ι) : Prop :=
  ∀ k r s, Valid k → NoDigit r → NoDigit s → text i ++ r = text k ++ s → i = k ∧ r = s

variable (style level) in
/-- What stands behind the last item. -/
theorem newLine_close (hclose : close = ']' ∨ close = '\x7d') (rest : List Char) :
    ∃ c more, style.newLine level ++ close :: rest = c :: more ∧ c ≠ ',' ∧
      Decimal.isDigit c = false := by
  cases style with
  | compact => rcases hclose with rfl | rfl <;> exact ⟨_, rest, rfl, by decide⟩
  | pretty => exact ⟨'\n', _, rfl, by decide⟩

variable (style level text) in
/-- The items of a list after its first, and the closing bracket. -/
def later (close : Char) (items : List ι) (rest : List Char) : List Char :=
  (items.map text).flatMap (fun t => ',' :: (style.newLine (level + 1) ++ t)) ++
    (style.newLine level ++ close :: rest)

theorem later_cons (i : ι) (items : List ι) (rest : List Char) :
    later text style level close (i :: items) rest =
      ',' :: (style.newLine (level + 1) ++ (text i ++ later text style level close items rest)) := by
  simp [later]

theorem noDigit_later (hclose : close = ']' ∨ close = '\x7d') (items : List ι)
    (rest : List Char) : NoDigit (later text style level close items rest) := by
  cases items with
  | nil =>
    obtain ⟨c, more, hmore, -, hdigit⟩ := newLine_close style level hclose rest
    rw [later, List.map_nil, List.flatMap_nil, List.nil_append, hmore]
    exact noDigit_cons hdigit
  | cons i items =>
    rw [later_cons]
    exact noDigit_cons (by decide)

theorem later_nil_ne_cons (hclose : close = ']' ∨ close = '\x7d') (i : ι) (items : List ι)
    (r s : List Char) :
    later text style level close [] r ≠ later text style level close (i :: items) s := by
  obtain ⟨c, more, hmore, hcomma, -⟩ := newLine_close style level hclose r
  rw [later_cons, later, List.map_nil, List.flatMap_nil, List.nil_append, hmore]
  intro h
  exact hcomma (List.cons.inj h).1

theorem later_inj (hclose : close = ']' ∨ close = '\x7d') {items others : List ι}
    {r s : List Char} (hitems : ∀ i ∈ items, Shows text Valid i) (hothers : ∀ k ∈ others, Valid k)
    (h : later text style level close items r = later text style level close others s) :
    items = others ∧ r = s := by
  induction items generalizing others with
  | nil =>
    cases others with
    | nil =>
      rw [later, later, List.append_cancel_left_eq, List.append_cancel_left_eq,
        List.cons.injEq] at h
      exact ⟨rfl, h.2⟩
    | cons k others => exact absurd h (later_nil_ne_cons hclose k others r s)
  | cons i items ih =>
    cases others with
    | nil => exact absurd h.symm (later_nil_ne_cons hclose i items s r)
    | cons k others =>
      rw [later_cons, later_cons, List.cons.injEq, List.append_cancel_left_eq] at h
      obtain ⟨rfl, hlater⟩ := hitems i List.mem_cons_self k _ _ (hothers k List.mem_cons_self)
        (noDigit_later hclose items r) (noDigit_later hclose others s) h.2
      obtain ⟨rfl, hrest⟩ := ih (fun x hx => hitems x (List.mem_cons_of_mem i hx))
        (fun x hx => hothers x (List.mem_cons_of_mem i hx)) hlater
      exact ⟨rfl, hrest⟩

theorem listed_nil_append (rest : List Char) :
    listed style level close (List.map text []) ++ rest = close :: rest := rfl

theorem listed_cons_append (i : ι) (items : List ι) (rest : List Char) :
    listed style level close ((i :: items).map text) ++ rest =
      style.newLine (level + 1) ++ (text i ++ later text style level close items rest) := by
  simp [listed, later]

theorem listed_nil_ne_cons (hclose : close = ']' ∨ close = '\x7d') {i : ι}
    (hopens : Opens (text i)) (items : List ι) (r s : List Char) :
    listed style level close (List.map text []) ++ r ≠
      listed style level close ((i :: items).map text) ++ s := by
  obtain ⟨c, more, htext, hne⟩ := hopens.ne_close hclose
  rw [listed_nil_append, listed_cons_append, htext]
  intro h
  cases style with
  | compact => exact hne (List.cons.inj h).1.symm
  | pretty =>
    have hbreak : close = '\n' := (List.cons.inj h).1
    rcases hclose with rfl | rfl <;> exact absurd hbreak (by decide)

/-- A list is shown when each of its items is, whatever follows the closing bracket. -/
theorem listed_append_inj (hclose : close = ']' ∨ close = '\x7d') {items others : List ι}
    {r s : List Char} (hopens : ∀ i, Valid i → Opens (text i)) (hvalid : ∀ i ∈ items, Valid i)
    (hitems : ∀ i ∈ items, Shows text Valid i) (hothers : ∀ k ∈ others, Valid k)
    (h : listed style level close (items.map text) ++ r =
      listed style level close (others.map text) ++ s) : items = others ∧ r = s := by
  cases items with
  | nil =>
    cases others with
    | nil => exact ⟨rfl, (List.cons.inj h).2⟩
    | cons k others =>
      have hopen := hopens k (hothers k List.mem_cons_self)
      exact absurd h (listed_nil_ne_cons hclose hopen others r s)
  | cons i items =>
    cases others with
    | nil =>
      have hopen := hopens i (hvalid i List.mem_cons_self)
      exact absurd h.symm (listed_nil_ne_cons hclose hopen items s r)
    | cons k others =>
      rw [listed_cons_append, listed_cons_append, List.append_cancel_left_eq] at h
      obtain ⟨rfl, hlater⟩ := hitems i List.mem_cons_self k _ _ (hothers k List.mem_cons_self)
        (noDigit_later hclose items r) (noDigit_later hclose others s) h
      obtain ⟨rfl, hrest⟩ := later_inj hclose (fun x hx => hitems x (List.mem_cons_of_mem i hx))
        (fun x hx => hothers x (List.mem_cons_of_mem i hx)) hlater
      exact ⟨rfl, hrest⟩

end Lists

section Values

variable {style : Style} {level : Nat}

/-- The character that opens a value, with one character for all numbers. -/
def opener : Json → Char
  | null => 'n'
  | bool true => 't'
  | bool false => 'f'
  | number _ => '0'
  | string _ => '"'
  | array _ => '['
  | object _ => '\x7b'

/-- What a value that begins with the character is opened by. -/
def openerOf (c : Char) : Char := if c = '-' || Decimal.isDigit c then '0' else c

theorem openerOf_integer (i : Int) :
    ∃ c rest, Decimal.integer i = c :: rest ∧ openerOf c = '0' := by
  cases i with
  | ofNat n =>
    obtain ⟨c, rest, hdigits, hc⟩ := exists_digits_eq_cons n
    exact ⟨c, rest, hdigits, by simp [openerOf, hc]⟩
  | negSucc n => exact ⟨'-', _, rfl, by decide⟩

variable (style level) in
theorem Exact.exists_write {j : Json} (h : j.Exact) :
    ∃ c rest, write style level j = c :: rest ∧ openerOf c = opener j := by
  cases h with
  | null => exact ⟨'n', _, by rw [write]; rfl, by decide⟩
  | bool b =>
    cases b
    · exact ⟨'f', _, by rw [write]; rfl, by decide⟩
    · exact ⟨'t', _, by rw [write]; rfl, by decide⟩
  | integer i =>
    obtain ⟨c, rest, hinteger, hc⟩ := openerOf_integer i
    exact ⟨c, rest, by rw [write]; exact hinteger, hc⟩
  | string s => exact ⟨'"', _, by rw [write]; rfl, rfl⟩
  | array _ => exact ⟨'[', _, write_array _ _ _, rfl⟩
  | object _ => exact ⟨'\x7b', _, write_object _ _ _, rfl⟩

/-- Spaces and closing brackets open no value. -/
theorem opens_of_openerOf {c : Char} {j : Json} (h : openerOf c = opener j)
    (rest : List Char) : Opens (c :: rest) := by
  have hopener : opener j ∈ ['n', 't', 'f', '0', '"', '[', '\x7b'] := by
    cases j with
    | bool b => cases b <;> simp [opener]
    | _ => simp [opener]
  have hclear : ∀ d, isSpace d = true ∨ d = ']' ∨ d = '\x7d' → openerOf d ≠ opener j := by
    intro d hd heq
    rw [← heq] at hopener
    simp only [isSpace, Bool.or_eq_true, decide_eq_true_eq, or_assoc] at hd
    rcases hd with rfl | rfl | rfl | rfl | rfl | rfl <;> exact absurd hopener (by decide)
  refine ⟨c, rest, rfl, ?_, fun hc => hclear c (.inr (.inl hc)) h,
    fun hc => hclear c (.inr (.inr hc)) h⟩
  rw [Bool.eq_false_iff]
  exact fun hc => hclear c (.inl hc) h

theorem Exact.opens_write {j : Json} (h : j.Exact) : Opens (write style level j) := by
  obtain ⟨c, rest, hwrite, hc⟩ := h.exists_write style level
  rw [hwrite]
  exact opens_of_openerOf hc rest

/-- Values that are written alike are opened alike. -/
theorem Exact.opener_eq {j k : Json} (hj : j.Exact) (hk : k.Exact) {r s : List Char}
    (h : write style level j ++ r = write style level k ++ s) : opener j = opener k := by
  obtain ⟨c, rest, hwrite, hc⟩ := hj.exists_write style level
  obtain ⟨d, more, hwrite', hd⟩ := hk.exists_write style level
  rw [hwrite, hwrite'] at h
  rw [← hc, ← hd, (List.cons.inj h).1]

theorem shows_writeMember {f : String × Json} (h : Shows (write style level) Exact f.2) :
    Shows (writeMember style level) (fun g => Exact g.2) f := by
  intro g r s hg hr hs htext
  simp only [writeMember, List.append_assoc] at htext
  obtain ⟨hkey, hmore⟩ := string_append_inj htext
  obtain ⟨hvalue, hrest⟩ := h g.2 r s hg hr hs (List.append_cancel_left hmore)
  exact ⟨Prod.ext hkey hvalue, hrest⟩

/-- A value without doubles is shown by its text. -/
theorem Exact.shows {j : Json} (hj : j.Exact) : Shows (write style level) Exact j := by
  -- The openings tell the kinds of values apart, so both values are of one kind.
  induction hj generalizing level with
  | null =>
    intro k r s hk hr hs h
    have hopener := Exact.null.opener_eq hk h
    cases hk with
    | null => exact ⟨rfl, List.append_cancel_left h⟩
    | bool b => cases b <;> cases hopener
    | _ => cases hopener
  | bool b =>
    intro k r s hk hr hs h
    have hopener := (Exact.bool b).opener_eq hk h
    cases hk with
    | bool b' =>
      obtain rfl : b = b' := by cases b <;> cases b' <;> first | rfl | cases hopener
      exact ⟨rfl, List.append_cancel_left h⟩
    | _ => cases b <;> cases hopener
  | integer i =>
    intro k r s hk hr hs h
    have hopener := (Exact.integer i).opener_eq hk h
    cases hk with
    | integer i' =>
      rw [write, write] at h
      obtain ⟨rfl, hrest⟩ := integer_append_inj hr hs h
      exact ⟨rfl, hrest⟩
    | bool b => cases b <;> cases hopener
    | _ => cases hopener
  | string a =>
    intro k r s hk hr hs h
    have hopener := (Exact.string a).opener_eq hk h
    cases hk with
    | string b =>
      rw [write, write] at h
      obtain ⟨rfl, hrest⟩ := string_append_inj h
      exact ⟨rfl, hrest⟩
    | bool b => cases b <;> cases hopener
    | _ => cases hopener
  | @array items hitems ih =>
    intro k r s hk hr hs h
    have hopener := (Exact.array hitems).opener_eq hk h
    cases hk with
    | array hothers =>
      rw [write_array, write_array, List.cons_append, List.cons_append, List.cons.injEq] at h
      obtain ⟨rfl, hrest⟩ := listed_append_inj (Or.inl rfl) (fun _ hi => hi.opens_write) hitems
        (fun i hi => ih i hi) hothers h.2
      exact ⟨rfl, hrest⟩
    | bool b => cases b <;> cases hopener
    | _ => cases hopener
  | @object fields hfields ih =>
    intro k r s hk hr hs h
    have hopener := (Exact.object hfields).opener_eq hk h
    cases hk with
    | object hothers =>
      rw [write_object, write_object, List.cons_append, List.cons_append, List.cons.injEq] at h
      obtain ⟨rfl, hrest⟩ := listed_append_inj (Or.inr rfl)
        (fun f _ => opens_writeMember style (level + 1) f) hfields
        (fun f hf => shows_writeMember (ih f hf)) hothers h.2
      exact ⟨rfl, hrest⟩
    | bool b => cases b <;> cases hopener
    | _ => cases hopener

/-- Values without doubles are printed alike only when they are equal. -/
theorem Exact.eq_of_print_eq {j k : Json} (hj : j.Exact) (hk : k.Exact) (style : Style)
    (h : j.print style = k.print style) : j = k := by
  have hend : NoDigit [] := by simp [NoDigit]
  have hwrite : write style 0 j ++ [] = write style 0 k ++ [] := by
    rw [String.ofList_injective h]
  exact (hj.shows k [] [] hk hend hend hwrite).1

end Values

end ProcessChart.Json

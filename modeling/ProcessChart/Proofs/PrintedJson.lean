import ProcessChart.Json.Printer
import ProcessChart.Json.Reader
import Mathlib.Algebra.BigOperators.Group.List.Basic
import Mathlib.Data.List.Forall2

/-!
What is printed as JSON can be read back. In either style the reader finds the
end of every string, array and object, whatever text follows, and gives the
value that was printed with the fields of its objects in the order of their
keys. Numbers are left aside.
-/

namespace ProcessChart.Json

/-- The reader takes exactly this text, whatever follows it, and gives this result. -/
def Reads {α : Type} (read? : List Char → Option (α × List Char)) (text : List Char) (a : α) :
    Prop :=
  ∀ rest, read? (text ++ rest) = some (a, rest)

theorem length_le_length_flatMap {α β : Type} (l : List α) {f : α → List β}
    (h : ∀ a, f a ≠ []) : l.length ≤ (l.flatMap f).length := by
  rw [List.length_flatMap, ← List.length_map fun a => (f a).length]
  apply List.length_le_sum_of_one_le
  intro n hn
  obtain ⟨a, -, rfl⟩ := List.mem_map.mp hn
  exact List.length_pos_of_ne_nil (h a)

section Strings

theorem unit?_control {n : Nat} (hn : n < 32) (rest : List Char) :
    unit? ('0' :: '0' :: Decimal.hexChar (n / 16) :: Decimal.hexChar n :: rest) =
      some (n, rest) := by
  have hhex : ∀ n < 32, Decimal.hex? ['0', '0', Decimal.hexChar (n / 16), Decimal.hexChar n] =
      some n := by decide
  rw [unit?, hhex n hn]
  rfl

theorem reads_control {c : Char} (hc : c.toNat < 32) :
    Reads escape? ['u', '0', '0', Decimal.hexChar (c.toNat / 16), Decimal.hexChar c.toNat] c := by
  intro rest
  have hlead : isLead c.toNat = false := by
    rw [isLead, Bool.and_eq_false_imp, decide_eq_true_iff]
    omega
  have htrail : isTrail c.toNat = false := by
    rw [isTrail, Bool.and_eq_false_imp, decide_eq_true_iff]
    omega
  simp [escape?, unicodeEscape?, unit?_control hc, hlead, htrail]

theorem reads_shortEscape {c letter : Char} (h : shortEscape? c = some letter) :
    Reads escape? [letter] c := by
  intro rest
  unfold shortEscape? at h
  split_ifs at h <;> cases h <;> subst c <;> rfl

/-- A character is written as an escape of itself or stands for itself. -/
theorem writeChar_cases (c : Char) :
    (∃ body, writeChar c = '\\' :: body ∧ Reads escape? body c) ∨
      writeChar c = [c] ∧ c ≠ '"' ∧ c ≠ '\\' ∧ 32 ≤ c.toNat := by
  rw [writeChar]
  split_ifs with hquote hstroke hcontrol
  · subst c
    exact Or.inl ⟨['"'], rfl, fun rest => rfl⟩
  · subst c
    exact Or.inl ⟨['\\'], rfl, fun rest => rfl⟩
  · cases hshort : shortEscape? c with
    | some letter => exact Or.inl ⟨[letter], rfl, reads_shortEscape hshort⟩
    | none => exact Or.inl ⟨_, rfl, reads_control hcontrol⟩
  · exact Or.inr ⟨rfl, hquote, hstroke, Nat.le_of_not_lt hcontrol⟩

theorem writeChar_ne_nil (c : Char) : writeChar c ≠ [] := by
  rcases writeChar_cases c with ⟨body, hwrite, -⟩ | ⟨hwrite, -⟩ <;> simp [hwrite]

theorem chars?_writeChar (limit : Nat) (c : Char) (rest : List Char) :
    chars? (limit + 1) (writeChar c ++ rest) =
      (chars? limit rest).map fun r => (c :: r.1, r.2) := by
  rcases writeChar_cases c with ⟨body, hwrite, hread⟩ | ⟨hwrite, hquote, hstroke, hcontrol⟩
  · rw [hwrite, List.cons_append, chars?, if_neg (by decide), if_pos rfl, hread rest]
    cases hrest : chars? limit rest <;> simp [hrest]
  · rw [hwrite, List.singleton_append, chars?, if_neg hquote, if_neg hstroke,
      if_neg (Nat.not_lt_of_le hcontrol)]
    cases chars? limit rest <;> rfl

theorem chars?_flatMap_writeChar {limit : Nat} {cs : List Char} (hlimit : cs.length < limit)
    (rest : List Char) :
    chars? limit (cs.flatMap writeChar ++ '"' :: rest) = some (cs, rest) := by
  induction cs generalizing limit with
  | nil =>
    obtain ⟨limit, rfl⟩ := Nat.exists_eq_add_one_of_ne_zero (Nat.ne_of_gt hlimit)
    rfl
  | cons c cs ih =>
    obtain ⟨limit, rfl⟩ := Nat.exists_eq_add_one_of_ne_zero (Nat.ne_zero_of_lt hlimit)
    rw [List.flatMap_cons, List.append_assoc, chars?_writeChar, ih (Nat.lt_of_succ_lt_succ hlimit)]
    rfl

theorem reads_writeString {limit : Nat} {s : String} (hlimit : (writeString s).length ≤ limit) :
    Reads (string? limit) (writeString s) s := by
  intro rest
  have hle := length_le_length_flatMap s.toList writeChar_ne_nil
  have hshort : s.toList.length < limit := by
    simp only [writeString, List.length_append, List.length_singleton] at hlimit
    omega
  rw [writeString, List.append_assoc, List.append_assoc, List.singleton_append, string?,
    List.singleton_append, chars?_flatMap_writeChar hshort, Option.map_some, String.ofList_toList]

end Strings

section Lists

/-- The text begins with a character that is no space and closes no list. -/
def Opens (text : List Char) : Prop :=
  ∃ c more, text = c :: more ∧ isSpace c = false ∧ c ≠ ']' ∧ c ≠ '\x7d'

theorem skipSpace_cons {c : Char} (h : isSpace c = false) (rest : List Char) :
    skipSpace (c :: rest) = c :: rest := by
  rw [skipSpace, List.dropWhile_cons_of_neg (by simp [h])]

theorem Opens.skipSpace_append {text : List Char} (h : Opens text) (rest : List Char) :
    skipSpace (text ++ rest) = text ++ rest := by
  obtain ⟨c, more, rfl, hspace, -⟩ := h
  exact skipSpace_cons hspace _

theorem skipSpace_newLine (style : Style) (level : Nat) (text : List Char) :
    skipSpace (style.newLine level ++ text) = skipSpace text := by
  apply List.dropWhile_append_of_pos
  intro c hc
  cases style with
  | compact => simp [Style.newLine] at hc
  | pretty =>
    rcases List.mem_cons.mp hc with rfl | hc
    · decide
    · rw [List.eq_of_mem_replicate hc]
      decide

variable {α : Type} {item? : List Char → Option (α × List Char)} {style : Style}
  {level limit : Nat} {close : Char}

theorem isSpace_close (hclose : close = ']' ∨ close = '\x7d') : isSpace close = false := by
  rcases hclose with rfl | rfl <;> decide

/-- Items may stand on a line of their own. -/
theorem items?_newLine (text : List Char) :
    items? item? close limit (style.newLine level ++ text) = items? item? close limit text := by
  cases limit with
  | zero => rfl
  | succ limit => rw [items?, items?, skipSpace_newLine]

/-- What stands behind the opening bracket of a list of texts. -/
def listed (style : Style) (level : Nat) (close : Char) : List (List Char) → List Char
  | [] => [close]
  | text :: rest =>
    style.newLine (level + 1) ++ text ++
      rest.flatMap (fun t => ',' :: (style.newLine (level + 1) ++ t)) ++
      style.newLine level ++ [close]

variable (style level) in
theorem items?_listed (hclose : close = ']' ∨ close = '\x7d') {text : List Char}
    {texts : List (List Char)} {x : α} {xs : List α} (hread : Reads item? text x)
    (hopens : Opens text) (hreads : List.Forall₂ (Reads item?) texts xs)
    (hall : ∀ t ∈ texts, Opens t) (hlimit : texts.length < limit) (rest : List Char) :
    items? item? close limit
      (text ++ (texts.flatMap (fun t => ',' :: (style.newLine (level + 1) ++ t)) ++
        (style.newLine level ++ close :: rest))) = some (x :: xs, rest) := by
  have hspace := isSpace_close hclose
  have hcomma : ',' ≠ close := by rcases hclose with rfl | rfl <;> decide
  -- The item in front is not part of the list, and each step uses up one unit of the limit.
  induction hreads generalizing text x limit with
  | nil =>
    obtain ⟨limit, rfl⟩ := Nat.exists_eq_add_one_of_ne_zero (Nat.ne_of_gt hlimit)
    rw [items?, hopens.skipSpace_append, hread, List.flatMap_nil, List.nil_append]
    simp [skipSpace_newLine, skipSpace_cons hspace]
  | @cons t y texts xs ht _ ih =>
    obtain ⟨limit, rfl⟩ := Nat.exists_eq_add_one_of_ne_zero (Nat.ne_zero_of_lt hlimit)
    have hlater := ih ht (hall t List.mem_cons_self) (fun u hu => hall u (List.mem_cons_of_mem t hu))
      (Nat.lt_of_succ_lt_succ hlimit)
    rw [items?, hopens.skipSpace_append, hread, List.flatMap_cons, List.cons_append,
      List.cons_append, List.append_assoc, List.append_assoc]
    simp [skipSpace_cons (c := ',') rfl, hcomma, items?_newLine, hlater]

theorem Opens.ne_close {text : List Char} (h : Opens text)
    (hclose : close = ']' ∨ close = '\x7d') :
    ∃ c more, text = c :: more ∧ c ≠ close := by
  obtain ⟨c, more, rfl, -, hbracket, hbrace⟩ := h
  rcases hclose with rfl | rfl
  · exact ⟨c, more, rfl, hbracket⟩
  · exact ⟨c, more, rfl, hbrace⟩

theorem length_lt_length_listed (texts : List (List Char)) (hall : ∀ t ∈ texts, Opens t) :
    texts.length < (listed style level close texts).length := by
  cases texts with
  | nil => exact Nat.zero_lt_one
  | cons t rest =>
    obtain ⟨c, more, rfl, -⟩ := hall t List.mem_cons_self
    have hrest := length_le_length_flatMap rest
      (f := fun t => ',' :: (style.newLine (level + 1) ++ t)) (by simp)
    simp only [listed, List.length_append, List.length_cons, List.length_nil]
    omega

theorem length_le_length_listed {text : List Char} {texts : List (List Char)}
    (h : text ∈ texts) : text.length ≤ (listed style level close texts).length := by
  cases texts with
  | nil => simp at h
  | cons t rest =>
    simp only [listed, List.length_append]
    rcases List.mem_cons.mp h with rfl | h
    · omega
    · have hpiece : (',' :: (style.newLine (level + 1) ++ text)).length ≤
          (rest.flatMap fun t => ',' :: (style.newLine (level + 1) ++ t)).length := by
        apply List.Sublist.length_le
        rw [List.flatMap_def]
        exact List.sublist_flatten_of_mem (List.mem_map_of_mem h)
      rw [List.length_cons, List.length_append] at hpiece
      omega

/-- A list is read up to its closing bracket when each of its items is read. -/
theorem reads_listed {ι : Type} {items : List ι} {text : ι → List Char} {value : ι → α}
    (hclose : close = ']' ∨ close = '\x7d') (hopens : ∀ i ∈ items, Opens (text i))
    (hreads : ∀ i ∈ items, (text i).length ≤ limit → Reads item? (text i) (value i))
    (hlimit : (listed style level close (items.map text)).length ≤ limit) :
    Reads (list? item? close limit) (listed style level close (items.map text))
      (items.map value) := by
  have hall : ∀ t ∈ items.map text, Opens t := List.forall_mem_map.mpr hopens
  have hfits : ∀ i ∈ items, (text i).length ≤ limit := by
    intro i hi
    exact Nat.le_trans (length_le_length_listed (List.mem_map_of_mem hi)) hlimit
  have hcount := Nat.lt_of_lt_of_le (length_lt_length_listed _ hall) hlimit
  intro rest
  cases items with
  | nil => simp [listed, list?, skipSpace_cons (isSpace_close hclose)]
  | cons i items =>
    have hfirst := hopens i List.mem_cons_self
    obtain ⟨c, more, htext, hne⟩ := hfirst.ne_close hclose
    have hlater : List.Forall₂ (Reads item?) (items.map text) (items.map value) := by
      rw [List.forall₂_map_left_iff, List.forall₂_map_right_iff, List.forall₂_same]
      exact fun k hk => hreads k (List.mem_cons_of_mem i hk) (hfits k (List.mem_cons_of_mem i hk))
    have hread := hreads i List.mem_cons_self (hfits i List.mem_cons_self)
    have hitems := items?_listed style level hclose hread hfirst hlater
      (fun t ht => hall t (List.mem_cons_of_mem _ ht)) (Nat.lt_of_succ_lt hcount) rest
    simp only [List.map_cons, listed, List.append_assoc, List.singleton_append, list?,
      skipSpace_newLine]
    rw [hfirst.skipSpace_append, htext]
    rw [htext] at hitems
    simpa [hne] using hitems

end Lists

mutual

/-- The value with the fields of all its objects in the order of their keys. -/
def sorted : Json → Json
  | array items => array (sortedItems items)
  | object fields => object (sortFields (sortedFields fields))
  | other => other

def sortedItems : List Json → List Json
  | [] => []
  | item :: rest => sorted item :: sortedItems rest

def sortedFields : List (String × Json) → List (String × Json)
  | [] => []
  | (key, value) :: rest => (key, sorted value) :: sortedFields rest

end

theorem sortedItems_eq (items : List Json) : sortedItems items = items.map sorted := by
  induction items with
  | nil => rfl
  | cons item rest ih => rw [sortedItems, ih, List.map_cons]

theorem sortedFields_eq (fields : List (String × Json)) :
    sortedFields fields = fields.map fun f => (f.1, sorted f.2) := by
  induction fields with
  | nil => rfl
  | cons f rest ih => rw [sortedFields, ih, List.map_cons]

/-- No value is a number, and arrays and objects lie at most `depth` deep in each other. -/
inductive Within : Nat → Json → Prop
  | null {depth : Nat} : Within depth null
  | bool {depth : Nat} (b : Bool) : Within depth (bool b)
  | string {depth : Nat} (s : String) : Within depth (string s)
  | array {depth : Nat} {items : List Json} (h : ∀ item ∈ items, Within depth item) :
      Within (depth + 1) (array items)
  | object {depth : Nat} {fields : List (String × Json)} (h : ∀ f ∈ fields, Within depth f.2) :
      Within (depth + 1) (object fields)

section Values

variable (style : Style) (level : Nat)

def writeMember (f : String × Json) : List Char :=
  writeString f.1 ++ (style.colon ++ write style level f.2)

theorem writeItems_eq (items : List Json) :
    writeItems style level items = (items.map (write style (level + 1))).flatMap
      fun t => ',' :: (style.newLine (level + 1) ++ t) := by
  induction items with
  | nil => rw [writeItems]; rfl
  | cons item rest ih => rw [writeItems, ih]; simp

theorem writeFields_eq (fields : List (String × Json)) :
    writeFields style level fields = (fields.map (writeMember style (level + 1))).flatMap
      fun t => ',' :: (style.newLine (level + 1) ++ t) := by
  induction fields with
  | nil => rw [writeFields]; rfl
  | cons f rest ih => rw [writeFields, ih]; simp [writeMember]

theorem write_array (items : List Json) :
    write style level (array items) =
      '[' :: listed style level ']' (items.map (write style (level + 1))) := by
  cases items with
  | nil => rw [write]; rfl
  | cons item rest => rw [write, writeItems_eq]; simp [listed]

theorem write_object (fields : List (String × Json)) :
    write style level (object fields) =
      '\x7b' :: listed style level '\x7d' (fields.map (writeMember style (level + 1))) := by
  cases fields with
  | nil => rw [write]; rfl
  | cons f rest => rw [write, writeFields_eq]; simp [listed, writeMember]

theorem exists_write_object (fields : List (String × Json)) :
    ∃ inner, write style level (object fields) = '\x7b' :: (inner ++ ['\x7d']) := by
  rw [write_object]
  cases fields with
  | nil => exact ⟨[], rfl⟩
  | cons f rest => exact ⟨_, rfl⟩

theorem opens_writeMember (f : String × Json) : Opens (writeMember style level f) :=
  ⟨'"', _, rfl, by decide⟩

variable {style level}

theorem Within.opens_write {depth : Nat} {j : Json} (h : j.Within depth) :
    Opens (write style level j) := by
  cases h with
  | null => exact ⟨'n', _, by rw [write]; rfl, by decide⟩
  | bool b =>
    cases b
    · exact ⟨'f', _, by rw [write]; rfl, by decide⟩
    · exact ⟨'t', _, by rw [write]; rfl, by decide⟩
  | string s => exact ⟨'"', _, by rw [write]; rfl, by decide⟩
  | array _ => exact ⟨'[', _, write_array _ _ _, by decide⟩
  | object _ => exact ⟨'\x7b', _, write_object _ _ _, by decide⟩

theorem reads_writeMember {value? : List Char → Option (Json × List Char)} {limit : Nat}
    {f : String × Json} {value : Json} (hopens : Opens (write style level f.2))
    (hread : Reads value? (write style level f.2) value)
    (hlimit : (writeMember style level f).length ≤ limit) :
    Reads (member? value? limit) (writeMember style level f) (f.1, value) := by
  intro rest
  have hkey : Reads (string? limit) (writeString f.1) f.1 := by
    apply reads_writeString
    rw [writeMember, List.length_append] at hlimit
    omega
  have hcolon : ∀ text, Opens text → ∃ more,
      skipSpace (style.colon ++ (text ++ rest)) = ':' :: more ∧ skipSpace more = text ++ rest := by
    intro text htext
    cases style with
    | compact => exact ⟨_, rfl, htext.skipSpace_append rest⟩
    | pretty => exact ⟨_, rfl, htext.skipSpace_append rest⟩
  obtain ⟨more, hmore, hvalue⟩ := hcolon _ hopens
  rw [writeMember, List.append_assoc, List.append_assoc, member?, hkey]
  simp [hmore, hvalue, hread rest]

theorem value?_string (limit depth : Nat) (rest : List Char) :
    value? limit depth ('"' :: rest) =
      (string? limit ('"' :: rest)).map fun r => (string r.1, r.2) := by
  rw [value?]

theorem value?_array (limit depth : Nat) (rest : List Char) :
    value? limit (depth + 1) ('[' :: rest) =
      (list? (value? limit depth) ']' limit rest).map fun r => (array r.1, r.2) := by
  rw [value?]

theorem value?_object (limit depth : Nat) (rest : List Char) :
    value? limit (depth + 1) ('\x7b' :: rest) =
      (list? (member? (value? limit depth) limit) '\x7d' limit rest).map
        fun r => (object (sortFields r.1), r.2) := by
  rw [value?]

/-- A value that is written is read back, with the fields of its objects in order. -/
theorem reads_write {depth limit : Nat} {j : Json} (h : j.Within depth)
    (hlimit : (write style level j).length ≤ limit) :
    Reads (value? limit depth) (write style level j) j.sorted := by
  induction h generalizing level with
  | null =>
    intro rest
    simp [write, value?, literal?, sorted]
  | bool b =>
    intro rest
    cases b <;> simp [write, value?, literal?, sorted]
  | string s =>
    intro rest
    rw [write] at hlimit ⊢
    have hread := reads_writeString hlimit rest
    have hquote : writeString s ++ rest = '"' :: (s.toList.flatMap writeChar ++ ['"'] ++ rest) := rfl
    rw [hquote] at hread ⊢
    rw [value?_string, hread]
    rfl
  | @array depth items hitems ih =>
    intro rest
    rw [write_array] at hlimit ⊢
    have hlist : Reads (list? (value? limit depth) ']' limit)
        (listed style level ']' (items.map (write style (level + 1)))) (items.map sorted) :=
      reads_listed (Or.inl rfl) (fun item hitem => (hitems item hitem).opens_write)
        (fun item hitem => ih item hitem) (Nat.le_of_succ_le hlimit)
    rw [List.cons_append, value?_array, hlist, sorted, sortedItems_eq]
    rfl
  | @object depth fields hfields ih =>
    intro rest
    rw [write_object] at hlimit ⊢
    have hmember : ∀ f ∈ fields, (writeMember style (level + 1) f).length ≤ limit →
        Reads (member? (value? limit depth) limit) (writeMember style (level + 1) f)
          (f.1, f.2.sorted) := by
      intro f hf hle
      refine reads_writeMember (hfields f hf).opens_write (ih f hf ?_) hle
      simp only [writeMember, List.length_append] at hle
      omega
    have hlist : Reads (list? (member? (value? limit depth) limit) '\x7d' limit)
        (listed style level '\x7d' (fields.map (writeMember style (level + 1))))
        (fields.map fun f => (f.1, f.2.sorted)) :=
      reads_listed (Or.inr rfl) (fun f _ => opens_writeMember style (level + 1) f) hmember
        (Nat.le_of_succ_le hlimit)
    rw [List.cons_append, value?_object, hlist, sorted, sortedFields_eq]
    rfl

/-- A printed value is the whole of a JSON text. -/
theorem parse?_print (style : Style) {j : Json} (h : j.Within maxDepth) :
    parse? (j.print style).toList = some j.sorted := by
  have hread : Reads (value? ((write style 0 j).length + 1) maxDepth) (write style 0 j) j.sorted :=
    reads_write h (Nat.le_succ _)
  have hopens : Opens (write style 0 j) := h.opens_write
  have hskip := hopens.skipSpace_append []
  have hvalue := hread []
  rw [List.append_nil] at hskip hvalue
  rw [print, String.toList_ofList, parse?, hskip, hvalue]
  rfl

end Values

end ProcessChart.Json

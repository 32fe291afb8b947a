/-!
Sequences that can be read in one way only. Every item is written as a stretch
of symbols that shows where it ends, and what stands behind the last item does
not look like the start of one more. The items and what stands behind them are
then determined by the symbols.
-/

namespace ProcessChart

variable {α β γ : Type}

/-- What is written for a valid item can be told apart from what follows it, and
two items are written alike exactly when their contents agree. A text that
continues with an item is one that `Starts` recognizes. -/
structure SelfDelimiting (write : α → List β) (content : α → γ) (Valid : α → Prop)
    (Starts : List β → Prop) : Prop where
  starts : ∀ {a : α} (rest : List β), Valid a → Starts (write a ++ rest)
  append_eq_iff : ∀ {a b : α} (r s : List β), Valid a → Valid b →
    (write a ++ r = write b ++ s ↔ content a = content b ∧ r = s)

namespace SelfDelimiting

variable {write : α → List β} {content : α → γ} {Valid : α → Prop} {Starts : List β → Prop}

theorem ne_flatMap_cons_append (h : SelfDelimiting write content Valid Starts) {b : α} (ys : List α)
    {r : List β} (s : List β) (hb : Valid b) (hr : ¬ Starts r) :
    r ≠ (b :: ys).flatMap write ++ s := by
  intro heq
  rw [List.flatMap_cons, List.append_assoc] at heq
  rw [heq] at hr
  exact hr (h.starts _ hb)

/-- Items in a row are written alike exactly when their contents agree in order. -/
theorem flatMap_append_eq_iff (h : SelfDelimiting write content Valid Starts) {xs ys : List α}
    {r s : List β} (hxs : ∀ a ∈ xs, Valid a) (hys : ∀ a ∈ ys, Valid a) (hr : ¬ Starts r)
    (hs : ¬ Starts s) :
    xs.flatMap write ++ r = ys.flatMap write ++ s ↔
      xs.map content = ys.map content ∧ r = s := by
  induction xs generalizing ys with
  | nil =>
    cases ys with
    | nil => simp
    | cons b ys =>
      have hne := h.ne_flatMap_cons_append ys s (hys b List.mem_cons_self) hr
      simpa using hne
  | cons a xs ih =>
    have ha := hxs a List.mem_cons_self
    cases ys with
    | nil =>
      have hne := h.ne_flatMap_cons_append xs r ha hs
      simpa using hne.symm
    | cons b ys =>
      have hb := hys b List.mem_cons_self
      have hrest := ih (fun x hx => hxs x (List.mem_cons_of_mem a hx))
        (fun y hy => hys y (List.mem_cons_of_mem b hy))
      rw [List.flatMap_cons, List.flatMap_cons, List.append_assoc, List.append_assoc,
        h.append_eq_iff _ _ ha hb, hrest, List.map_cons, List.map_cons, List.cons.injEq, and_assoc]

theorem flatMap_append_eq_iff_of_total (h : SelfDelimiting write content (fun _ => True) Starts)
    {xs ys : List α} {r s : List β} (hr : ¬ Starts r) (hs : ¬ Starts s) :
    xs.flatMap write ++ r = ys.flatMap write ++ s ↔ xs.map content = ys.map content ∧ r = s :=
  h.flatMap_append_eq_iff (fun _ _ => trivial) (fun _ _ => trivial) hr hs

theorem flatMap_eq_iff (h : SelfDelimiting write content Valid Starts) {xs ys : List α}
    (hxs : ∀ a ∈ xs, Valid a) (hys : ∀ a ∈ ys, Valid a) (hnil : ¬ Starts []) :
    xs.flatMap write = ys.flatMap write ↔ xs.map content = ys.map content := by
  have heq := h.flatMap_append_eq_iff hxs hys hnil hnil
  simpa only [List.append_nil, and_true] using heq

end SelfDelimiting

/-- Symbols of one class stand for themselves as long as another class follows. -/
theorem selfDelimiting_singleton (P : α → Prop) :
    SelfDelimiting (fun a : α => [a]) id P (fun text => ∃ a ∈ text.head?, P a) where
  starts := by
    intro a rest ha
    exact ⟨a, rfl, ha⟩
  append_eq_iff := by
    intro a b r s _ _
    exact List.cons_eq_cons

/-- Two stretches of one class of symbols, each before a symbol of another class. -/
theorem append_cons_eq_iff {P : α → Prop} {l m r s : List α} {x y : α} (hl : ∀ a ∈ l, P a)
    (hm : ∀ a ∈ m, P a) (hx : ¬ P x) (hy : ¬ P y) :
    l ++ x :: r = m ++ y :: s ↔ l = m ∧ x = y ∧ r = s := by
  have heq := (selfDelimiting_singleton P).flatMap_append_eq_iff (r := x :: r) (s := y :: s) hl hm
    (by simpa using hx) (by simpa using hy)
  simpa using heq

end ProcessChart

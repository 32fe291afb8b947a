import ProcessChart.Text.Blank

/-!
Breaking a label into lines. Words are put on a line while they fit; a word that
is longer than a line gets a line of its own and is not broken.
-/
namespace ProcessChart.Picture

/-- The words after a line that is already begun. -/
def fillFrom (limit : Nat) (line : List Char) : List (List Char) → List (List Char)
  | [] => [line]
  | word :: rest =>
    if line.length + word.length + 1 ≤ limit then fillFrom limit (line ++ [' '] ++ word) rest
    else line :: fillFrom limit word rest

def fillLines (limit : Nat) : List (List Char) → List (List Char)
  | [] => []
  | word :: rest => fillFrom limit word rest

/-- The lines of a label of which none has more than `limit` characters, unless it is one word. -/
def wrap (limit : Nat) (label : String) : List String :=
  (fillLines limit (Text.words label.toList)).map String.ofList

theorem mem_of_mem_fillFrom {limit : Nat} {line l : List Char} {words : List (List Char)}
    (hl : l ∈ fillFrom limit line words) :
    ∀ c ∈ l, c ∈ line ∨ c = ' ' ∨ ∃ w ∈ words, c ∈ w := by
  induction words generalizing line with
  | nil =>
    rw [fillFrom, List.mem_singleton] at hl
    exact fun c hc => .inl (hl ▸ hc)
  | cons word rest ih =>
    have hlater : ∀ {other : List Char}, l ∈ fillFrom limit other rest →
        (∀ c ∈ other, c ∈ line ∨ c = ' ' ∨ c ∈ word) →
        ∀ c ∈ l, c ∈ line ∨ c = ' ' ∨ ∃ w ∈ word :: rest, c ∈ w := by
      intro other hl hother c hc
      rcases ih hl c hc with hc | hc | ⟨w, hw, hc⟩
      · rcases hother c hc with hc | hc | hc
        · exact .inl hc
        · exact .inr (.inl hc)
        · exact .inr (.inr ⟨word, List.mem_cons_self, hc⟩)
      · exact .inr (.inl hc)
      · exact .inr (.inr ⟨w, List.mem_cons_of_mem word hw, hc⟩)
    rw [fillFrom] at hl
    split at hl
    · exact hlater hl (by simp)
    · rcases List.mem_cons.mp hl with rfl | hl
      · exact fun c hc => .inl hc
      · exact hlater hl (by simp +contextual)

/-- Between the characters of the label a line has nothing but spaces. -/
theorem mem_of_mem_wrap {limit : Nat} {label line : String} (h : line ∈ wrap limit label) :
    ∀ c ∈ line.toList, c ∈ label.toList ∨ c = ' ' := by
  obtain ⟨l, hl, rfl⟩ := List.mem_map.mp h
  intro c hc
  rw [String.toList_ofList] at hc
  cases hwords : Text.words label.toList with
  | nil => simp [fillLines, hwords] at hl
  | cons word rest =>
    rw [hwords, fillLines] at hl
    have hword : ∀ w ∈ word :: rest, c ∈ w → c ∈ label.toList :=
      fun w hw hc => Text.mem_of_mem_words (hwords ▸ hw) c hc
    rcases mem_of_mem_fillFrom hl c hc with hc | hc | ⟨w, hw, hc⟩
    · exact .inl (hword word List.mem_cons_self hc)
    · exact .inr hc
    · exact .inl (hword w (List.mem_cons_of_mem word hw) hc)

end ProcessChart.Picture

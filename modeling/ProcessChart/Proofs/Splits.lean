import ProcessChart.Proofs.Centring
import ProcessChart.Proofs.Walks

/-!
The fan of a split in the final columns. A branch that nothing else flows into is
entered from its split and from nowhere else, so the walk can only give it the
column of the split moved by the offset of the branch, and no merge moves it
afterwards. Cycles and merges elsewhere make no difference to it.
-/

namespace ProcessChart

namespace Table

variable {α : Type}

/-- Where ids are distinct, every entry can be looked up. -/
theorem get?_eq_some_of_mem {t : Table α} {id : String} {a : α} (hkeys : t.keys.Nodup)
    (hmem : (id, a) ∈ t.entries) : t.get? id = some a := by
  obtain ⟨before, after, hsplit⟩ := List.append_of_mem hmem
  rw [keys, hsplit, List.map_append, List.map_cons] at hkeys
  have hbefore : id ∉ before.map (·.1) := by
    intro h
    exact (List.nodup_append'.mp hkeys).2.2 h List.mem_cons_self
  rw [get?, List.lookup_eq_some_iff]
  refine ⟨before, after, hsplit, fun e he => ?_⟩
  have hne : id ≠ e.1 := fun heq => hbefore (heq ▸ List.mem_map_of_mem he)
  simpa using hne

end Table

namespace ProcessGraph

variable {p : ProcessGraph} {start? : Option String} {u v w : String} {i j : Nat}

/-- The flow at this position among those that leave `u` is the only one that
enters `v`, and `v` is not the start. -/
structure LoneBranch (p : ProcessGraph) (start? : Option String) (u : String) (i : Nat)
    (v : String) : Prop where
  only : ∃ f, (p.flowsFrom u)[i]? = some f ∧ p.flowsInto v = [f]
  not_start : some v ≠ start?

theorem getElem?_successors (u : String) (i : Nat) :
    (p.successors u)[i]? = ((p.flowsFrom u)[i]?).map (·.target) := List.getElem?_map

/-- A flow that is declared once has one position. -/
theorem index_eq_of_count_le_one {flows : List Flow} {f : Flow} (hcount : flows.count f ≤ 1)
    (hi : flows[i]? = some f) (hj : flows[j]? = some f) : i = j := by
  induction flows generalizing i j with
  | nil => simp at hi
  | cons g rest ih =>
    rw [List.count_cons] at hcount
    have hlater : ∀ {k : Nat}, rest[k]? = some f → g ≠ f ∧ rest.count f ≤ 1 := by
      intro k hk
      have hpos : 0 < rest.count f := List.count_pos_iff.mpr (List.mem_of_getElem? hk)
      have hne : g ≠ f := by
        rintro rfl
        simp at hcount
        omega
      exact ⟨hne, by omega⟩
    cases i with
    | zero =>
      cases j with
      | zero => rfl
      | succ j => exact absurd (Option.some.inj hi) (hlater hj).1
    | succ i =>
      cases j with
      | zero => exact absurd (Option.some.inj hj) (hlater hi).1
      | succ j => rw [ih (hlater hi).2 hi hj]

theorem branchOffset_injective : Function.Injective branchOffset := by
  intro i j h
  unfold branchOffset at h
  split at h <;> split at h <;> omega

/-- A split leads its branches to different sides or to different distances. -/
theorem offsetAt_ne (hi : (p.successors u)[i]? = some v) (hj : (p.successors u)[j]? = some w)
    (hij : i ≠ j) : p.offsetAt u i ≠ p.offsetAt u j := by
  have hilt := (List.getElem?_eq_some_iff.mp hi).1
  have hjlt := (List.getElem?_eq_some_iff.mp hj).1
  have hsplit : ¬ (p.successors u).length ≤ 1 := by omega
  rw [offsetAt, offsetAt, if_neg hsplit, if_neg hsplit]
  exact branchOffset_injective.ne hij

namespace LoneBranch

theorem getElem?_successors (h : p.LoneBranch start? u i v) : (p.successors u)[i]? = some v := by
  obtain ⟨f, hf, hinto⟩ := h.only
  have htarget : f ∈ p.flowsInto v := hinto ▸ List.mem_singleton_self f
  rw [ProcessGraph.getElem?_successors, hf, Option.map_some]
  exact congrArg some (by simpa using (List.mem_filter.mp htarget).2)

/-- Whatever has the branch is its split, and has it at this position only. -/
theorem eq_of_getElem? (h : p.LoneBranch start? u i v) (hw : (p.successors w)[j]? = some v) :
    w = u ∧ j = i := by
  obtain ⟨f, hf, hinto⟩ := h.only
  rw [ProcessGraph.getElem?_successors, Option.map_eq_some_iff] at hw
  obtain ⟨g, hg, hgtarget⟩ := hw
  obtain ⟨hgflow, hgsource⟩ := List.mem_filter.mp (List.mem_of_getElem? hg)
  have hgf : g = f := by
    have hmem : g ∈ p.flowsInto v := List.mem_filter.mpr ⟨hgflow, by simpa using hgtarget⟩
    rw [hinto] at hmem
    exact List.mem_singleton.mp hmem
  subst hgf
  obtain ⟨-, hfsource⟩ := List.mem_filter.mp (List.mem_of_getElem? hf)
  obtain rfl : w = u := by
    have hsource : g.source = w := by simpa using hgsource
    rw [← hsource]
    simpa using hfsource
  -- Two positions would be two declarations, and the branch would be entered twice.
  have hcount : (p.flowsFrom w).count g ≤ 1 := by
    have hfrom : (p.flowsFrom w).count g ≤ p.flows.count g :=
      List.Sublist.count_le g List.filter_sublist
    have honce : p.flows.count g = (p.flowsInto v).count g :=
      (List.count_filter (by simpa using hgtarget)).symm
    rw [honce, hinto, List.count_singleton_self] at hfrom
    exact hfrom
  exact ⟨rfl, index_eq_of_count_le_one hcount hg hf⟩

end LoneBranch

theorem Spread.nodup_ids {done : List (String × Int)} (h : p.Spread start? done) :
    (done.map (·.1)).Nodup := by
  induction h with
  | nil => exact List.nodup_nil
  | @snoc done e _ _ hnew ih =>
    rw [List.map_append, List.nodup_append']
    exact ⟨ih, List.nodup_singleton _, by simpa using hnew⟩

/-- Every column was entered from another one, which is still there. -/
theorem Spread.entered {done : List (String × Int)} (h : p.Spread start? done) :
    ∀ e ∈ done, p.Entered start? done e := by
  induction h with
  | nil => simp
  | @snoc done e _ hentered _ ih =>
    intro x hx
    refine Entered.mono ?_ (List.subset_append_left _ _)
    rcases List.mem_append.mp hx with hx | hx
    · exact ih x hx
    · rw [List.mem_singleton.mp hx]
      exact hentered

/-- The walk gives a branch that is entered only once the column of its split, moved
by the offset of the branch. -/
theorem LoneBranch.get?_walkedColumns {column : Int} (h : p.LoneBranch start? u i v)
    (hu : (p.walkedColumns start?).get? u = some column) :
    (p.walkedColumns start?).get? v = some (column + p.offsetAt u i) := by
  have hspread : p.Spread start? (p.walkedColumns start?).entries := walking_walkedColumns.spread
  have hreached : (p.walkedColumns start?).contains v = true := by
    have hcontains : (p.walkedColumns start?).contains u = true := by rw [Table.contains, hu]; rfl
    obtain ⟨s, hs, n, hpath⟩ := contains_walkedColumns_iff.mp hcontains
    obtain ⟨f, hf, hsource, htarget⟩ :=
      mem_successors.mp (List.mem_of_getElem? h.getElem?_successors)
    exact contains_walkedColumns_iff.mpr
      ⟨s, hs, n + 1, hpath.snoc (mem_predecessors.mpr ⟨f, hf, htarget, hsource⟩)⟩
  obtain ⟨b, hb⟩ := Option.isSome_iff_exists.mp hreached
  have hv : (v, b) ∈ (p.walkedColumns start?).entries := Table.mem_of_get?_eq_some hb
  rcases hspread.entered _ hv with ⟨hstart, -⟩ | ⟨⟨w, a⟩, hw, hbranch⟩
  · exact absurd hstart h.not_start
  · obtain ⟨j, hj, hcolumn⟩ := mem_branches_iff.mp hbranch
    obtain ⟨rfl, rfl⟩ := h.eq_of_getElem? hj
    have ha : (p.walkedColumns start?).get? w = some a :=
      Table.get?_eq_some_of_mem hspread.nodup_ids hw
    rw [hu] at ha
    rw [hb, show b = a + p.offsetAt w j from hcolumn, Option.some.inj ha]

/-- What is no merge keeps the column of the walk, be it a node or not. -/
theorem get?_columns_of_walked {column : Int} (h : (p.flowsInto v).length ≤ 1)
    (hv : (p.walkedColumns start?).get? v = some column) :
    (p.columns start?).get? v = some column := by
  have hentered : (p.predecessors v).length ≤ 1 := by rwa [predecessors, List.length_map]
  have hstays : (p.centredColumns start?).get? v = some column :=
    (get?_foldl_centre fun _ => hentered).trans hv
  rw [get?_columns, columnOf, hstays]
  exact ite_self _

theorem LoneBranch.get?_columns {column : Int} (h : p.LoneBranch start? u i v)
    (hu : (p.walkedColumns start?).get? u = some column) :
    (p.columns start?).get? v = some (column + p.offsetAt u i) := by
  obtain ⟨f, -, hinto⟩ := h.only
  exact get?_columns_of_walked (by simp [hinto]) (h.get?_walkedColumns hu)

/-- An id that the start leads to and at most one flow enters fans out evenly. Of its
branches that no other flow enters, a single one stays in its column; several lie one
column to the left, one to the right, two to the left and so on, by their positions.
So they all have columns of their own, and the first two mirror each other. -/
theorem columns_of_lone_branches (p : ProcessGraph) (start? : Option String) (u : String)
    (hreach : ∃ s ∈ start?, ∃ n, p.Path s u n) (hentered : (p.flowsInto u).length ≤ 1) :
    ∃ column, (p.columns start?).get? u = some column ∧
      (∀ i v, p.LoneBranch start? u i v →
        ((p.flowsFrom u).length = 1 → (p.columns start?).get? v = some column) ∧
        ((p.flowsFrom u).length ≠ 1 → ∀ pair,
          (i = 2 * pair → (p.columns start?).get? v = some (column - (pair + 1))) ∧
          (i = 2 * pair + 1 → (p.columns start?).get? v = some (column + (pair + 1))))) ∧
      (∀ i j v w, p.LoneBranch start? u i v → p.LoneBranch start? u j w → v ≠ w →
        (p.columns start?).get? v ≠ (p.columns start?).get? w) ∧
      ∀ v w, p.LoneBranch start? u 0 v → p.LoneBranch start? u 1 w →
        (p.columns start?).get? v = some (column - 1) ∧
        (p.columns start?).get? w = some (column + 1) := by
  obtain ⟨column, hwalked⟩ := Option.isSome_iff_exists.mp (contains_walkedColumns_iff.mpr hreach)
  have hcolumn : ∀ i v, p.LoneBranch start? u i v →
      (p.columns start?).get? v = some (column + p.offsetAt u i) :=
    fun i v h => h.get?_columns hwalked
  have hposition : ∀ i v, p.LoneBranch start? u i v → i < (p.flowsFrom u).length := by
    intro i v h
    rw [← length_successors]
    exact (List.getElem?_eq_some_iff.mp h.getElem?_successors).1
  refine ⟨column, get?_columns_of_walked hentered hwalked, ?_, ?_, ?_⟩
  · intro i v h
    have hpos := hposition i v h
    rw [hcolumn i v h, offsetAt, length_successors]
    constructor
    · intro hsingle
      rw [if_pos (by omega), Int.add_zero]
    · intro hsplit pair
      rw [if_neg (by omega), branchOffset]
      constructor
      · rintro rfl
        rw [if_pos (by omega)]
        exact congrArg some (by omega)
      · rintro rfl
        rw [if_neg (by omega)]
        exact congrArg some (by omega)
  · intro i j v w hv hw hne
    rw [hcolumn i v hv, hcolumn j w hw]
    have hij : i ≠ j := by
      rintro rfl
      exact hne (Option.some.inj (hv.getElem?_successors.symm.trans hw.getElem?_successors))
    have hoffset := offsetAt_ne hv.getElem?_successors hw.getElem?_successors hij
    intro heq
    exact hoffset (Int.add_left_cancel (Option.some.inj heq))
  · intro v w hv hw
    have hpos := hposition 1 w hw
    rw [hcolumn 0 v hv, hcolumn 1 w hw, offsetAt, offsetAt, length_successors,
      if_neg (by omega), if_neg (by omega)]
    exact ⟨rfl, rfl⟩

/-- A split in a circle, with two branches to a merge that leads back to itself; a node
that the start does not reach leads to the merge as well. -/
def splitInCircle : ProcessGraph where
  id := "P"
  name := none
  nodes := [⟨"s", .startEvent, none⟩, ⟨"u", .exclusiveGateway, none⟩, ⟨"left", .task, none⟩,
    ⟨"right", .task, none⟩, ⟨"merge", .task, none⟩, ⟨"far", .endEvent, none⟩,
    ⟨"lost", .task, none⟩]
  flows := [⟨"f1", "s", "u"⟩, ⟨"f2", "u", "left"⟩, ⟨"f3", "u", "right"⟩, ⟨"f4", "u", "merge"⟩,
    ⟨"f5", "u", "far"⟩, ⟨"f6", "u", "merge"⟩, ⟨"f7", "merge", "merge"⟩, ⟨"f8", "right", "s"⟩,
    ⟨"f9", "lost", "merge"⟩]

theorem columns_splitInCircle :
    ((∃ s ∈ some "s", ∃ n, splitInCircle.Path s "u" n) ∧
      (splitInCircle.flowsInto "u").length ≤ 1 ∧
      splitInCircle.LoneBranch (some "s") "u" 0 "left" ∧
      splitInCircle.LoneBranch (some "s") "u" 1 "right" ∧
      splitInCircle.LoneBranch (some "s") "u" 3 "far") ∧
    ∃ column, (splitInCircle.columns (some "s")).get? "u" = some column ∧
      (splitInCircle.columns (some "s")).get? "left" = some (column - 1) ∧
      (splitInCircle.columns (some "s")).get? "right" = some (column + 1) ∧
      (splitInCircle.columns (some "s")).get? "far" = some (column + 2) ∧
      (splitInCircle.columns (some "s")).get? "right" ≠
        (splitInCircle.columns (some "s")).get? "far" := by
  have hreach : ∃ s ∈ some "s", ∃ n, splitInCircle.Path s "u" n :=
    ⟨"s", rfl, 1, Path.nil.snoc (by decide)⟩
  have hentered : (splitInCircle.flowsInto "u").length ≤ 1 := by decide
  have hleft : splitInCircle.LoneBranch (some "s") "u" 0 "left" :=
    ⟨⟨⟨"f2", "u", "left"⟩, by decide, by decide⟩, by decide⟩
  have hright : splitInCircle.LoneBranch (some "s") "u" 1 "right" :=
    ⟨⟨⟨"f3", "u", "right"⟩, by decide, by decide⟩, by decide⟩
  have hfar : splitInCircle.LoneBranch (some "s") "u" 3 "far" :=
    ⟨⟨⟨"f5", "u", "far"⟩, by decide, by decide⟩, by decide⟩
  refine ⟨⟨hreach, hentered, hleft, hright, hfar⟩, ?_⟩
  obtain ⟨column, hcolumn, hpositions, hapart, hmirror⟩ :=
    columns_of_lone_branches splitInCircle (some "s") "u" hreach hentered
  obtain ⟨hl, hr⟩ := hmirror "left" "right" hleft hright
  have hf := (((hpositions 3 "far" hfar).2 (by decide)) 1).2 rfl
  exact ⟨column, hcolumn, hl, hr, hf, hapart 1 3 "right" "far" hright hfar (by decide)⟩

end ProcessGraph

end ProcessChart

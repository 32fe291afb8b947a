import ProcessChart.Layout.Levels
import ProcessChart.Proofs.Paths
import ProcessChart.Proofs.Preorder
import Mathlib.Algebra.Group.Nat.Defs
import Mathlib.Algebra.Ring.Int.Defs

/-!
Where the walk through the columns leads. Columns are given one after the other,
each to the start or to a branch of an id that has its column already, so every
column is the sum of the offsets along a trail of distinct ids. Different ids
have different flows, and no column lies farther out than there are flows.
-/

namespace ProcessChart.ProcessGraph

variable {p : ProcessGraph} {start? : Option String}

/-- How far the branch at a position leads to the side; a single branch leads straight on. -/
def offsetAt (p : ProcessGraph) (id : String) (index : Nat) : Int :=
  if (p.successors id).length ≤ 1 then 0 else branchOffset index

/-- A path along flows, with the ids that it leaves and the offsets of the branches it takes. -/
inductive Trail (p : ProcessGraph) (a : String) : List String → List Int → String → Prop
  | nil : Trail p a [] [] a
  | snoc {ids : List String} {offsets : List Int} {u v : String} {i : Nat} :
      Trail p a ids offsets u → (p.successors u)[i]? = some v →
        Trail p a (ids ++ [u]) (offsets ++ [p.offsetAt u i]) v

/-- Once the columns `done` are given the entry may be the next: it is the start
in column zero, or one of them has it as a branch. -/
def Entered (p : ProcessGraph) (start? : Option String) (done : List (String × Int))
    (e : String × Int) : Prop :=
  (some e.1 = start? ∧ e.2 = 0) ∨ ∃ u ∈ done, e ∈ p.branches u.1 u.2

/-- Columns of different ids, each of which was entered when it was given. -/
inductive Spread (p : ProcessGraph) (start? : Option String) : List (String × Int) → Prop
  | nil : Spread p start? []
  | snoc {done : List (String × Int)} {e : String × Int} :
      Spread p start? done → p.Entered start? done e → e.1 ∉ done.map (·.1) →
        Spread p start? (done ++ [e])

/-- A trail from the start over distinct known ids ends in the entry, and its
offsets add up to the column. -/
def Led (p : ProcessGraph) (start? : Option String) (known : List String) (e : String × Int) :
    Prop :=
  ∃ s ∈ start?, ∃ ids offsets,
    p.Trail s ids offsets e.1 ∧ ids.Nodup ∧ ids ⊆ known ∧ e.2 = offsets.sum

/-- What holds between turns of the walk. -/
structure Walking (p : ProcessGraph) (start? : Option String)
    (state : Table Int × List (String × Int)) : Prop where
  spread : p.Spread start? state.1.entries
  ready : ∀ e ∈ state.2, p.Entered start? state.1.entries e
  complete : ∀ id, (some id = start? ∨ ∃ u ∈ state.1.keys, id ∈ p.successors u) →
    id ∈ state.1.keys ∨ id ∈ state.2.map (·.1)

section Branches

variable {u v : String} {i : Nat}

theorem getElem?_entries (u : String) (column : Int) (i : Nat) :
    (p.entries u column)[i]? =
      ((p.successors u)[i]?).map fun v => (v, column + p.offsetAt u i) := by
  have hoffset : p.offsetAt u i = if (p.successors u).length ≤ 1 then 0 else branchOffset i := rfl
  rw [entries]
  split
  · next h => rw [h]; rfl
  · next x h =>
    rw [hoffset, h]
    cases i <;> simp
  · next hnil hsingle =>
    have hsplit : ¬ (p.successors u).length ≤ 1 := by
      intro hle
      rcases Nat.le_one_iff_eq_zero_or_eq_one.mp hle with hlength | hlength
      · exact hnil (List.length_eq_zero_iff.mp hlength)
      · obtain ⟨x, hx⟩ := List.length_eq_one_iff.mp hlength
        exact hsingle x hx
    rw [hoffset, if_neg hsplit, List.getElem?_mapIdx]

theorem mem_branches_iff {column : Int} {e : String × Int} :
    e ∈ p.branches u column ↔
      ∃ i, (p.successors u)[i]? = some e.1 ∧ e.2 = column + p.offsetAt u i := by
  rw [← entries_eq_branches, List.mem_iff_getElem?]
  refine exists_congr fun i => ?_
  rw [getElem?_entries, Option.map_eq_some_iff]
  constructor
  · rintro ⟨v, hv, rfl⟩
    exact ⟨hv, rfl⟩
  · rintro ⟨hv, hcolumn⟩
    exact ⟨e.1, hv, by rw [← hcolumn]⟩

theorem map_fst_branches (u : String) (column : Int) :
    (p.branches u column).map (·.1) = p.successors u := by
  rw [← entries_eq_branches, map_fst_entries]

theorem natAbs_offsetAt_le (h : (p.successors u)[i]? = some v) :
    (p.offsetAt u i).natAbs ≤ (p.flowsFrom u).length := by
  have hi := (List.getElem?_eq_some_iff.mp h).1
  rw [length_successors] at hi
  rw [offsetAt, length_successors, branchOffset]
  split
  · simp
  · split <;> omega

end Branches

namespace Trail

variable {a v : String} {ids : List String} {offsets : List Int}

theorem path (h : p.Trail a ids offsets v) : p.Path a v ids.length := by
  induction h with
  | nil => exact .nil
  | @snoc ids offsets u v i _ hv ih =>
    obtain ⟨f, hf, rfl, rfl⟩ := mem_successors.mp (List.mem_of_getElem? hv)
    rw [List.length_append]
    exact ih.snoc (mem_predecessors.mpr ⟨f, hf, rfl, rfl⟩)

/-- Each id has its own flows, so the offsets and the flows of all other ids
together do not exceed the flows. -/
theorem natAbs_sum_le (h : p.Trail a ids offsets v) (hids : ids.Nodup) :
    offsets.sum.natAbs + (p.pending ids).length ≤ p.flows.length := by
  induction h with
  | nil =>
    rw [List.sum_nil, Int.natAbs_zero, Nat.zero_add]
    exact List.length_filter_le _ _
  | @snoc ids offsets u v i _ hv ih =>
    obtain ⟨hids, -, hdisjoint⟩ := List.nodup_append'.mp hids
    have hu : u ∉ ids := fun hmem => hdisjoint hmem List.mem_cons_self
    have hspent : (p.pending (ids ++ [u])).length + (p.flowsFrom u).length =
        (p.pending ids).length := length_pending_append (by simpa using hu)
    have hoffset := natAbs_offsetAt_le hv
    have hsum := ih hids
    rw [List.sum_append, List.sum_singleton]
    omega

/-- A trail that is not empty leaves its first id. -/
theorem first_mem_or_nil (h : p.Trail a ids offsets v) : a ∈ ids ∨ v = a ∧ offsets = [] := by
  induction h with
  | nil => exact Or.inr ⟨rfl, rfl⟩
  | @snoc ids offsets u v i _ _ ih =>
    left
    rcases ih with hmem | ⟨rfl, -⟩
    · exact List.mem_append_left _ hmem
    · exact List.mem_append_right _ List.mem_cons_self

end Trail

namespace Led

variable {known : List String} {e : String × Int}

theorem natAbs_le (h : p.Led start? known e) : e.2.natAbs ≤ p.flows.length := by
  obtain ⟨s, -, ids, offsets, htrail, hids, -, hsum⟩ := h
  have hbound := htrail.natAbs_sum_le hids
  rw [hsum]
  omega

theorem mono {known' : List String} (h : p.Led start? known e) (hsub : known ⊆ known') :
    p.Led start? known' e := by
  obtain ⟨s, hs, ids, offsets, htrail, hids, hknown, hsum⟩ := h
  exact ⟨s, hs, ids, offsets, htrail, hids, fun x hx => hsub (hknown hx), hsum⟩

/-- A trail to an id that is not known itself goes on along each of its branches. -/
theorem branch {u : String × Int} (h : p.Led start? known u) (hnew : u.1 ∉ known)
    (he : e ∈ p.branches u.1 u.2) : p.Led start? (known ++ [u.1]) e := by
  obtain ⟨s, hs, ids, offsets, htrail, hids, hknown, hsum⟩ := h
  obtain ⟨i, hi, hcolumn⟩ := mem_branches_iff.mp he
  refine ⟨s, hs, ids ++ [u.1], offsets ++ [p.offsetAt u.1 i], htrail.snoc hi, ?_, ?_, ?_⟩
  · have hu : u.1 ∉ ids := fun hmem => hnew (hknown hmem)
    exact List.nodup_append'.mpr ⟨hids, List.nodup_singleton _, by simpa using hu⟩
  · intro x hx
    rcases List.mem_append.mp hx with hx | hx
    · exact List.mem_append_left _ (hknown hx)
    · exact List.mem_append_right _ hx
  · rw [hcolumn, hsum, List.sum_append, List.sum_singleton]

end Led

theorem Entered.led {done : List (String × Int)} {e : String × Int}
    (hdone : ∀ u ∈ done, ∃ known, known ⊆ done.map (·.1) ∧ u.1 ∉ known ∧ p.Led start? known u)
    (h : p.Entered start? done e) : p.Led start? (done.map (·.1)) e := by
  rcases h with ⟨hstart, hcolumn⟩ | ⟨u, hu, he⟩
  · exact ⟨e.1, hstart.symm, [], [], .nil, List.nodup_nil, List.nil_subset _, hcolumn⟩
  · obtain ⟨known, hsub, hnew, hled⟩ := hdone u hu
    refine (hled.branch hnew he).mono (List.append_subset.mpr ⟨hsub, fun x hx => ?_⟩)
    rw [List.mem_singleton.mp hx]
    exact List.mem_map_of_mem hu

/-- To every id with a column there is a trail over ids that had their columns before it. -/
theorem Spread.exists_led {done : List (String × Int)} (h : p.Spread start? done) :
    ∀ u ∈ done, ∃ known, known ⊆ done.map (·.1) ∧ u.1 ∉ known ∧ p.Led start? known u := by
  induction h with
  | nil => simp
  | @snoc done e _ hentered hnew ih =>
    have hearlier : done.map (·.1) ⊆ (done ++ [e]).map (·.1) := by
      rw [List.map_append]
      exact List.subset_append_left _ _
    intro u hu
    rcases List.mem_append.mp hu with hu | hu
    · obtain ⟨known, hsub, hfresh, hled⟩ := ih u hu
      exact ⟨known, fun x hx => hearlier (hsub hx), hfresh, hled⟩
    · obtain rfl : u = e := List.mem_singleton.mp hu
      exact ⟨done.map (·.1), hearlier, hnew, hentered.led ih⟩

theorem Entered.mono {done done' : List (String × Int)} {e : String × Int}
    (h : p.Entered start? done e) (hsub : done ⊆ done') : p.Entered start? done' e := by
  rcases h with hstart | ⟨u, hu, he⟩
  · exact Or.inl hstart
  · exact Or.inr ⟨u, hsub hu, he⟩

namespace Walking

variable {columns : Table Int} {waiting : List (String × Int)} {id : String} {column : Int}

theorem initial : p.Walking start? (.empty, start?.toList.map (·, 0)) where
  spread := .nil
  ready e he := by
    obtain ⟨s, hs, rfl⟩ := List.mem_map.mp he
    exact Or.inl ⟨(Option.mem_toList.mp hs).symm, rfl⟩
  complete id h := by
    right
    rcases h with hstart | ⟨u, hu, -⟩
    · rw [List.map_map]
      exact List.mem_map.mpr ⟨id, Option.mem_toList.mpr hstart.symm, rfl⟩
    · simp [Table.keys, Table.empty] at hu

/-- Passing over an id that has its column. -/
theorem skip (h : p.Walking start? (columns, (id, column) :: waiting))
    (hid : columns.contains id = true) : p.Walking start? (columns, waiting) where
  spread := h.spread
  ready e he := h.ready e (List.mem_cons_of_mem _ he)
  complete x hx := by
    rcases h.complete x hx with hmem | hmem
    · exact Or.inl hmem
    · rcases List.mem_cons.mp hmem with rfl | hmem
      · exact Or.inl (Table.contains_iff_mem_keys.mp hid)
      · exact Or.inr hmem

/-- Giving a new id its column and putting its branches in front. -/
theorem visit (h : p.Walking start? (columns, (id, column) :: waiting))
    (hid : columns.contains id = false) :
    p.Walking start? (columns.insert id column, p.branches id column ++ waiting) := by
  have hentries : (columns.insert id column).entries = columns.entries ++ [(id, column)] :=
    Table.entries_insert column hid
  have hnew : id ∉ columns.keys := by
    rw [← Table.contains_iff_mem_keys, hid]
    exact Bool.false_ne_true
  constructor
  · rw [hentries]
    exact h.spread.snoc (h.ready _ List.mem_cons_self) hnew
  · intro e he
    rw [hentries]
    rcases List.mem_append.mp he with he | he
    · exact Or.inr ⟨(id, column), List.mem_append_right _ List.mem_cons_self, he⟩
    · exact (h.ready e (List.mem_cons_of_mem _ he)).mono (List.subset_append_left _ _)
  · intro x hx
    rw [Table.mem_keys_insert, List.map_append, List.mem_append, map_fst_branches]
    by_cases hbranch : x ∈ p.successors id
    · exact Or.inr (Or.inl hbranch)
    · have hold : some x = start? ∨ ∃ u ∈ columns.keys, x ∈ p.successors u := by
        refine hx.imp_right fun ⟨u, hu, hedge⟩ => ?_
        rcases Table.mem_keys_insert column |>.mp hu with rfl | hu
        · exact absurd hedge hbranch
        · exact ⟨u, hu, hedge⟩
      rcases h.complete x hold with hmem | hmem
      · exact Or.inl (Or.inr hmem)
      · rcases List.mem_cons.mp hmem with rfl | hmem
        · exact Or.inl (Or.inl rfl)
        · exact Or.inr (Or.inr hmem)

theorem turn {state : Table Int × List (String × Int)} (h : p.Walking start? state) :
    p.Walking start? (p.turn state) := by
  match state, h with
  | (columns, []), h => exact h
  | (columns, (id, column) :: rest), h =>
    rw [ProcessGraph.turn]
    by_cases hid : columns.contains id = true
    · rw [if_pos hid]
      exact h.skip hid
    · rw [if_neg hid]
      exact h.visit (Bool.eq_false_iff.mpr hid)

end Walking

theorem walking_turns (n : Nat) :
    p.Walking start? (p.turn^[n] (.empty, start?.toList.map (·, 0))) := by
  induction n with
  | zero => exact Walking.initial
  | succ n ih =>
    rw [Function.iterate_succ_apply']
    exact ih.turn

theorem walking_walkedColumns : p.Walking start? (p.walkedColumns start?, []) := by
  obtain ⟨n, -, hturns⟩ := exists_turns (p := p) .empty (start?.toList.map (·, (0 : Int)))
  rw [walkedColumns, ← hturns]
  exact walking_turns n

/-- At the end nothing waits, so every branch of an id with a column has a column. -/
theorem mem_keys_of_path {s id : String} {n : Nat} (hs : s ∈ start?) (h : p.Path s id n) :
    id ∈ (p.walkedColumns start?).keys := by
  have hcomplete : ∀ x, (some x = start? ∨
      ∃ u ∈ (p.walkedColumns start?).keys, x ∈ p.successors u) →
        x ∈ (p.walkedColumns start?).keys := by
    intro x hx
    rcases walking_walkedColumns.complete x hx with hmem | hmem
    · exact hmem
    · simp at hmem
  induction h with
  | nil => exact hcomplete s (Or.inl hs.symm)
  | tail f hf _ ih => exact hcomplete _ (Or.inr ⟨_, ih, mem_successors.mpr ⟨f, hf, rfl, rfl⟩⟩)

theorem exists_led_of_get? {id : String} {column : Int}
    (h : (p.walkedColumns start?).get? id = some column) :
    ∃ known, id ∉ known ∧ p.Led start? known (id, column) := by
  have hmem := Table.mem_of_get?_eq_some h
  obtain ⟨known, -, hnew, hled⟩ := walking_walkedColumns.spread.exists_led _ hmem
  exact ⟨known, hnew, hled⟩

theorem contains_walkedColumns_iff {id : String} :
    (p.walkedColumns start?).contains id = true ↔ ∃ s ∈ start?, ∃ n, p.Path s id n := by
  constructor
  · intro h
    obtain ⟨column, hcolumn⟩ := Option.isSome_iff_exists.mp h
    obtain ⟨known, -, s, hs, ids, offsets, htrail, -⟩ := exists_led_of_get? hcolumn
    exact ⟨s, hs, _, htrail.path⟩
  · rintro ⟨s, hs, n, hpath⟩
    exact Table.contains_iff_mem_keys.mpr (mem_keys_of_path hs hpath)

theorem get?_walkedColumns_start {s : String} (hs : s ∈ start?) :
    (p.walkedColumns start?).get? s = some 0 := by
  obtain ⟨column, hcolumn⟩ :=
    Option.isSome_iff_exists.mp (contains_walkedColumns_iff.mpr ⟨s, hs, 0, Path.nil⟩)
  obtain ⟨known, hnew, s', hs', ids, offsets, htrail, -, hknown, hsum⟩ :=
    exists_led_of_get? hcolumn
  obtain rfl : s = s' := Option.mem_unique hs hs'
  -- A trail back to the start would leave the start, which was not known before its own column.
  rcases htrail.first_mem_or_nil with hmem | ⟨-, rfl⟩
  · exact absurd (hknown hmem) hnew
  · rw [hcolumn, show column = 0 from hsum]

theorem exists_trail_of_get? {id : String} {column : Int}
    (h : (p.walkedColumns start?).get? id = some column) :
    ∃ s ∈ start?, ∃ ids offsets,
      p.Trail s ids offsets id ∧ (ids ++ [id]).Nodup ∧ column = offsets.sum := by
  obtain ⟨known, hnew, s, hs, ids, offsets, htrail, hids, hknown, hsum⟩ := exists_led_of_get? h
  have hid : id ∉ ids := fun hmem => hnew (hknown hmem)
  refine ⟨s, hs, ids, offsets, htrail, ?_, hsum⟩
  exact List.nodup_append'.mpr ⟨hids, List.nodup_singleton _, by simpa using hid⟩

/-- What waits lies on a trail as well, whether it gets its column there or not. -/
theorem natAbs_le_of_waiting {n : Nat} {e : String × Int}
    (he : e ∈ (p.turn^[n] (.empty, start?.toList.map (·, 0))).2) :
    e.2.natAbs ≤ p.flows.length := by
  have hwalking : p.Walking start? (p.turn^[n] (.empty, start?.toList.map (·, 0))) :=
    walking_turns n
  exact ((hwalking.ready e he).led hwalking.spread.exists_led).natAbs_le

/-- The walk gives a column to exactly the ids that paths from the start lead to, be
there nodes or not, and column zero to the start. Every column is the sum of the
offsets along a trail of distinct ids from the start, so neither a column nor
anything that waits for one lies farther out than there are flows, and all of them
fit into a signed word of 32 bits when the flows can be counted in it. -/
theorem walkedColumns_along_trails (p : ProcessGraph) (start? : Option String) :
    (∀ id, (p.walkedColumns start?).contains id = true ↔ ∃ s ∈ start?, ∃ n, p.Path s id n) ∧
    (∀ s ∈ start?, (p.walkedColumns start?).get? s = some 0) ∧
    (∀ id column, (p.walkedColumns start?).get? id = some column →
      column.natAbs ≤ p.flows.length ∧
      ∃ s ∈ start?, ∃ ids offsets,
        p.Trail s ids offsets id ∧ (ids ++ [id]).Nodup ∧ column = offsets.sum) ∧
    ∀ n, ∀ e ∈ (p.turn^[n] (.empty, start?.toList.map (·, 0))).2,
      e.2.natAbs ≤ p.flows.length ∧
      (p.flows.length < 2 ^ 31 → -2 ^ 31 ≤ e.2 ∧ e.2 < 2 ^ 31) := by
  refine ⟨fun _ => contains_walkedColumns_iff, fun _ => get?_walkedColumns_start, ?_, ?_⟩
  · intro id column hcolumn
    obtain ⟨known, -, hled⟩ := exists_led_of_get? hcolumn
    exact ⟨hled.natAbs_le, exists_trail_of_get? hcolumn⟩
  · intro n e he
    have hbound := natAbs_le_of_waiting he
    exact ⟨hbound, fun _ => by omega⟩

/-- A split whose second branch leads back, whose third one stays and whose last one
leads over an id without a node. -/
def strayCircuit : ProcessGraph where
  id := "P"
  name := none
  nodes := [⟨"s", .startEvent, none⟩, ⟨"a", .task, none⟩, ⟨"lost", .task, none⟩]
  flows := [⟨"f1", "s", "a"⟩, ⟨"f2", "a", "s"⟩, ⟨"f3", "s", "s"⟩, ⟨"f4", "s", "ghost"⟩,
    ⟨"f5", "ghost", "a"⟩, ⟨"f6", "ghost", "echo"⟩, ⟨"f7", "lost", "a"⟩]

theorem strayCircuit_echo :
    ((strayCircuit.walkedColumns (some "s")).contains "echo" = true ∧
      (strayCircuit.walkedColumns (some "s")).get? "s" = some 0) ∧
    ((strayCircuit.walkedColumns (some "s")).get? "echo" = some (-1) ∧
      ∃ s ∈ some "s", ∃ ids offsets, strayCircuit.Trail s ids offsets "echo" ∧
        (ids ++ ["echo"]).Nodup ∧ -1 = offsets.sum) ∧
    (strayCircuit.flows.length < 2 ^ 31 ∧
      ("ghost", -2) ∈ (strayCircuit.turn^[3] (.empty, (some "s").toList.map (·, 0))).2 ∧
      (-2 ^ 31 : Int) ≤ -2 ∧ (-2 : Int) < 2 ^ 31) := by
  obtain ⟨hreached, hstart, htrail, hturns⟩ := walkedColumns_along_trails strayCircuit (some "s")
  have hghost : strayCircuit.Path "s" "ghost" 1 := Path.nil.snoc (by decide)
  have hecho : strayCircuit.Path "s" "echo" 2 := hghost.snoc (by decide)
  have hcolumn : (strayCircuit.walkedColumns (some "s")).get? "echo" = some (-1) := by
    decide +kernel
  have hflows : strayCircuit.flows.length < 2 ^ 31 := by decide
  have hwaiting : ("ghost", -2) ∈
      (strayCircuit.turn^[3] (.empty, (some "s").toList.map (·, 0))).2 := by decide +kernel
  refine ⟨⟨(hreached "echo").mpr ⟨"s", rfl, 2, hecho⟩, hstart "s" rfl⟩,
    ⟨hcolumn, (htrail "echo" (-1) hcolumn).2⟩, hflows, hwaiting, ?_⟩
  exact (hturns 3 ("ghost", -2) hwaiting).2 hflows

end ProcessChart.ProcessGraph

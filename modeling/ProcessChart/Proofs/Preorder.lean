import ProcessChart.Layout.Columns
import Mathlib.Logic.Function.Iterate

/-!
The walk through the columns is a recursive visit in pre-order. A visit leaves
an id with a column alone; to any other id it gives the column and then visits
its successors, one after the other. The walk keeps the same visits on a list,
in which ids may wait that get their column elsewhere in the meantime, and it
takes at most one turn for every flow and one for the start.
-/

namespace ProcessChart.ProcessGraph

variable {p : ProcessGraph}

/-- The branches of a split by pairs, one branch to each side, every pair one column farther out. -/
def fan (column distance : Int) : List String → List (String × Int)
  | [] => []
  | [x] => [(x, column - distance)]
  | x :: y :: rest =>
    (x, column - distance) :: (y, column + distance) :: fan column (distance + 1) rest

/-- The successors of an id with their columns: a single one stays, several fan out. -/
def branches (p : ProcessGraph) (id : String) (column : Int) : List (String × Int) :=
  match p.successors id with
  | [x] => [(x, column)]
  | xs => fan column 1 xs

mutual

/-- Visiting the id at the column turns the first table into the second. -/
inductive Visit (p : ProcessGraph) : Table Int → String → Int → Table Int → Prop
  | again {columns : Table Int} {id : String} {column : Int} (h : columns.contains id = true) :
      Visit p columns id column columns
  | first {columns columns' : Table Int} {id : String} {column : Int}
      (h : columns.contains id = false)
      (successors : VisitAll p (columns.insert id column) (p.branches id column) columns') :
      Visit p columns id column columns'

/-- Visits in turn. -/
inductive VisitAll (p : ProcessGraph) : Table Int → List (String × Int) → Table Int → Prop
  | nil {columns : Table Int} : VisitAll p columns [] columns
  | cons {columns columns' columns'' : Table Int} {id : String} {column : Int}
      {rest : List (String × Int)} (head : Visit p columns id column columns')
      (tail : VisitAll p columns' rest columns'') :
      VisitAll p columns ((id, column) :: rest) columns''

end

/-- One turn of the walk: the foremost id is passed over, or gets its column
and leaves its successors waiting in front of the others. -/
def turn (p : ProcessGraph) : Table Int × List (String × Int) → Table Int × List (String × Int)
  | (columns, []) => (columns, [])
  | (columns, (id, column) :: rest) =>
    if columns.contains id then (columns, rest)
    else (columns.insert id column, p.branches id column ++ rest)

/-- Offsets counted by position and offsets counted by pairs are the same. -/
theorem mapIdx_branchOffset (column : Int) (pairs : Nat) (xs : List String) :
    (xs.mapIdx fun i x => (x, column + branchOffset (2 * pairs + i))) =
      fan column (pairs + 1) xs := by
  have hleft : branchOffset (2 * pairs) = -(pairs + 1) := by
    rw [branchOffset, if_pos (by omega)]
    omega
  have hright : branchOffset (2 * pairs + 1) = pairs + 1 := by
    rw [branchOffset, if_neg (by omega)]
    omega
  match xs with
  | [] => rfl
  | [x] => simp [fan, hleft, Int.sub_eq_add_neg]
  | x :: y :: rest =>
    have hrest := mapIdx_branchOffset column (pairs + 1) rest
    have hnext : ∀ i, 2 * pairs + (i + 1 + 1) = 2 * (pairs + 1) + i := by omega
    simp only [List.mapIdx_cons, fan, Nat.add_zero, Nat.zero_add, hleft, hright, hnext, hrest]
    rfl

theorem entries_eq_branches (id : String) (column : Int) :
    p.entries id column = p.branches id column := by
  have hfan : (p.successors id).mapIdx (fun i x => (x, column + branchOffset i)) =
      fan column 1 (p.successors id) := by
    have hoffsets := mapIdx_branchOffset column 0 (p.successors id)
    simpa using hoffsets
  rw [entries, branches]
  match h : p.successors id with
  | [] => rfl
  | [x] => rfl
  | x :: y :: rest =>
    rw [h] at hfan
    exact hfan

/-- The visits of a list are those of its front followed by those of the rest. -/
theorem visitAll_append_iff {columns columns' : Table Int} {front rest : List (String × Int)} :
    p.VisitAll columns (front ++ rest) columns' ↔
      ∃ between, p.VisitAll columns front between ∧ p.VisitAll between rest columns' := by
  induction front generalizing columns with
  | nil =>
    constructor
    · intro h
      exact ⟨columns, .nil, h⟩
    · rintro ⟨between, hfront, hrest⟩
      cases hfront
      exact hrest
  | cons entry front ih =>
    constructor
    · intro h
      cases h with
      | cons head tail =>
        obtain ⟨between, hfront, hrest⟩ := ih.mp tail
        exact ⟨between, .cons head hfront, hrest⟩
    · rintro ⟨between, hfront, hrest⟩
      cases hfront with
      | cons head tail => exact .cons head (ih.mpr ⟨between, tail, hrest⟩)

/-- The walk visits what waits, the foremost first. -/
theorem visitAll_walk (columns : Table Int) (waiting : List (String × Int)) :
    p.VisitAll columns waiting (p.walk columns waiting) := by
  fun_induction p.walk columns waiting with
  | case1 columns => exact .nil
  | case2 columns id column rest h ih => exact .cons (.again h) ih
  | case3 columns id column rest h ih =>
    rw [entries_eq_branches] at ih ⊢
    obtain ⟨between, hfront, hrest⟩ := visitAll_append_iff.mp ih
    exact .cons (.first (Bool.eq_false_iff.mpr h) hfront) hrest

mutual

/-- Whatever else waits, the walk first does what the visit of the foremost id does. -/
theorem Visit.walk_cons {columns columns' : Table Int} {id : String} {column : Int} :
    p.Visit columns id column columns' → ∀ rest,
      p.walk columns ((id, column) :: rest) = p.walk columns' rest
  | .again h, rest => by rw [walk, if_pos h]
  | .first h successors, rest => by
    rw [walk, if_neg (Bool.eq_false_iff.mp h), entries_eq_branches, successors.walk_append rest]

theorem VisitAll.walk_append {columns columns' : Table Int} {front : List (String × Int)} :
    p.VisitAll columns front columns' → ∀ rest,
      p.walk columns (front ++ rest) = p.walk columns' rest
  | .nil, rest => rfl
  | .cons head tail, rest => by
    rw [List.cons_append, head.walk_cons, tail.walk_append rest]

end

/-- Every turn takes an entry off the list or spends the flows of an id that had no column. -/
theorem exists_turns (columns : Table Int) (waiting : List (String × Int)) :
    ∃ n ≤ waiting.length + (p.unwalked columns).length,
      p.turn^[n] (columns, waiting) = (p.walk columns waiting, []) := by
  fun_induction p.walk columns waiting with
  | case1 columns => exact ⟨0, Nat.zero_le _, rfl⟩
  | case2 columns id column rest h ih =>
    obtain ⟨n, hn, hturns⟩ := ih
    refine ⟨n + 1, by rw [List.length_cons]; omega, ?_⟩
    rw [Function.iterate_succ_apply, turn, if_pos h, hturns]
  | case3 columns id column rest h ih =>
    obtain ⟨n, hn, hturns⟩ := ih
    have hflows := length_unwalked_insert (p := p) column (Bool.eq_false_iff.mpr h)
    have hentries := length_entries p id column
    rw [List.length_append] at hn
    refine ⟨n + 1, by rw [List.length_cons]; omega, ?_⟩
    rw [Function.iterate_succ_apply, turn, if_neg h, ← entries_eq_branches, hturns]

/-- The walk ends after at most one turn for every flow and one for the start,
with the one table that the recursive visit of the start at column zero gives. -/
theorem visitAll_iff_walkedColumns (p : ProcessGraph) (start? : Option String) :
    (∀ columns, p.VisitAll .empty (start?.toList.map (·, 0)) columns ↔
      columns = p.walkedColumns start?) ∧
    ∃ n ≤ p.flows.length + 1,
      p.turn^[n] (.empty, start?.toList.map (·, 0)) = (p.walkedColumns start?, []) := by
  constructor
  · intro columns
    constructor
    · intro h
      have hwalk := h.walk_append []
      rw [List.append_nil, walk.eq_1] at hwalk
      exact hwalk.symm
    · rintro rfl
      exact visitAll_walk .empty _
  · obtain ⟨n, hn, hturns⟩ := exists_turns (p := p) .empty (start?.toList.map (·, 0))
    have hflows : (p.unwalked .empty).length ≤ p.flows.length := List.length_filter_le _ _
    have hstart : (start?.toList.map (·, (0 : Int))).length ≤ 1 := by cases start? <;> simp
    exact ⟨n, by omega, hturns⟩

-- The join of two branches keeps the column of the first, and a cycle changes nothing.
example :
    (walkedColumns ⟨"P", none, [], [⟨"f1", "s", "a"⟩, ⟨"f2", "s", "b"⟩, ⟨"f3", "a", "join"⟩,
      ⟨"f4", "b", "join"⟩, ⟨"f5", "join", "s"⟩]⟩ (some "s")).entries =
      [("s", 0), ("a", -1), ("join", -1), ("b", 1)] := by cbv

end ProcessChart.ProcessGraph

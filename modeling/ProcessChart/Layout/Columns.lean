import ProcessChart.ProcessGraph.Basic
import ProcessChart.Table

/-!
The column of a node is its lane, counted from the centre. A walk from the
start, branches in their declared order, gives each node the column by which it
is first reached: a single successor stays in the column, and several fan out to
both sides. Afterwards every node with more than one incoming flow moves to the
rounded mean of the columns it is entered from, in the order of the process, and
nodes without a column get column zero.
-/
namespace ProcessChart.ProcessGraph

/-- Branches lie one to the left, one to the right, two to the left, and so on. -/
def branchOffset (index : Nat) : Int :=
  if index % 2 = 0 then -(index / 2 + 1 : Nat) else (index / 2 + 1 : Nat)

/-- The successors of a node in column `column`, each with the column in which it is entered. -/
def entries (p : ProcessGraph) (id : String) (column : Int) : List (String × Int) :=
  match p.successors id with
  | [] => []
  | [x] => [(x, column)]
  | xs => xs.mapIdx fun i x => (x, column + branchOffset i)

theorem length_entries (p : ProcessGraph) (id : String) (column : Int) :
    (p.entries id column).length = (p.flowsFrom id).length := by
  rw [← length_successors]
  unfold entries
  split <;> simp_all

theorem map_fst_entries (p : ProcessGraph) (id : String) (column : Int) :
    (p.entries id column).map (·.1) = p.successors id := by
  unfold entries
  split
  · next h => rw [h]; rfl
  · next x h => rw [h]; rfl
  · apply List.ext_getElem?
    intro i
    simp [List.getElem?_mapIdx, Function.comp_def]

/-- Flows whose source has no column yet. -/
def unwalked (p : ProcessGraph) (columns : Table Int) : List Flow :=
  p.flows.filter fun f => !columns.contains f.source

theorem length_unwalked_insert {p : ProcessGraph} {columns : Table Int} {id : String} (column : Int)
    (h : columns.contains id = false) :
    (p.unwalked (columns.insert id column)).length + (p.flowsFrom id).length =
      (p.unwalked columns).length := by
  unfold unwalked flowsFrom
  induction p.flows with
  | nil => rfl
  | cons f rest ih =>
    by_cases hf : f.source = id
    · simp [Table.contains_insert, hf, h] at ih ⊢
      omega
    · by_cases hv : columns.contains f.source = true <;>
        simp [Table.contains_insert, hf, hv] at ih ⊢ <;> omega

/-- Walks the waiting entries, last come first served; the first column of an id wins. -/
def walk (p : ProcessGraph) (columns : Table Int) (waiting : List (String × Int)) : Table Int :=
  match waiting with
  | [] => columns
  | (id, column) :: rest =>
    if columns.contains id then p.walk columns rest
    else p.walk (columns.insert id column) (p.entries id column ++ rest)
termination_by waiting.length + (p.unwalked columns).length
decreasing_by
  · simp
  · rename_i h
    have h1 := length_unwalked_insert (p := p) column (Bool.eq_false_iff.mpr h)
    have h2 := length_entries p id column
    simp only [List.length_append, List.length_cons]
    omega

def total (values : List Int) : Int := values.foldr (· + ·) 0

/-- The mean rounded to the nearest whole number, a half upwards. -/
def roundedMean (values : List Int) : Int :=
  (2 * total values + values.length) / (2 * values.length)

/-- Moves the node with this id to the middle of its predecessors if it is a merge. -/
def centre (p : ProcessGraph) (columns : Table Int) (id : String) : Table Int :=
  let predecessors := p.predecessors id
  if 1 < predecessors.length then
    columns.insert id (roundedMean (predecessors.map fun x => (columns.get? x).getD 0))
  else columns

def walkedColumns (p : ProcessGraph) (start? : Option String) : Table Int :=
  p.walk .empty (start?.toList.map (·, 0))

def columns (p : ProcessGraph) (start? : Option String) : Table Int :=
  let centred := p.nodeIds.foldl p.centre (p.walkedColumns start?)
  p.nodeIds.foldl (fun t id => t.insertNew id 0) centred

end ProcessChart.ProcessGraph

import ProcessChart.ProcessGraph.Basic
import ProcessChart.Table

/-!
The level of a node is its row. Nodes are visited so that, as far as cycles
allow, every node comes after all its predecessors; a node is then placed one
level below its deepest predecessor. The visit starts at the start node,
releases a node as soon as all its predecessors have been visited, and ends with
the nodes never released, in the order of the process.
-/
namespace ProcessChart.ProcessGraph

/-- The nodes whose last missing predecessor is the node just visited. A node
entered by several flows counts where the last of them is declared. -/
def releasedBy (p : ProcessGraph) (visited : List String) (id : String) : List String :=
  ((p.successors id).reverse.eraseDups.reverse).filter fun x =>
    p.hasNode x && (p.predecessors x).all (visited.contains ·)

theorem length_eraseDups_le {α : Type} [BEq α] [LawfulBEq α] (l : List α) :
    l.eraseDups.length ≤ l.length := by
  induction h : l.length using Nat.strongRecOn generalizing l with
  | _ n ih =>
    cases l with
    | nil => simp
    | cons a rest =>
      rw [List.eraseDups_cons]
      have hf := List.length_filter_le (fun b => !b == a) rest
      simp only [List.length_cons] at h ⊢
      have := ih (rest.filter fun b => !b == a).length (by omega) _ rfl
      omega

theorem length_releasedBy_le (p : ProcessGraph) (visited : List String) (id : String) :
    (p.releasedBy visited id).length ≤ (p.flowsFrom id).length := by
  refine Nat.le_trans (List.length_filter_le _ _) ?_
  have h := length_eraseDups_le (p.successors id).reverse
  rw [List.length_reverse, length_successors] at h
  rwa [List.length_reverse]

/-- Flows whose source is not yet visited. -/
def pending (p : ProcessGraph) (visited : List String) : List Flow :=
  p.flows.filter fun f => !visited.contains f.source

/-- A visit takes the flows out of the id off the pending ones. -/
theorem countP_pending_append {p : ProcessGraph} {visited : List String} {id : String}
    (counts : Flow → Bool) (h : visited.contains id = false) :
    (p.pending (visited ++ [id])).countP counts + (p.flowsFrom id).countP counts =
      (p.pending visited).countP counts := by
  unfold pending flowsFrom
  induction p.flows with
  | nil => rfl
  | cons f rest ih =>
    simp only [List.filter_cons]
    by_cases hf : f.source = id
    · have hv : f.source ∉ visited := by simpa [hf] using h
      simp [hf] at hv ih ⊢
      simp [hv, List.countP_cons]
      omega
    · by_cases hv : f.source ∈ visited <;> simp [hf, hv, List.countP_cons] at ih ⊢ <;> omega

theorem length_pending_append {p : ProcessGraph} {visited : List String} {id : String}
    (h : visited.contains id = false) :
    (p.pending (visited ++ [id])).length + (p.flowsFrom id).length =
      (p.pending visited).length := by
  have hflows := countP_pending_append (p := p) (fun _ => true) h
  simpa only [List.countP_true] using hflows

/-- Visits the waiting ids in turn; an id already visited is passed over. -/
def release (p : ProcessGraph) (visited waiting : List String) : List String :=
  match waiting with
  | [] => visited
  | id :: rest =>
    if visited.contains id then p.release visited rest
    else p.release (visited ++ [id]) (rest ++ p.releasedBy (visited ++ [id]) id)
termination_by waiting.length + (p.pending visited).length
decreasing_by
  · simp
  · rename_i h
    have h1 := length_pending_append (p := p) (Bool.eq_false_iff.mpr h)
    have h2 := length_releasedBy_le p (visited ++ [id]) id
    simp only [List.length_append, List.length_cons]
    omega

/-- The nodes reached from the start before the visit gets stuck. -/
def releasedFrom (p : ProcessGraph) (start? : Option String) : List String :=
  p.release [] (start?.toList.filter p.hasNode)

def visitOrder (p : ProcessGraph) (start? : Option String) : List String :=
  let reached := p.releasedFrom start?
  reached ++ (p.nodeIds.filter fun id => !reached.contains id).eraseDups

/-- One below the deepest predecessor; predecessors without a level count as level zero. -/
def levelBelow (levels : Table Nat) (predecessors : List String) : Nat :=
  (predecessors.map fun x => (levels.get? x).getD 0 + 1).foldl max 0

/-- The start is at level zero, be it a node or not. -/
def levels (p : ProcessGraph) (start? : Option String) : Table Nat :=
  let initial : Table Nat := ⟨start?.toList.map (·, 0)⟩
  (p.visitOrder start?).foldl
    (fun t id => if some id = start? then t else t.insert id (levelBelow t (p.predecessors id)))
    initial

end ProcessChart.ProcessGraph

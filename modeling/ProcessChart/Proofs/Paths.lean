import ProcessChart.ProcessGraph.Basic
import Mathlib.Data.List.Nodup
import Mathlib.Data.List.Perm.Subperm
import Mathlib.Data.Nat.Find
import Mathlib.Order.Bounds.Basic

/-!
Paths along the flows of a process, counted in flows. In an acyclic process no
path is longer than the list of flows, so every id has a depth, the length of
the longest path that ends there, and facts can be proved of an id from the
same facts of its predecessors.
-/

namespace ProcessChart.ProcessGraph

variable {p : ProcessGraph}

/-- Parallel flows make different paths of equal length. -/
inductive Path (p : ProcessGraph) (a : String) : String → Nat → Prop
  | nil : Path p a a 0
  | tail {n : Nat} (f : Flow) : f ∈ p.flows → Path p a f.source n → Path p a f.target (n + 1)

/-- A path that returns to its first id is empty. -/
def Acyclic (p : ProcessGraph) : Prop := ∀ a n, p.Path a a n → n = 0

/-- The longest path that ends in the id, wherever it begins, has so many flows. -/
def Depth (p : ProcessGraph) (id : String) (d : Nat) : Prop :=
  IsGreatest {n | ∃ a, p.Path a id n} d

theorem path_zero_iff {a b : String} : p.Path a b 0 ↔ b = a := by
  constructor
  · intro h
    cases h with
    | nil => rfl
  · rintro rfl
    exact .nil

theorem path_succ_iff {a c : String} {n : Nat} :
    p.Path a c (n + 1) ↔ ∃ b ∈ p.predecessors c, p.Path a b n := by
  constructor
  · intro h
    cases h with
    | tail f hf h => exact ⟨f.source, mem_predecessors.mpr ⟨f, hf, rfl, rfl⟩, h⟩
  · rintro ⟨b, hb, h⟩
    obtain ⟨f, hf, rfl, rfl⟩ := mem_predecessors.mp hb
    exact .tail f hf h

theorem Path.trans {a b c : String} {m n : Nat} (h : p.Path a b m) (h' : p.Path b c n) :
    p.Path a c (m + n) := by
  induction h' with
  | nil => exact h
  | tail f hf _ ih => exact .tail f hf ih

theorem Path.snoc {a b c : String} {n : Nat} (h : p.Path a b n) (hb : b ∈ p.predecessors c) :
    p.Path a c (n + 1) := path_succ_iff.mpr ⟨b, hb, h⟩

/-- The sources of the flows on a path of an acyclic process are distinct: each
of them still has a flow to go, so meeting it again would close a cycle. -/
theorem Path.exists_sources (hacyc : p.Acyclic) {a b : String} {n : Nat} (h : p.Path a b n) :
    ∃ sources : List String, sources.length = n ∧ sources.Nodup ∧
      ∀ x ∈ sources, x ∈ p.flows.map (·.source) ∧ ∃ k, p.Path x b (k + 1) := by
  induction h with
  | nil => exact ⟨[], rfl, List.nodup_nil, by simp⟩
  | @tail n f hf h ih =>
    obtain ⟨sources, hlength, hnodup, hsources⟩ := ih
    have hnew : f.source ∉ sources := by
      intro hmem
      obtain ⟨-, k, hk⟩ := hsources _ hmem
      have hzero := hacyc _ _ hk
      omega
    refine ⟨f.source :: sources, by simp [hlength], List.nodup_cons.mpr ⟨hnew, hnodup⟩, ?_⟩
    intro x hx
    rcases List.mem_cons.mp hx with rfl | hx
    · exact ⟨List.mem_map.mpr ⟨f, hf, rfl⟩, 0, .tail f hf .nil⟩
    · obtain ⟨hflow, k, hk⟩ := hsources x hx
      exact ⟨hflow, k + 1, .tail f hf hk⟩

theorem Path.length_le (hacyc : p.Acyclic) {a b : String} {n : Nat} (h : p.Path a b n) :
    n ≤ p.flows.length := by
  obtain ⟨sources, hlength, hnodup, hsources⟩ := h.exists_sources hacyc
  have hsub : sources ⊆ p.flows.map (·.source) := fun x hx => (hsources x hx).1
  have hle := (hnodup.subperm hsub).length_le
  rw [List.length_map] at hle
  omega

theorem Acyclic.exists_depth (hacyc : p.Acyclic) (id : String) : ∃ d, p.Depth id d := by
  classical
  let longest := Nat.findGreatest (fun n => ∃ a, p.Path a id n) p.flows.length
  have hlongest : ∃ a, p.Path a id longest :=
    Nat.findGreatest_spec (P := fun n => ∃ a, p.Path a id n) (Nat.zero_le _) ⟨id, .nil⟩
  refine ⟨longest, hlongest, ?_⟩
  rintro n ⟨a, h⟩
  exact Nat.le_findGreatest (h.length_le hacyc) ⟨a, h⟩

namespace Depth

variable {id u : String} {d m : Nat}

theorem le_of_path (h : p.Depth id d) {a : String} {n : Nat} (hpath : p.Path a id n) : n ≤ d :=
  h.2 ⟨a, hpath⟩

theorem predecessor_lt (h : p.Depth id d) (hu : u ∈ p.predecessors id) (hm : p.Depth u m) :
    m < d := by
  obtain ⟨a, hpath⟩ := hm.1
  exact h.le_of_path (hpath.snoc hu)

/-- One of the predecessors lies exactly one flow less deep. -/
theorem exists_deepest (h : p.Depth id (d + 1)) : ∃ u ∈ p.predecessors id, p.Depth u d := by
  obtain ⟨a, hpath⟩ := h.1
  obtain ⟨u, hu, hshort⟩ := path_succ_iff.mp hpath
  refine ⟨u, hu, ⟨a, hshort⟩, ?_⟩
  rintro n ⟨b, hn⟩
  have hle := h.le_of_path (hn.snoc hu)
  omega

theorem eq_zero_iff (h : p.Depth id d) : d = 0 ↔ p.predecessors id = [] := by
  constructor
  · rintro rfl
    rw [List.eq_nil_iff_forall_not_mem]
    intro u hu
    have hle := h.le_of_path (Path.nil.snoc hu)
    omega
  · intro hnil
    obtain ⟨a, hpath⟩ := h.1
    cases d with
    | zero => rfl
    | succ d =>
      obtain ⟨u, hu, -⟩ := path_succ_iff.mp hpath
      simp [hnil] at hu

end Depth

/-- A property that passes from all predecessors of an id to the id holds everywhere. -/
theorem Acyclic.induction (hacyc : p.Acyclic) {motive : String → Prop}
    (step : ∀ id, (∀ u ∈ p.predecessors id, motive u) → motive id) (id : String) : motive id := by
  obtain ⟨d, hd⟩ := hacyc.exists_depth id
  induction d using Nat.strongRecOn generalizing id with
  | _ d ih =>
    refine step id fun u hu => ?_
    obtain ⟨m, hm⟩ := hacyc.exists_depth u
    exact ih m (hd.predecessor_lt hu hm) u hm

/-- Numbers that grow along every flow leave no room for a cycle. -/
theorem acyclic_of_rank (rank : String → Nat) (h : ∀ f ∈ p.flows, rank f.source < rank f.target) :
    p.Acyclic := by
  have hgrow : ∀ a b n, p.Path a b n → rank a + n ≤ rank b := by
    intro a b n hpath
    induction hpath with
    | nil => omega
    | tail f hf _ ih =>
      have := h f hf
      omega
  intro a n hpath
  have := hgrow a a n hpath
  omega

end ProcessChart.ProcessGraph

import ProcessChart.Proofs.Placement
import ProcessChart.Proofs.Visits
import Mathlib.Data.Set.Function
import Mathlib.Logic.Equiv.Basic

/-!
Ids matter only for which of them are equal. When the ids of the nodes are
replaced, different ones by different ones, the visit and the walk go through
the new ids in the same order, so that every node keeps its level and its
column, and with them its rectangle and its routes. Labels, names and the ids of
flows have no part in this.
-/

namespace ProcessChart

/-- Two laid out nodes differ only in their labels and by the renaming of their ids. -/
structure NodePlace.Renamed (f : String → String) (m n : NodePlace) : Prop where
  id : n.id = f m.id
  kind : n.kind = m.kind
  level : n.level = m.level
  column : n.column = m.column
  bounds : n.bounds = m.bounds

/-- Two routes differ only in their own ids and by the renaming of their ends. -/
structure EdgeRoute.Renamed (f : String → String) (d e : EdgeRoute) : Prop where
  source : e.source = f d.source
  target : e.target = f d.target
  points : e.points = d.points

namespace Table

variable {α : Type} {f : String → String} {ids : Set String} {t u : Table α}

/-- The second table has the entries of the first one under the new ids. -/
def Carries (f : String → String) (ids : Set String) (t u : Table α) : Prop :=
  ∀ id ∈ ids, u.get? (f id) = t.get? id

theorem carries_empty : Carries f ids (empty : Table α) empty := fun _ _ => rfl

theorem Carries.contains (h : Carries f ids t u) {id : String} (hid : id ∈ ids) :
    u.contains (f id) = t.contains id := by
  rw [Table.contains, Table.contains, h id hid]

theorem Carries.insert (h : Carries f ids t u) (hinj : Set.InjOn f ids) {id : String}
    (hid : id ∈ ids) (a : α) : Carries f ids (t.insert id a) (u.insert (f id) a) := by
  intro k hk
  rw [get?_insert, get?_insert, h k hk]
  exact if_congr (hinj.eq_iff hk hid) rfl rfl

theorem Carries.insertNew (h : Carries f ids t u) (hinj : Set.InjOn f ids) {id : String}
    (hid : id ∈ ids) (a : α) : Carries f ids (t.insertNew id a) (u.insertNew (f id) a) := by
  rw [Table.insertNew, Table.insertNew, h.contains hid]
  split
  · exact h
  · exact h.insert hinj hid a

/-- Tables that are changed for one id after the other carry on to the end. -/
theorem Carries.foldl {step step' : Table α → String → Table α} {order : List String}
    (hstep : ∀ id ∈ order, ∀ t u, Carries f ids t u → Carries f ids (step t id) (step' u (f id)))
    (h : Carries f ids t u) : Carries f ids (order.foldl step t) ((order.map f).foldl step' u) := by
  induction order generalizing t u with
  | nil => exact h
  | cons id rest ih =>
    rw [List.map_cons, List.foldl_cons, List.foldl_cons]
    exact ih (fun x hx => hstep x (List.mem_cons_of_mem id hx)) (hstep id List.mem_cons_self t u h)

end Table

section Lists

variable {f : String → String} {ids : Set String}

theorem contains_map_of_injOn (hinj : Set.InjOn f ids) {l : List String} {id : String}
    (hl : ∀ x ∈ l, x ∈ ids) (hid : id ∈ ids) : (l.map f).contains (f id) = l.contains id := by
  rw [Bool.eq_iff_iff, List.contains_iff_mem, List.contains_iff_mem, List.mem_map]
  constructor
  · rintro ⟨x, hx, heq⟩
    exact hinj (hl x hx) hid heq ▸ hx
  · exact fun h => ⟨id, h, rfl⟩

theorem eraseDups_map_of_injOn (hinj : Set.InjOn f ids) {l : List String}
    (hl : ∀ x ∈ l, x ∈ ids) : (l.map f).eraseDups = l.eraseDups.map f := by
  -- The recursion goes on with a filtered tail, so the induction is on the length.
  induction h : l.length using Nat.strongRecOn generalizing l with
  | _ n ih =>
    cases l with
    | nil => rfl
    | cons a rest =>
      have hle := List.length_filter_le (fun b => !b == a) rest
      have hfilter : (rest.map f).filter (fun b => !b == f a) =
          (rest.filter fun b => !b == a).map f := by
        rw [List.filter_map]
        refine congrArg (List.map f) (List.filter_congr fun b hb => ?_)
        have heq := hinj.eq_iff (hl b (List.mem_cons_of_mem a hb)) (hl a List.mem_cons_self)
        simp [heq]
      rw [List.map_cons, List.eraseDups_cons, List.eraseDups_cons, hfilter, List.map_cons]
      rw [List.length_cons] at h
      refine congrArg (f a :: ·) (ih _ (by omega) (fun x hx => ?_) rfl)
      exact hl x (List.mem_cons_of_mem a (List.mem_filter.mp hx).1)

end Lists

namespace ProcessGraph

/-- The ids that stand for nodes, be there a node or not. -/
def mentionedIds (p : ProcessGraph) : Set String :=
  {id | id ∈ p.nodeIds ∨ ∃ e ∈ p.flows, e.source = id ∨ e.target = id}

/-- The second process is the first one with other ids for its nodes, different
ones for different nodes. Everything else but the kinds of the nodes is free. -/
structure Renamed (f : String → String) (p q : ProcessGraph) : Prop where
  injOn : Set.InjOn f p.mentionedIds
  nodes : List.Forall₂ (fun m n => n.id = f m.id ∧ n.kind = m.kind) p.nodes q.nodes
  flows : List.Forall₂ (fun d e => e.source = f d.source ∧ e.target = f d.target) p.flows q.flows

section Mentioned

variable {p : ProcessGraph} {id x : String}

theorem mentioned_of_mem_nodeIds (h : id ∈ p.nodeIds) : id ∈ p.mentionedIds := Or.inl h

theorem mentioned_of_mem_successors (h : x ∈ p.successors id) : x ∈ p.mentionedIds := by
  obtain ⟨e, he, -, rfl⟩ := mem_successors.mp h
  exact Or.inr ⟨e, he, Or.inr rfl⟩

theorem mentioned_of_mem_predecessors (h : x ∈ p.predecessors id) : x ∈ p.mentionedIds := by
  obtain ⟨e, he, -, rfl⟩ := mem_predecessors.mp h
  exact Or.inr ⟨e, he, Or.inl rfl⟩

theorem mentioned_of_mem_startId? (h : id ∈ p.startId?) : id ∈ p.mentionedIds :=
  mentioned_of_mem_nodeIds (mem_nodeIds_of_mem_startId? h)

end Mentioned

namespace Renamed

variable {f : String → String} {p q : ProcessGraph} (h : p.Renamed f q) {id : String}

include h

theorem nodeIds_eq : q.nodeIds = p.nodeIds.map f := by
  have hids : List.Forall₂ (· = ·) (q.nodes.map (·.id)) ((p.nodes.map (·.id)).map f) := by
    rw [List.map_map, List.forall₂_map_left_iff, List.forall₂_map_right_iff]
    exact (h.nodes.imp fun m n hn => hn.1).flip
  rwa [List.forall₂_eq_eq_eq] at hids

theorem hasNode_eq (hid : id ∈ p.mentionedIds) : q.hasNode (f id) = p.hasNode id := by
  have hmap := contains_map_of_injOn h.injOn (fun x hx => mentioned_of_mem_nodeIds hx) hid
  rw [← h.nodeIds_eq, Bool.eq_iff_iff, List.contains_iff_mem, List.contains_iff_mem] at hmap
  rw [Bool.eq_iff_iff, hasNode_iff, hasNode_iff, hmap]

theorem startId?_eq : q.startId? = p.startId?.map f := by
  have hhead : ∀ {ms ns : List Node},
      List.Forall₂ (fun m n => n.id = f m.id ∧ n.kind = m.kind) ms ns →
        ns.head?.map (·.id) = (ms.head?.map (·.id)).map f := by
    intro ms ns hforall
    cases hforall with
    | nil => rfl
    | cons hn _ => exact congrArg some hn.1
  have hstarts : List.Forall₂ (fun m n => n.id = f m.id ∧ n.kind = m.kind)
      (p.nodesOfKind .startEvent) (q.nodesOfKind .startEvent) := by
    refine List.rel_filter ?_ h.nodes
    intro m n hn
    simp [hn.2]
  rw [startId?, startId?, Option.map_or, Option.map_or, Option.map_or, hhead hstarts,
    hhead h.nodes]

/-- One end of the flows that have a given id at the other end. -/
theorem filter_map_eq {key value : Flow → String} (hid : id ∈ p.mentionedIds)
    (hkey : ∀ d ∈ p.flows, key d ∈ p.mentionedIds)
    (hends : List.Forall₂ (fun d e => key e = f (key d) ∧ value e = f (value d)) p.flows q.flows) :
    (q.flows.filter (key · = f id)).map value =
      ((p.flows.filter (key · = id)).map value).map f := by
  generalize p.flows = ds, q.flows = es at hkey hends
  induction hends with
  | nil => rfl
  | @cons d e ds es he _ ih =>
    have hiff : key e = f id ↔ key d = id := by
      rw [he.1]
      exact h.injOn.eq_iff (hkey d List.mem_cons_self) hid
    have hrest := ih fun d hd => hkey d (List.mem_cons_of_mem _ hd)
    by_cases hd : key d = id
    · simp [hiff.mpr hd, hd, hrest, he.2]
    · simp [mt hiff.mp hd, hd, hrest]

theorem successors_eq (hid : id ∈ p.mentionedIds) :
    q.successors (f id) = (p.successors id).map f :=
  h.filter_map_eq hid (fun d hd => Or.inr ⟨d, hd, Or.inl rfl⟩) h.flows

theorem predecessors_eq (hid : id ∈ p.mentionedIds) :
    q.predecessors (f id) = (p.predecessors id).map f :=
  h.filter_map_eq hid (fun d hd => Or.inr ⟨d, hd, Or.inr rfl⟩)
    (h.flows.imp fun _ _ he => he.symm)

theorem releasedBy_eq {visited : List String} (hvisited : ∀ x ∈ visited, x ∈ p.mentionedIds)
    (hid : id ∈ p.mentionedIds) :
    q.releasedBy (visited.map f) (f id) = (p.releasedBy visited id).map f := by
  have hsuccessors : ∀ x ∈ (p.successors id).reverse, x ∈ p.mentionedIds :=
    fun x hx => mentioned_of_mem_successors (List.mem_reverse.mp hx)
  rw [releasedBy, releasedBy, h.successors_eq hid, ← List.map_reverse,
    eraseDups_map_of_injOn h.injOn hsuccessors, ← List.map_reverse, List.filter_map]
  refine congrArg (List.map f) (List.filter_congr fun x hx => ?_)
  have hx' : x ∈ p.mentionedIds :=
    hsuccessors x (List.mem_eraseDups.mp (List.mem_reverse.mp hx))
  have hall : ((p.predecessors x).map f).all ((visited.map f).contains ·) =
      (p.predecessors x).all (visited.contains ·) := by
    rw [List.all_map, Bool.eq_iff_iff, List.all_eq_true, List.all_eq_true]
    refine forall₂_congr fun y hy => ?_
    rw [Function.comp_apply,
      contains_map_of_injOn h.injOn hvisited (mentioned_of_mem_predecessors hy)]
  simp only [Function.comp_apply, h.hasNode_eq hx', h.predecessors_eq hx', hall]

/-- The visit goes through the new ids in the order of the old ones. -/
theorem release_eq {visited waiting : List String}
    (hvisited : ∀ x ∈ visited, x ∈ p.mentionedIds) (hwaiting : ∀ x ∈ waiting, x ∈ p.mentionedIds) :
    q.release (visited.map f) (waiting.map f) = (p.release visited waiting).map f := by
  fun_induction p.release visited waiting with
  | case1 visited => rw [List.map_nil, release]
  | case2 visited id rest hmem ih =>
    have hid := hwaiting id List.mem_cons_self
    rw [List.map_cons, release, contains_map_of_injOn h.injOn hvisited hid, if_pos hmem]
    exact ih hvisited fun x hx => hwaiting x (List.mem_cons_of_mem id hx)
  | case3 visited id rest hmem ih =>
    have hid := hwaiting id List.mem_cons_self
    have hvisited' : ∀ x ∈ visited ++ [id], x ∈ p.mentionedIds := by
      intro x hx
      rcases List.mem_append.mp hx with hx | hx
      · exact hvisited x hx
      · exact List.mem_singleton.mp hx ▸ hid
    have hmap : visited.map f ++ [f id] = (visited ++ [id]).map f := by
      rw [List.map_append, List.map_singleton]
    rw [List.map_cons, release, contains_map_of_injOn h.injOn hvisited hid, if_neg hmem, hmap,
      h.releasedBy_eq hvisited' hid, ← List.map_append]
    refine ih hvisited' fun x hx => ?_
    rcases List.mem_append.mp hx with hx | hx
    · exact hwaiting x (List.mem_cons_of_mem id hx)
    · exact mentioned_of_mem_nodeIds (mem_releasedBy.mp hx).2.1

theorem releasedFrom_eq {start? : Option String} (hstart : ∀ x ∈ start?, x ∈ p.mentionedIds) :
    q.releasedFrom (start?.map f) = (p.releasedFrom start?).map f := by
  have hwaiting : (start?.map f).toList.filter q.hasNode = (start?.toList.filter p.hasNode).map f := by
    cases start? with
    | none => rfl
    | some x => cases hx : p.hasNode x <;> simp [h.hasNode_eq (hstart x rfl), hx]
  rw [releasedFrom, releasedFrom, hwaiting]
  have hnone : ∀ x ∈ ([] : List String), x ∈ p.mentionedIds := by simp
  refine h.release_eq hnone fun x hx => ?_
  exact hstart x (Option.mem_toList.mp (List.mem_filter.mp hx).1)

theorem visitOrder_eq {start? : Option String} (hstart : ∀ x ∈ start?, x ∈ p.mentionedIds) :
    q.visitOrder (start?.map f) = (p.visitOrder start?).map f := by
  have hreached : ∀ x ∈ p.releasedFrom start?, x ∈ p.mentionedIds :=
    fun x hx => mentioned_of_mem_nodeIds (visiting_releasedFrom.visited_nodes x hx)
  have hleft : (p.nodeIds.map f).filter (fun id => !((p.releasedFrom start?).map f).contains id) =
      (p.nodeIds.filter fun id => !(p.releasedFrom start?).contains id).map f := by
    rw [List.filter_map]
    refine congrArg (List.map f) (List.filter_congr fun x hx => ?_)
    rw [Function.comp_apply,
      contains_map_of_injOn h.injOn hreached (mentioned_of_mem_nodeIds hx)]
  rw [visitOrder, visitOrder, h.releasedFrom_eq hstart, h.nodeIds_eq, hleft,
    eraseDups_map_of_injOn h.injOn fun x hx => mentioned_of_mem_nodeIds (List.mem_filter.mp hx).1,
    List.map_append]

theorem levelBelow_eq {t u : Table Nat} (htable : Table.Carries f p.mentionedIds t u)
    (hid : id ∈ p.mentionedIds) :
    levelBelow u (q.predecessors (f id)) = levelBelow t (p.predecessors id) := by
  rw [levelBelow, levelBelow, h.predecessors_eq hid, List.map_map]
  refine congrArg (List.foldl max 0) (List.map_congr_left fun x hx => ?_)
  rw [Function.comp_apply, htable x (mentioned_of_mem_predecessors hx)]

theorem levels_carries {start? : Option String} (hstart : ∀ x ∈ start?, x ∈ p.mentionedIds) :
    Table.Carries f p.mentionedIds (p.levels start?) (q.levels (start?.map f)) := by
  have hisStart : ∀ id ∈ p.mentionedIds, some (f id) = start?.map f ↔ some id = start? := by
    intro id hid
    cases start? with
    | none => simp
    | some x => simpa using h.injOn.eq_iff hid (hstart x rfl)
  rw [levels, levels, h.visitOrder_eq hstart]
  refine Table.Carries.foldl ?_ ?_
  · intro id hid t u htable
    have hid' : id ∈ p.mentionedIds := mentioned_of_mem_nodeIds (mem_visitOrder.mp hid)
    rw [h.levelBelow_eq htable hid']
    by_cases hs : some id = start?
    · rwa [if_pos hs, if_pos ((hisStart id hid').mpr hs)]
    · rw [if_neg hs, if_neg (mt (hisStart id hid').mp hs)]
      exact htable.insert h.injOn hid' _
  · intro id hid
    cases start? with
    | none => rfl
    | some x =>
      have heq := h.injOn.eq_iff hid (hstart x rfl)
      simp [Table.get?, Table.lookup_cons_ite, heq]

theorem entries_eq (hid : id ∈ p.mentionedIds) (column : Int) :
    q.entries (f id) column = (p.entries id column).map fun e => (f e.1, e.2) := by
  rw [entries, entries, h.successors_eq hid]
  match p.successors id with
  | [] => rfl
  | [x] => rfl
  | x :: y :: rest =>
    change ((x :: y :: rest).map f).mapIdx _ = List.map _ ((x :: y :: rest).mapIdx _)
    apply List.ext_getElem?
    intro i
    rw [List.getElem?_mapIdx, List.getElem?_map, List.getElem?_map, List.getElem?_mapIdx,
      Option.map_map, Option.map_map]
    rfl

omit h in
theorem mentioned_of_mem_entries {column : Int} {e : String × Int}
    (he : e ∈ p.entries id column) : e.1 ∈ p.mentionedIds := by
  have hnext : e.1 ∈ p.successors id := by
    rw [← map_fst_entries p id column]
    exact List.mem_map_of_mem he
  exact mentioned_of_mem_successors hnext

/-- The walk goes through the new ids in the order of the old ones. -/
theorem walk_carries {t u : Table Int} {waiting : List (String × Int)}
    (htable : Table.Carries f p.mentionedIds t u) (hwaiting : ∀ e ∈ waiting, e.1 ∈ p.mentionedIds) :
    Table.Carries f p.mentionedIds (p.walk t waiting)
      (q.walk u (waiting.map fun e => (f e.1, e.2))) := by
  fun_induction p.walk t waiting generalizing u with
  | case1 t => rwa [List.map_nil, walk]
  | case2 t id column rest hmem ih =>
    have hid := hwaiting (id, column) List.mem_cons_self
    rw [List.map_cons, walk, htable.contains hid, if_pos hmem]
    exact ih htable fun e he => hwaiting e (List.mem_cons_of_mem _ he)
  | case3 t id column rest hmem ih =>
    have hid := hwaiting (id, column) List.mem_cons_self
    rw [List.map_cons, walk, htable.contains hid, if_neg hmem, h.entries_eq hid, ← List.map_append]
    refine ih (htable.insert h.injOn hid column) fun e he => ?_
    rcases List.mem_append.mp he with he | he
    · exact mentioned_of_mem_entries he
    · exact hwaiting e (List.mem_cons_of_mem _ he)

theorem centre_carries {t u : Table Int} (htable : Table.Carries f p.mentionedIds t u)
    (hid : id ∈ p.mentionedIds) :
    Table.Carries f p.mentionedIds (p.centre t id) (q.centre u (f id)) := by
  have hvalues : (q.predecessors (f id)).map (fun x => (u.get? x).getD 0) =
      (p.predecessors id).map fun x => (t.get? x).getD 0 := by
    rw [h.predecessors_eq hid, List.map_map]
    refine List.map_congr_left fun x hx => ?_
    rw [Function.comp_apply, htable x (mentioned_of_mem_predecessors hx)]
  rw [centre, centre, hvalues, h.predecessors_eq hid, List.length_map]
  split
  · exact htable.insert h.injOn hid _
  · exact htable

theorem columns_carries {start? : Option String} (hstart : ∀ x ∈ start?, x ∈ p.mentionedIds) :
    Table.Carries f p.mentionedIds (p.columns start?) (q.columns (start?.map f)) := by
  have hwalked : Table.Carries f p.mentionedIds (p.walkedColumns start?)
      (q.walkedColumns (start?.map f)) := by
    have hwaiting : ∀ e ∈ (start?.map fun x => (x, (0 : Int))).toList, e.1 ∈ p.mentionedIds := by
      cases start? with
      | none => simp
      | some x => simpa using hstart x rfl
    have hwalk := h.walk_carries Table.carries_empty hwaiting
    cases start? <;> exact hwalk
  rw [columns, columns, h.nodeIds_eq]
  refine Table.Carries.foldl ?_ (Table.Carries.foldl ?_ hwalked)
  · intro id hid t u htable
    exact htable.insertNew h.injOn (mentioned_of_mem_nodeIds hid) 0
  · intro id hid t u htable
    exact h.centre_carries htable (mentioned_of_mem_nodeIds hid)

variable (s : LayoutSettings)

theorem placeNodes_renamed :
    List.Forall₂ (NodePlace.Renamed f) (p.placeNodes s) (q.placeNodes s) := by
  have hlevels := h.levels_carries fun x hx => mentioned_of_mem_startId? hx
  have hcolumns := h.columns_carries fun x hx => mentioned_of_mem_startId? hx
  rw [← h.startId?_eq] at hlevels hcolumns
  rw [placeNodes, placeNodes, List.forall₂_map_left_iff, List.forall₂_map_right_iff]
  have hplace : ∀ m ∈ p.nodes, ∀ n : Node, n.id = f m.id ∧ n.kind = m.kind →
      NodePlace.Renamed f (placeNode s (p.levels p.startId?) (p.columns p.startId?) m)
        (placeNode s (q.levels q.startId?) (q.columns q.startId?) n) := by
    rintro m hm n ⟨hid, hkind⟩
    have hmem : m.id ∈ p.mentionedIds := mentioned_of_mem_nodeIds (List.mem_map_of_mem hm)
    have hlevel := hlevels m.id hmem
    have hcolumn := hcolumns m.id hmem
    constructor <;> simp only [placeNode, hid, hkind, hlevel, hcolumn]
  have hnodes := (List.forall₂_and_left p.nodes q.nodes).mpr ⟨fun m hm => hm, h.nodes⟩
  exact hnodes.imp fun m n hn => hplace m hn.1 n hn.2

/-- A node lies in the same rectangle as the node from which it was renamed. -/
theorem find?_bounds_eq (hid : id ∈ p.mentionedIds) :
    ((q.placeNodes s).reverse.find? (·.id = f id)).map (·.bounds) =
      ((p.placeNodes s).reverse.find? (·.id = id)).map (·.bounds) := by
  have hplaces := List.rel_reverse (h.placeNodes_renamed s)
  have hids : ∀ m ∈ (p.placeNodes s).reverse, m.id ∈ p.mentionedIds := by
    intro m hm
    apply mentioned_of_mem_nodeIds
    have hnode : m.id ∈ (p.placeNodes s).map (·.id) :=
      List.mem_map_of_mem (List.mem_reverse.mp hm)
    rwa [ids_placeNodes] at hnode
  generalize (p.placeNodes s).reverse = ms, (q.placeNodes s).reverse = ns at hplaces hids
  induction hplaces with
  | nil => rfl
  | @cons m n ms ns hn _ ih =>
    have hiff : n.id = f id ↔ m.id = id := by
      rw [hn.id]
      exact h.injOn.eq_iff (hids m List.mem_cons_self) hid
    have hrest := ih fun x hx => hids x (List.mem_cons_of_mem m hx)
    by_cases hm : m.id = id
    · simp [hm, hiff.mpr hm, hn.bounds]
    · simpa [hm, mt hiff.mp hm] using hrest

theorem boundsOf_eq (hid : id ∈ p.mentionedIds) (flow flow' : String) :
    boundsOf (q.placeNodes s) flow' (f id) =
      (boundsOf (p.placeNodes s) flow id).mapError fun missing => ⟨flow', f missing.node⟩ := by
  have hfind := h.find?_bounds_eq s hid
  rw [boundsOf, boundsOf]
  cases hp : (p.placeNodes s).reverse.find? (·.id = id) with
  | none =>
    have hq : (q.placeNodes s).reverse.find? (·.id = f id) = none := by simpa [hp] using hfind
    rw [hq]
    rfl
  | some place =>
    rw [hp, Option.map_some, Option.map_eq_some_iff] at hfind
    obtain ⟨place', hq, hbounds⟩ := hfind
    rw [hq]
    exact congrArg Except.ok hbounds

/-- A renamed flow is routed like the flow it was renamed from, and fails like it. -/
theorem routeFlow_eq {d e : Flow} (hd : d ∈ p.flows)
    (he : e.source = f d.source ∧ e.target = f d.target) :
    routeFlow s (q.placeNodes s) e =
      ((routeFlow s (p.placeNodes s) d).mapError fun missing => ⟨e.id, f missing.node⟩).map
        fun route => ⟨e.id, f route.source, f route.target, route.points⟩ := by
  have hsource := h.boundsOf_eq s (Or.inr ⟨d, hd, Or.inl rfl⟩) d.id e.id
  have htarget := h.boundsOf_eq s (Or.inr ⟨d, hd, Or.inr rfl⟩) d.id e.id
  rw [routeFlow, routeFlow, he.1, he.2, hsource, htarget]
  cases boundsOf (p.placeNodes s) d.id d.source with
  | error missing => rfl
  | ok source =>
    cases boundsOf (p.placeNodes s) d.id d.target with
    | error missing => rfl
    | ok target => rfl

theorem exists_routes {edges : List EdgeRoute}
    (hedges : List.Forall₂ (fun d r => routeFlow s (p.placeNodes s) d = .ok r) p.flows edges) :
    ∃ edges', List.Forall₂ (fun e r => routeFlow s (q.placeNodes s) e = .ok r) q.flows edges' ∧
      List.Forall₂ (EdgeRoute.Renamed f) edges edges' := by
  have hroute : ∀ d ∈ p.flows, ∀ e : Flow, e.source = f d.source ∧ e.target = f d.target →
      ∀ r, routeFlow s (p.placeNodes s) d = .ok r →
        ∃ r', routeFlow s (q.placeNodes s) e = .ok r' ∧ EdgeRoute.Renamed f r r' := by
    intro d hd e he r hr
    have heq := h.routeFlow_eq s hd he
    rw [hr] at heq
    exact ⟨_, heq, rfl, rfl, rfl⟩
  have hflows := h.flows
  generalize p.flows = ds, q.flows = es at hedges hroute hflows
  induction hflows generalizing edges with
  | nil =>
    cases hedges
    exact ⟨[], .nil, .nil⟩
  | @cons d e ds es he _ ih =>
    obtain ⟨r, rest, hr, hrest, rfl⟩ := List.forall₂_cons_left_iff.mp hedges
    obtain ⟨r', hr', hrenamed⟩ := hroute d List.mem_cons_self e he r hr
    obtain ⟨rest', hrest', hrenamed'⟩ := ih hrest fun x hx => hroute x (List.mem_cons_of_mem d hx)
    exact ⟨r' :: rest', .cons hr' hrest', .cons hrenamed hrenamed'⟩

/-- The flow at which the layout fails keeps its position. -/
theorem failsAt {i : Nat} {missing : MissingBounds} (hfails : p.FailsAt s i missing) :
    ∃ missing', q.FailsAt s i missing' ∧ missing'.node = f missing.node := by
  obtain ⟨hi, hfail, hbefore⟩ := hfails
  obtain ⟨hlength, hflow⟩ := List.forall₂_iff_get.mp h.flows
  have hroute : ∀ j (hj : j < p.flows.length) (hj' : j < q.flows.length),
      routeFlow s (q.placeNodes s) q.flows[j] = _ :=
    fun j hj hj' => h.routeFlow_eq s (List.getElem_mem hj) (hflow j hj hj')
  have hi' : i < q.flows.length := hlength ▸ hi
  refine ⟨⟨q.flows[i].id, f missing.node⟩, ⟨hi', ?_, fun j hj => ?_⟩, rfl⟩
  · rw [hroute i hi hi', hfail]
    rfl
  · obtain ⟨r, hr⟩ := hbefore j hj
    rw [hroute j (Nat.lt_trans hj hi) (Nat.lt_trans hj hi'), hr]
    exact ⟨_, rfl⟩

end Renamed

/-- The layout depends on the ids of nodes only through which of them are equal. Under
other ids, and with other names, labels and ids of flows, a process has the same
layout, or the layout fails at the same flow for the same node. -/
theorem layOut_renamed {f : String → String} {p q : ProcessGraph} (h : p.Renamed f q)
    (s : LayoutSettings) :
    (∀ d, p.layOut s = .ok d → ∃ d', q.layOut s = .ok d' ∧
      List.Forall₂ (NodePlace.Renamed f) d.nodes d'.nodes ∧
      List.Forall₂ (EdgeRoute.Renamed f) d.edges d'.edges) ∧
    ∀ missing, p.layOut s = .error missing → ∃ i missing',
      q.layOut s = .error missing' ∧ p.FailsAt s i missing ∧ q.FailsAt s i missing' ∧
      missing'.node = f missing.node := by
  constructor
  · intro d hd
    obtain ⟨-, hnodes, hedges⟩ := layOut_eq_ok_iff.mp hd
    obtain ⟨edges, hroutes, hrenamed⟩ := h.exists_routes s hedges
    refine ⟨⟨q.id, q.placeNodes s, edges⟩, layOut_eq_ok_iff.mpr ⟨rfl, rfl, hroutes⟩, ?_, hrenamed⟩
    rw [hnodes]
    exact h.placeNodes_renamed s
  · intro missing hmissing
    obtain ⟨i, hfails⟩ := layOut_eq_error_iff.mp hmissing
    obtain ⟨missing', hfails', hnode⟩ := h.failsAt s hfails
    exact ⟨i, missing', layOut_eq_error_iff.mpr ⟨i, hfails'⟩, hfails, hfails', hnode⟩

/-- A circle entered from the start, with one id for two of its nodes. -/
def circle : ProcessGraph where
  id := "P"
  name := none
  nodes := [⟨"s", .startEvent, some "Start"⟩, ⟨"a", .task, none⟩, ⟨"b", .exclusiveGateway, none⟩,
    ⟨"a", .task, none⟩]
  flows := [⟨"f1", "s", "b"⟩, ⟨"f2", "b", "a"⟩, ⟨"f3", "a", "b"⟩]

/-- The same circle, with two ids exchanged and with other labels and ids of flows. -/
def exchangedCircle : ProcessGraph where
  id := "Q"
  name := some "Circle"
  nodes := [⟨"b", .startEvent, none⟩, ⟨"a", .task, some "A"⟩, ⟨"s", .exclusiveGateway, none⟩,
    ⟨"a", .task, some "B"⟩]
  flows := [⟨"f3", "b", "s"⟩, ⟨"f3", "s", "a"⟩, ⟨"f1", "a", "s"⟩]

theorem layOut_exchangedCircle :
    circle.Renamed (Equiv.swap "s" "b") exchangedCircle ∧
    ∃ d d', circle.layOut .standard = .ok d ∧ exchangedCircle.layOut .standard = .ok d' ∧
      List.Forall₂ (NodePlace.Renamed (Equiv.swap "s" "b")) d.nodes d'.nodes ∧
      List.Forall₂ (EdgeRoute.Renamed (Equiv.swap "s" "b")) d.edges d'.edges := by
  have hrenamed : circle.Renamed (Equiv.swap "s" "b") exchangedCircle := {
    injOn := (Equiv.injective _).injOn
    nodes := by simp [circle, exchangedCircle, Equiv.swap_apply_of_ne_of_ne]
    flows := by simp [circle, exchangedCircle, Equiv.swap_apply_of_ne_of_ne] }
  obtain ⟨d, hd⟩ : ∃ d, circle.layOut .standard = .ok d := exists_layOut (by decide)
  obtain ⟨d', hd', hnodes, hedges⟩ := (layOut_renamed hrenamed .standard).1 d hd
  exact ⟨hrenamed, d, d', hd, hd', hnodes, hedges⟩

end ProcessGraph

end ProcessChart

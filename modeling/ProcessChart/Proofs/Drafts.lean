import ProcessChart.Draft.Chain
import ProcessChart.Proofs.Admission
import ProcessChart.Proofs.Chains
import ProcessChart.Proofs.WrittenValues

/-!
Drafts are chains. Whatever the description says, its steps become the tasks of
a chain between a start and an end event, and no id of the draft clashes with
another: ids of one stem differ in their number, the stems differ in their first
letter, and a number never ends like the id of a shape or an edge.
-/

namespace ProcessChart

namespace Draft

section Ids

variable {stem other id : String} {i j : Nat}

/-- The first letter of an id, the line in front of the number where the stem is empty. -/
def initial (id : String) : Char := id.toList.head?.getD '_'

theorem toList_numbered (stem : String) (i : Nat) :
    (numbered stem i).toList = stem.toList ++ '_' :: Decimal.digits (i + 1) := by
  simp [numbered, Decimal.natText, String.toList_append]

theorem numbered_injective (stem : String) : Function.Injective (numbered stem) := by
  intro i j h
  have hchars := congrArg String.toList h
  rw [toList_numbered, toList_numbered, List.append_cancel_left_eq, List.cons.injEq] at hchars
  have := Decimal.digits_injective hchars.2
  omega

theorem initial_numbered (stem : String) (i : Nat) : initial (numbered stem i) = initial stem := by
  rw [initial, initial, toList_numbered, List.head?_append]
  cases stem.toList.head? <;> rfl

theorem numbered_ne (h : initial stem ≠ initial other) : numbered stem i ≠ numbered other j := by
  intro heq
  have hinitial := congrArg initial heq
  rw [initial_numbered, initial_numbered] at hinitial
  exact h hinitial

/-- A number ends in a digit, the id of a shape or an edge in a letter. -/
theorem numbered_ne_diagramId (stem : String) (i : Nat) (id : String) :
    numbered stem i ≠ diagramId id := by
  intro h
  have hlast : 'i' ∈ (numbered stem i).toList.getLast? := by
    rw [h]
    simp [diagramId, String.toList_append]
  rw [toList_numbered, List.getLast?_append_cons, List.getLast?_cons_of_ne_nil
    (Decimal.digits_ne_nil _)] at hlast
  have hdigit := Decimal.isDigit_of_mem_digits (List.mem_of_mem_getLast? hlast)
  exact absurd hdigit (by decide)

/-- Reserved ids begin with other letters than the stems of a draft. -/
theorem isTaken_numbered (p : ProcessGraph) (h : initial stem ∉ reservedIds.map initial) :
    p.isTaken (numbered stem i) = false := by
  rw [ProcessGraph.isTaken_eq_false_iff, List.mem_append, List.mem_map]
  rintro (hreserved | ⟨id, -, hid⟩)
  · exact h (initial_numbered stem i ▸ List.mem_map_of_mem hreserved)
  · exact numbered_ne_diagramId stem i id hid.symm

end Ids

section Chain

/-- What depends on the positions of a list only is counted through. -/
theorem map_mapIdx_eq_map_range {α β γ : Type} {f : Nat → α → β} {g : β → γ} {h : Nat → γ}
    (hf : ∀ i a, g (f i a) = h i) (l : List α) :
    (l.mapIdx f).map g = (List.range l.length).map h := by
  apply List.ext_getElem <;> simp [hf]

theorem kinds_chain (found : List String) :
    (chain found).nodes.map (fun n => (n.kind, n.label)) =
      (.startEvent, some "Start") ::
        (found.map (fun step => (.task, some step)) ++ [(.endEvent, some "Ende")]) := by
  have htasks : (found.mapIdx taskOf).map (fun n => (n.kind, n.label)) =
      found.map fun step => (.task, some step) := by
    apply List.ext_getElem <;> simp [taskOf]
  simp [chain, htasks]

theorem nodeIds_chain (found : List String) :
    (chain found).nodeIds = startId :: ((List.range found.length).map (numbered "Activity") ++
      [numbered "EndEvent" found.length]) := by
  have htasks : (found.mapIdx taskOf).map (·.id) =
      (List.range found.length).map (numbered "Activity") :=
    map_mapIdx_eq_map_range (by intro i step; rfl) found
  simp [ProcessGraph.nodeIds, chain, htasks]

theorem flowIds_chain (found : List String) :
    (chain found).flowIds = (List.range (found.length + 1)).map (numbered "Flow") := by
  have hflows : (found.mapIdx fun i _ => flowTo i (numbered "Activity" i)).map (·.id) =
      (List.range found.length).map (numbered "Flow") :=
    map_mapIdx_eq_map_range (by intro i step; rfl) found
  rw [ProcessGraph.flowIds, List.range_succ, List.map_append, ← hflows, chain, List.map_append]
  rfl

theorem map_idBefore (n : Nat) :
    (List.range (n + 1)).map idBefore = startId :: (List.range n).map (numbered "Activity") := by
  simp [List.range_succ_eq_map, idBefore]

/-- Every node but the last is left by the flow that enters the next one. -/
theorem links_chain (found : List String) :
    (chain found).flows.map (fun f => (f.source, f.target)) =
      (chain found).nodeIds.zip (chain found).nodeIds.tail := by
  have hflows : (found.mapIdx fun i _ => flowTo i (numbered "Activity" i)).map
        (fun f => (f.source, f.target)) =
      (List.range found.length).map fun i => (idBefore i, numbered "Activity" i) :=
    map_mapIdx_eq_map_range (by intro i step; rfl) found
  have hids : (chain found).nodeIds = (List.range found.length).map idBefore ++
      [idBefore found.length, numbered "EndEvent" found.length] := by
    have hfront := map_idBefore found.length
    rw [List.range_succ, List.map_append] at hfront
    rw [nodeIds_chain, ← List.cons_append, ← hfront]
    simp
  have htail : (chain found).nodeIds.tail = (List.range found.length).map (numbered "Activity") ++
      [numbered "EndEvent" found.length] := by
    rw [nodeIds_chain, List.tail_cons]
  rw [htail, hids, List.zip_append (by simp), List.zip_map', ← hflows]
  simp [chain, flowTo]

theorem nodup_nodeIds_chain (found : List String) : (chain found).nodeIds.Nodup := by
  have htasks : ((List.range found.length).map (numbered "Activity")).Nodup :=
    List.nodup_range.map (numbered_injective "Activity")
  have hend : ∀ i, numbered "Activity" i ≠ numbered "EndEvent" found.length :=
    fun i => numbered_ne (by decide)
  have hstart : ∀ i, startId ≠ numbered "Activity" i := fun i => numbered_ne (by decide)
  have hevents : startId ≠ numbered "EndEvent" found.length := numbered_ne (by decide)
  rw [nodeIds_chain, List.nodup_cons, List.nodup_append']
  refine ⟨?_, htasks, List.nodup_singleton _, ?_⟩
  · simp only [List.mem_append, List.mem_map, List.mem_singleton, not_or, not_exists, not_and]
    exact ⟨fun i _ h => hstart i h.symm, hevents⟩
  · simp only [List.disjoint_singleton, List.mem_map, not_exists, not_and]
    exact fun i _ => hend i

theorem isChain_chain (found : List String) : (chain found).IsChain where
  ids_distinct := nodup_nodeIds_chain found
  links := links_chain found
  starts := rfl

/-- The stems from which the ids of nodes and flows are numbered. -/
def stems : List String := ["StartEvent", "Activity", "EndEvent", "Flow"]

theorem exists_stem {id : String} (h : id ∈ (chain found).structuralIds) :
    ∃ stem ∈ stems, ∃ i, id = numbered stem i := by
  rw [ProcessGraph.structuralIds, nodeIds_chain, flowIds_chain] at h
  simp only [List.mem_append, List.mem_cons, List.mem_map, List.not_mem_nil, or_false] at h
  rcases h with (rfl | ⟨i, -, rfl⟩ | rfl) | ⟨i, -, rfl⟩
  · exact ⟨"StartEvent", by decide, 0, rfl⟩
  · exact ⟨"Activity", by decide, i, rfl⟩
  · exact ⟨"EndEvent", by decide, found.length, rfl⟩
  · exact ⟨"Flow", by decide, i, rfl⟩

theorem nodup_documentIds_chain (found : List String) : (chain found).documentIds.Nodup := by
  have hid : (chain found).id = numbered "Process" 0 := by
    have hdigits : Decimal.digits 1 = ['1'] := by
      rw [Decimal.digits]
      rfl
    show "Process_1" = numbered "Process" 0
    rw [← String.toList_inj, toList_numbered, hdigits]
    decide
  have hflows : (chain found).flowIds.Nodup := by
    rw [flowIds_chain]
    exact List.nodup_range.map (numbered_injective "Flow")
  have hapart : ∀ id ∈ (chain found).flowIds, id ∉ (chain found).nodeIds := by
    intro id hflow hnode
    rw [flowIds_chain] at hflow
    obtain ⟨i, -, rfl⟩ := List.mem_map.mp hflow
    rw [nodeIds_chain] at hnode
    simp only [List.mem_append, List.mem_cons, List.mem_map, List.not_mem_nil, or_false] at hnode
    rcases hnode with h | ⟨j, -, h⟩ | h
    · exact numbered_ne (by decide) h
    · exact numbered_ne (by decide) h.symm
    · exact numbered_ne (by decide) h
  have hstems : ∀ stem ∈ stems, initial stem ∉ reservedIds.map initial ∧
      initial "Process" ≠ initial stem := by decide
  rw [ProcessGraph.nodup_documentIds_iff]
  refine ⟨nodup_nodeIds_chain found, hflows, hapart, ⟨?_, ?_⟩, ?_⟩
  · rw [hid]
    exact isTaken_numbered _ (by decide)
  · intro h
    obtain ⟨stem, hstem, i, heq⟩ := exists_stem h
    rw [hid] at heq
    exact numbered_ne (hstems stem hstem).2 heq
  · intro id h
    obtain ⟨stem, hstem, i, rfl⟩ := exists_stem h
    exact isTaken_numbered _ (hstems stem hstem).1

/-- No gateway, no loose end, and no id twice. -/
theorem admissible_chain (found : List String) : (chain found).Admissible where
  start_exists := ⟨⟨startId, .startEvent, some "Start"⟩, by simp [chain], rfl⟩
  end_exists :=
    ⟨⟨numbered "EndEvent" found.length, .endEvent, some "Ende"⟩, by simp [chain], rfl⟩
  gateways_passable := by
    intro n hn hkind
    have hshown : (n.kind, n.label) ∈ (chain found).nodes.map (fun n => (n.kind, n.label)) :=
      List.mem_map_of_mem hn
    rw [kinds_chain, hkind] at hshown
    simp at hshown
  ends_exist := by
    intro f hf
    simpa only [ProcessGraph.mem_nodeIds] using (isChain_chain found).ends_mem hf
  ids_distinct := nodup_documentIds_chain found

end Chain

/-- The steps that a draft takes from a description. -/
def extracted (prompt : String) : List String := steps (if prompt = "" then standardPrompt else prompt)

/-- The draft of any description is valid and compiles. It is a chain of a start
event, a task for every step and an end event, each node one level below the
last and all of them in column zero. -/
theorem ofPrompt_compiles_to_chain (prompt : String) (s : LayoutSettings) :
    (ofPrompt prompt).isValid = true ∧
    3 ≤ (ofPrompt prompt).nodes.length ∧
    (ofPrompt prompt).nodes.map (fun n => (n.kind, n.label)) =
      (.startEvent, some "Start") ::
        ((extracted prompt).map (fun step => (.task, some step)) ++ [(.endEvent, some "Ende")]) ∧
    (ofPrompt prompt).IsChain ∧
    ∃ c, (ofPrompt prompt).compile s = .ok c ∧
      c.diagram.nodes.map (·.id) = (ofPrompt prompt).nodeIds ∧
      ∀ i (hi : i < c.diagram.nodes.length),
        c.diagram.nodes[i].level = i ∧ c.diagram.nodes[i].column = 0 := by
  have hadmissible : (ofPrompt prompt).Admissible := admissible_chain (extracted prompt)
  have hchain : (ofPrompt prompt).IsChain := isChain_chain (extracted prompt)
  have hlength : 3 ≤ (ofPrompt prompt).nodes.length := by
    have hsteps : 0 < (extracted prompt).length := List.length_pos_of_ne_nil (steps_ne_nil _)
    have hkinds := congrArg List.length (kinds_chain (extracted prompt))
    simp only [List.length_map, List.length_cons, List.length_append, List.length_nil] at hkinds
    have hnodes : (ofPrompt prompt).nodes.length = (chain (extracted prompt)).nodes.length := rfl
    omega
  obtain ⟨d, hd, hc⟩ := ProcessGraph.compile_of_admissible (s := s) hadmissible
  have hplaces := (ProcessGraph.layOut_eq_ok_iff.mp hd).2.1
  refine ⟨ProcessGraph.isValid_iff.mpr hadmissible, hlength, kinds_chain _, hchain, _, hc,
    (ProcessGraph.ids_of_layOut hd).1, fun i hi => ?_⟩
  apply hchain.place_of_getElem? s
  rw [← hplaces]
  exact List.getElem?_eq_getElem hi

end Draft

end ProcessChart

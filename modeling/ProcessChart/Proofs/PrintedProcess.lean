import ProcessChart.ProcessGraph.Reading
import ProcessChart.Proofs.FallibleSteps
import ProcessChart.Proofs.PrintedJson

/-!
A printed process is read back as it was. Whatever its ids, names and labels
hold, and however its flows and ids are broken, the text of its document is one
JSON object without blanks around it, so the first part that is tried is the
whole of it.
-/

namespace ProcessChart

namespace Schema

variable {σ α : Type} {s : Schema σ α}

/-- Storing the entries one after the other turns one value into another. -/
inductive Stores (s : Schema σ α) : α → List (String × σ) → α → Prop
  | nil {a : α} : Stores s a [] a
  | cons {key : String} {field : Field σ α} {a b c : α} {v : σ} {rest : List (String × σ)}
      (hfield : s.fields.find? (·.name = key) = some field) (hstore : field.store v a = .ok b)
      (hrest : Stores s b rest c) : Stores s a ((key, v) :: rest) c

theorem Stores.append {a b c : α} {entries later : List (String × σ)} (h : s.Stores a entries b)
    (hlater : s.Stores b later c) : s.Stores a (entries ++ later) c := by
  induction h with
  | nil => exact hlater
  | cons hfield hstore _ ih => exact .cons hfield hstore (ih hlater)

/-- A text that may be absent is stored when it is there. -/
theorem Stores.option {s : Schema Json α} {key : String} {field : Field Json α}
    (hfield : s.fields.find? (·.name = key) = some field) (value : Option String → α)
    (hstore : ∀ x, field.store (.string x) (value none) = .ok (value (some x)))
    (given : Option String) :
    s.Stores (value none) (given.toList.map fun x => (key, .string x)) (value given) := by
  cases given with
  | none => exact .nil
  | some x => exact .cons hfield (hstore x) .nil

variable [Source σ]

theorem Stores.readEntries_eq {given : List String} {a b : α} {entries : List (String × σ)}
    (h : s.Stores a entries b) (hkeys : (entries.map (·.1)).Nodup)
    (hnew : ∀ key ∈ entries.map (·.1), key ∉ given) :
    s.readEntries given a (entries.map fun e => (.ok e.1, e.2)) =
      .ok ((entries.map (·.1)).reverse ++ given, b) := by
  induction h generalizing given with
  | nil => rfl
  | @cons key field a b c v rest hfield hstore _ ih =>
    obtain ⟨hfresh, hkeys⟩ := List.nodup_cons.mp hkeys
    have hfirst : key ∉ given := hnew key List.mem_cons_self
    have hlater : ∀ k ∈ rest.map (·.1), k ∉ key :: given := by
      intro k hk hgiven
      rcases List.mem_cons.mp hgiven with rfl | hgiven
      · exact hfresh hk
      · exact hnew k (List.mem_cons_of_mem key hk) hgiven
    have hrest := ih hkeys hlater
    simp [readEntries, hfield, hfirst, hstore, hrest, bind, Except.bind]

/-- A record is read when its keys are distinct and every required field is among them. -/
theorem Stores.read {s : Schema Json α} {a : α} {fields : List (String × Json)}
    (h : s.Stores s.initial fields a) (hkeys : (fields.map (·.1)).Nodup)
    (hrequired : ∀ field ∈ s.fields, field.presence = .required → field.name ∈ fields.map (·.1)) :
    s.read (Json.object fields) = .ok a := by
  have hview : Source.view (Json.object fields) =
      .ok (.record (fields.map fun f => (.ok f.1, f.2))) := rfl
  have hentries := h.readEntries_eq hkeys fun key _ => List.not_mem_nil
  -- The keys are collected in front of each other, hence their order is reversed.
  have hgiven : s.fields.find? (fun f => f.presence = .required &&
      !(List.reverse (fields.map Prod.fst) ++ []).contains f.name) = none := by
    rw [List.find?_eq_none]
    intro field hfield hmissing
    rw [Bool.and_eq_true, decide_eq_true_iff] at hmissing
    obtain ⟨hpresence, hmissing⟩ := hmissing
    have hmem := List.mem_append_left [] (List.mem_reverse.mpr (hrequired field hfield hpresence))
    rw [List.contains_iff_mem.mpr hmem] at hmissing
    exact Bool.noConfusion hmissing
  simp only [Schema.read, hview, hentries, bind, Except.bind]
  rw [hgiven]
  rfl

end Schema

theorem Json.list_map {α : Type} {read : Json → Except Fault α} {print : α → Json}
    (h : ∀ a, read (print a) = .ok a) (l : List α) :
    Source.list read (Json.array (l.map print)) = .ok l := by
  change (l.map print).mapM read = .ok l
  rw [mapM_eq_ok_iff, List.forall₂_map_left_iff, List.forall₂_same]
  exact fun a _ => h a

theorem NodeKind.read_elementName (k : NodeKind) :
    NodeKind.read (.string k.elementName) = .ok k := by
  simp [NodeKind.read, Json.variant, NodeKind.ofName?_elementName]

namespace Node

theorem within_toJson (depth : Nat) (n : Node) : n.toJson.Within (depth + 1) := by
  refine .object ?_
  cases n.label <;> simp [Json.Within.string]

theorem sorted_toJson (n : Node) :
    n.toJson.sorted = .object
      ([("id", .string n.id)] ++ (n.label.toList.map fun label => ("name", .string label)) ++
        [("type", .string n.kind.elementName)]) := by
  cases h : n.label <;>
    simp [toJson, Json.sorted, Json.sortedFields, Json.sortFields, Json.insertField,
      List.cons_lt_cons_iff, h]

theorem read_toJson (n : Node) : schema.read n.toJson.sorted = .ok n := by
  obtain ⟨id, kind, label⟩ := n
  have hid : schema.Stores schema.initial [("id", .string id)] ⟨id, .task, none⟩ :=
    .cons rfl rfl .nil
  have hlabel : schema.Stores ⟨id, .task, none⟩
      (label.toList.map fun label => ("name", .string label)) ⟨id, .task, label⟩ :=
    .option rfl (Node.mk id .task) (fun _ => rfl) label
  have hkind : schema.Stores ⟨id, .task, label⟩ [("type", .string kind.elementName)]
      ⟨id, kind, label⟩ := by
    refine .cons rfl ?_ .nil
    simp only [NodeKind.read_elementName]
    rfl
  rw [sorted_toJson]
  refine ((hid.append hlabel).append hkind).read ?_ ?_
  · cases label <;> simp
  · simp [schema]

end Node

namespace Flow

theorem within_toJson (depth : Nat) (f : Flow) : f.toJson.Within (depth + 1) :=
  .object (by simp [Json.Within.string])

theorem sorted_toJson (f : Flow) : f.toJson.sorted = f.toJson := by
  simp [toJson, Json.sorted, Json.sortedFields, Json.sortFields, Json.insertField,
    List.cons_lt_cons_iff]

theorem read_toJson (f : Flow) : schema.read f.toJson.sorted = .ok f := by
  have hstores : schema.Stores schema.initial
      [("id", .string f.id), ("source", .string f.source), ("target", .string f.target)] f :=
    .cons rfl rfl (.cons rfl rfl (.cons rfl rfl .nil))
  rw [sorted_toJson]
  exact hstores.read (by simp) (by simp [schema])

end Flow

namespace ProcessGraph

theorem within_toDocument (depth : Nat) (p : ProcessGraph) : p.toDocument.Within (depth + 4) := by
  have hnodes : Json.Within (depth + 2) (.array (p.nodes.map Node.toJson)) :=
    .array (List.forall_mem_map.mpr fun n _ => n.within_toJson depth)
  have hflows : Json.Within (depth + 2) (.array (p.flows.map Flow.toJson)) :=
    .array (List.forall_mem_map.mpr fun f _ => f.within_toJson depth)
  have hprocess : p.toJson.Within (depth + 3) := by
    refine .object ?_
    cases p.name <;> simp [Json.Within.string, hnodes, hflows]
  exact .object (by simpa using hprocess)

theorem sorted_toJson (p : ProcessGraph) :
    p.toJson.sorted = .object
      ([("flows", .array (p.flows.map fun f => f.toJson.sorted)), ("id", .string p.id)] ++
        (p.name.toList.map fun name => ("name", .string name)) ++
        [("nodes", .array (p.nodes.map fun n => n.toJson.sorted))]) := by
  cases h : p.name <;>
    simp [toJson, Json.sorted, Json.sortedFields, Json.sortedItems_eq, Json.sortFields,
      Json.insertField, List.cons_lt_cons_iff, h]

theorem read_toJson (p : ProcessGraph) : schema.read p.toJson.sorted = .ok p := by
  obtain ⟨id, name, nodes, flows⟩ := p
  have hflows : schema.Stores schema.initial
      [("flows", .array (flows.map fun f => f.toJson.sorted)), ("id", .string id)]
      ⟨id, none, [], flows⟩ := by
    refine .cons (b := ⟨"", none, [], flows⟩) rfl ?_ (.cons rfl rfl .nil)
    simp only [Json.list_map Flow.read_toJson]
    rfl
  have hname : schema.Stores ⟨id, none, [], flows⟩
      (name.toList.map fun name => ("name", .string name)) ⟨id, name, [], flows⟩ :=
    .option rfl (ProcessGraph.mk id · [] flows) (fun _ => rfl) name
  have hnodes : schema.Stores ⟨id, name, [], flows⟩
      [("nodes", .array (nodes.map fun n => n.toJson.sorted))] ⟨id, name, nodes, flows⟩ := by
    refine .cons rfl ?_ .nil
    simp only [Json.list_map Node.read_toJson]
    rfl
  rw [sorted_toJson]
  refine ((hflows.append hname).append hnodes).read ?_ ?_
  · cases name <;> simp
  · simp [schema]

theorem sorted_toDocument (p : ProcessGraph) :
    p.toDocument.sorted = .object [("process", p.toJson.sorted)] := by
  simp [toDocument, Json.sorted, Json.sortedFields, Json.sortFields, Json.insertField]

/-- The document of a process gives the process. -/
theorem ofJson_toDocument (p : ProcessGraph) : ofJson p.toDocument.sorted = .ok p := by
  have hstores : documentSchema.Stores documentSchema.initial [("process", p.toJson.sorted)] p :=
    .cons rfl p.read_toJson .nil
  have hread := hstores.read (by simp) (by simp [documentSchema])
  rw [sorted_toDocument, ofJson, hread]
  rfl

theorem firstOf_cons_of_ok (last : ReadingError) {part : List Char} {rest : List (List Char)}
    {p : ProcessGraph} (h : ofPart part = .ok p) : firstOf last (part :: rest) = .ok p := by
  rw [firstOf, h]

/-- A text with a brace and without blanks around it is tried as a whole first. -/
theorem ofText_of_ofPart {text : String} {p : ProcessGraph}
    (htrim : Text.trim text.toList = text.toList) (hbrace : '\x7b' ∈ text.toList)
    (h : ofPart text.toList = .ok p) : ofText text = .ok p := by
  have hsome : text.toList.isEmpty = false := by
    rw [List.isEmpty_eq_false_iff]
    exact List.ne_nil_of_mem hbrace
  have hfound : text.toList.contains '\x7b' = true := List.contains_iff_mem.mpr hbrace
  rw [ofText, htrim, hsome, hfound]
  exact firstOf_cons_of_ok .noObject h

/-- A printed process is read back as it was, in either style. -/
theorem ofText_print (style : Json.Style) (p : ProcessGraph) :
    ofText (p.toDocument.print style) = .ok p := by
  obtain ⟨inner, hinner⟩ : ∃ inner,
      (p.toDocument.print style).toList = '\x7b' :: (inner ++ ['\x7d']) := by
    rw [Json.print, String.toList_ofList]
    exact Json.exists_write_object style 0 _
  have hparse : Json.parse? (p.toDocument.print style).toList = some p.toDocument.sorted :=
    Json.parse?_print style (p.within_toDocument 123)
  apply ofText_of_ofPart
  · rw [hinner]
    exact Text.trim_of_ends (by decide) (by decide)
  · rw [hinner]
    exact List.mem_cons_self
  · rw [ofPart, jsonOfText?, hparse]
    exact p.ofJson_toDocument

end ProcessGraph

end ProcessChart

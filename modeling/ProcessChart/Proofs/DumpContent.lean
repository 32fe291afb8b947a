import ProcessChart.Layout.Dump
import ProcessChart.Proofs.DocumentContent
import ProcessChart.Proofs.ExactJson

/-!
What the layout dump tells. It leaves out nothing of a diagram, and an absent
label is told from an empty one.
-/

namespace ProcessChart

namespace Json

theorem optionalString_injective : Function.Injective optionalString := by
  intro s t h
  cases s <;> cases t <;> cases h <;> rfl

theorem exact_int (i : Int) : (int i).Exact := .integer i

theorem exact_nat (n : Nat) : (nat n).Exact := .integer n

theorem exact_optionalString (s : Option String) : (optionalString s).Exact := by
  cases s with
  | none => exact .null
  | some s => exact .string s

theorem exact_map {α : Type} (l : List α) {f : α → Json} (h : ∀ a ∈ l, (f a).Exact) :
    (array (l.map f)).Exact :=
  .array (List.forall_mem_map.mpr h)

end Json

open Json (Exact)

theorem Point.exact_toJson (p : Point) : p.toJson.Exact := by
  refine .array ?_
  simp [Json.exact_int]

theorem Point.toJson_injective : Function.Injective Point.toJson := by
  rintro ⟨x, y⟩ ⟨x', y'⟩ h
  simpa [toJson, Json.int] using h

theorem NodePlace.exact_toJson (n : NodePlace) : n.toJson.Exact := by
  refine .object ?_
  simp [Json.exact_int, Json.exact_nat, Exact.string, Json.exact_optionalString]

theorem NodePlace.toJson_injective : Function.Injective NodePlace.toJson := by
  rintro ⟨id, kind, label, level, column, bounds⟩ ⟨id', kind', label', level', column', bounds'⟩ h
  cases bounds
  cases bounds'
  simpa [toJson, Json.int, Json.nat, NodeKind.elementName_injective.eq_iff,
    Json.optionalString_injective.eq_iff, Int.ofNat_inj] using h

theorem EdgeRoute.exact_toJson (e : EdgeRoute) : e.toJson.Exact := by
  refine .object ?_
  simp [Exact.string, Json.exact_map, Point.exact_toJson]

theorem EdgeRoute.toJson_injective : Function.Injective EdgeRoute.toJson := by
  rintro ⟨id, source, target, points⟩ ⟨id', source', target', points'⟩ h
  simpa [toJson, Point.toJson_injective.list_map.eq_iff] using h

namespace Diagram

theorem exact_toJson (d : Diagram) : d.toJson.Exact := by
  have hcolumns := Json.exact_map [d.leftColumn, d.rightColumn] fun i _ => Json.exact_int i
  refine .object ?_
  simpa [Json.exact_int, Json.exact_nat, Exact.string, Json.exact_map, NodePlace.exact_toJson,
    EdgeRoute.exact_toJson] using hcolumns

/-- Depth, outermost columns and size follow from the nodes and edges. -/
theorem toJson_injective : Function.Injective Diagram.toJson := by
  rintro ⟨processId, nodes, edges⟩ ⟨processId', nodes', edges'⟩ h
  simp only [toJson, Json.object.injEq, List.cons.injEq, Prod.mk.injEq, Json.string.injEq,
    Json.array.injEq, NodePlace.toJson_injective.list_map.eq_iff,
    EdgeRoute.toJson_injective.list_map.eq_iff] at h
  obtain ⟨⟨-, rfl⟩, -, -, -, -, ⟨-, rfl⟩, ⟨-, rfl⟩, -⟩ := h
  rfl

/-- Diagrams with one dump are equal in everything. -/
theorem dump_injective : Function.Injective dump := by
  intro d e h
  exact toJson_injective (d.exact_toJson.eq_of_print_eq e.exact_toJson .pretty h)

end Diagram

end ProcessChart

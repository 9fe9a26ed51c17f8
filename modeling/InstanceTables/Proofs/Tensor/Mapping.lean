import InstanceTables.Proofs.Tensor.Enumeration

/-!
# Mappings and tensor types

A mapping is a function like any other, in both directions: the table of functions that is made
from some rows and mappings holds the two shapes of every mapping.  The table of tensor types
takes the shapes of mappings once more behind those of the functions.  There they have come up
before, so that they add nothing and move nothing (`build_of_forward_mem`): the table is the one
of the functions alone, and all the types that a mapping needs stand in it.

This follows because the table of tensor types depends on the shapes at hand only
(`build_congr`).
-/

namespace InstanceTables

variable {functions functions' : List Shape} {mappings mappings' : List Mapping} {n : MaxOrder}

/-- The functions on either side of a mapping are among the functions. -/
theorem forward_mem_functionTable (rows : List Space) {m : Mapping} (h : m ∈ mappings) :
    m.forward ∈ functionTable rows mappings ∧ m.inverse ∈ functionTable rows mappings :=
  ⟨mem_functionTable.2 (.inr ⟨m, h, .inl rfl⟩), mem_functionTable.2 (.inr ⟨m, h, .inr rfl⟩)⟩

/-- Mappings bring no shape that is not at hand if their shapes are among the functions. -/
theorem shapesAtHand_of_forward_mem (h : ∀ m ∈ mappings, m.forward ∈ functions) :
    shapesAtHand functions mappings = shapesAtHand functions [] := by
  have hsubset : mappings.map Mapping.forward ⊆ functions := by
    intro f hf
    obtain ⟨m, hm, rfl⟩ := List.mem_map.1 hf
    exact h m hm
  rw [shapesAtHand_eq, shapesAtHand_eq, TensorTable.workingShapes, TensorTable.workingShapes,
    distinct_append_append_of_subset hsubset, List.map_nil, List.append_nil]

namespace TensorTable

/-- The table of tensor types, and what is logged about it, depends on the shapes at hand only. -/
theorem build_congr (hne : functions ≠ [] ∨ mappings ≠ [])
    (hne' : functions' ≠ [] ∨ mappings' ≠ [])
    (h : shapesAtHand functions mappings = shapesAtHand functions' mappings') :
    build functions mappings n = build functions' mappings' n := by
  have hatHand : valuesAtHand functions mappings = valuesAtHand functions' mappings' := by
    rw [valuesAtHand, h, valuesAtHand]
  have hderivatives : (build functions mappings n).value.derivatives =
      (build functions' mappings' n).value.derivatives := by
    rw [derivatives_build hne, derivatives_build hne', hatHand, h]
  have hvalues : (build functions mappings n).value.values =
      (build functions' mappings' n).value.values := by
    rw [values_build hne, values_build hne', hatHand]
  have hevents : (build functions mappings n).events = (build functions' mappings' n).events := by
    rw [events_build hne, events_build hne', hderivatives, hvalues]
  exact congrArg₂ Logged.mk (congrArg₂ TensorTable.mk hderivatives hvalues) hevents

/-- Mappings add nothing to the table if their shapes are among the functions. -/
theorem build_of_forward_mem (h : ∀ m ∈ mappings, m.forward ∈ functions) (n : MaxOrder) :
    build functions mappings n = build functions [] n := by
  by_cases hfunctions : functions = []
  · have hmappings : mappings = [] := by
      rw [List.eq_nil_iff_forall_not_mem]
      intro m hm
      exact List.ne_nil_of_mem (h m hm) hfunctions
    rw [hmappings]
  · exact build_congr (.inl hfunctions) (.inl hfunctions) (shapesAtHand_of_forward_mem h)

/-- The types that a function needs: that of its values, and that of its derivatives of each order
from one up to the highest. -/
theorem mem_build_of_mem (mappings : List Mapping) (n : MaxOrder) {f : Shape}
    (h : f ∈ functions) :
    Value.ofShape f ∈ (build functions mappings n).value.values ∧
      ∀ o, 1 ≤ o → o ≤ n.max →
        Derivative.ofShape o f ∈ (build functions mappings n).value.derivatives := by
  have hne : functions ≠ [] ∨ mappings ≠ [] := .inl (List.ne_nil_of_mem h)
  have hshape : f ∈ workingShapes functions mappings := mem_workingShapes.2 (.inl (.inl h))
  refine ⟨mem_values_build.2 ⟨hne, f, hshape, rfl⟩, fun o hpos hmax => ?_⟩
  have ho : o ≠ 0 := by
    rintro rfl
    exact absurd hpos (by decide)
  exact mem_derivatives_build.2 ⟨hne, o, hmax, f, hshape, if_neg ho⟩

/-- If the functions are made from rows and mappings, the mappings add nothing to the table of
tensor types, whether or not they are those of the rows.  The types of both directions of every
mapping are there all the same: of its values, and of its derivatives of each order from one up to
the highest. -/
theorem mappings_covered (rows : List Space) (mappings : List Mapping) (n : MaxOrder) :
    build (functionTable rows mappings) mappings n =
      build (functionTable rows mappings) [] n ∧
    ∀ m ∈ mappings,
      (⟨m.dim + m.codim, 1⟩ ∈ (build (functionTable rows mappings) mappings n).value.values ∧
        ⟨m.dim, 1⟩ ∈ (build (functionTable rows mappings) mappings n).value.values) ∧
      ∀ o, 1 ≤ o → o ≤ n.max →
        ⟨o, m.dim, ⟨m.dim + m.codim, 1⟩⟩ ∈
          (build (functionTable rows mappings) mappings n).value.derivatives ∧
        ⟨o, m.dim + m.codim, ⟨m.dim, 1⟩⟩ ∈
          (build (functionTable rows mappings) mappings n).value.derivatives := by
  refine ⟨build_of_forward_mem (fun m hm => (forward_mem_functionTable rows hm).1) n, ?_⟩
  intro m hm
  obtain ⟨hforward, hinverse⟩ := forward_mem_functionTable rows hm
  obtain ⟨hvalue, hderivative⟩ := mem_build_of_mem mappings n hforward
  obtain ⟨hvalue', hderivative'⟩ := mem_build_of_mem mappings n hinverse
  exact ⟨⟨hvalue, hvalue'⟩, fun o hpos hmax =>
    ⟨hderivative o hpos hmax, hderivative' o hpos hmax⟩⟩

/-- A curve in the largest space there is, and no row at all. -/
theorem mappings_covered_limit :
    (⟨1, 4294967294⟩ : Mapping) ∈ ([⟨1, 4294967294⟩] : List Mapping) ∧
      (1 : UInt32) ≤ 2 ∧ (2 : UInt32) ≤ (⟨2⟩ : MaxOrder).max ∧
      ⟨2, 1, ⟨4294967295, 1⟩⟩ ∈ (build (functionTable [] [⟨1, 4294967294⟩]) [⟨1, 4294967294⟩]
        ⟨2⟩).value.derivatives ∧
      ⟨2, 4294967295, ⟨1, 1⟩⟩ ∈ (build (functionTable [] [⟨1, 4294967294⟩]) [⟨1, 4294967294⟩]
        ⟨2⟩).value.derivatives := by
  have hmem : (⟨1, 4294967294⟩ : Mapping) ∈ ([⟨1, 4294967294⟩] : List Mapping) :=
    List.mem_cons_self
  have hpos : (1 : UInt32) ≤ 2 := by decide
  have hmax : (2 : UInt32) ≤ (⟨2⟩ : MaxOrder).max := by decide
  obtain ⟨-, hcovered⟩ := mappings_covered [] [⟨1, 4294967294⟩] ⟨2⟩
  exact ⟨hmem, hpos, hmax, (hcovered _ hmem).2 2 hpos hmax⟩

end TensorTable

end InstanceTables

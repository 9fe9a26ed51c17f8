import InstanceTables.Catalogue
import InstanceTables.Proofs.Distinct

/-!
# The entries of the tables

Which entries each table holds, as a condition on the rows that it is made from.  The first
part says this of the functions that make tables out of lists.  The second part follows the
tables of a catalogue back to the rows of its closure, and these to the seeds; there
`catalogue.spaces.user` and `catalogue.spaces.all` are all that the other tables depend on.

Nothing is said here about the order of the entries.
-/

namespace InstanceTables

/-! ## Tables made from lists -/

section Lists

variable {rows other : List Space} {mappings : List Mapping} {functions shapes : List Shape}
variable {tensors : List Tensor} {dims : List UInt32} {order : MaxOrder}

theorem mem_faceRows {t : Space} : t ∈ (faceRows rows).value ↔ ∃ s ∈ rows, s.face? = some t := by
  simp [faceRows]

theorem mem_joinRows {s : Space} : s ∈ joinRows rows other ↔ s ∈ rows ∨ s ∈ other := by
  simp [joinRows]

theorem mem_referenceRows {t : Space} : t ∈ referenceRows rows ↔ ∃ s ∈ rows, s.reference = t := by
  simp [referenceRows]

theorem mem_dimensions {d : UInt32} : d ∈ dimensions rows ↔ ∃ s ∈ rows, s.dim = d := by
  simp [dimensions]

theorem mem_mappingTable {m : Mapping} : m ∈ mappingTable rows ↔ ∃ s ∈ rows, s.mapping = m := by
  simp [mappingTable]

theorem mem_refShapeTable {f : Shape} : f ∈ refShapeTable rows ↔ ∃ s ∈ rows, s.refShape = f := by
  simp [refShapeTable]

/-- Functions live on the two sides of a row, or on the two sides of a mapping. -/
theorem mem_functionTable {f : Shape} :
    f ∈ functionTable rows mappings ↔
      (∃ s ∈ rows, f = s.refShape ∨ f = s.physicalShape) ∨
        ∃ m ∈ mappings, f = m.forward ∨ f = m.inverse := by
  simp [functionTable]

theorem mem_workingShapes {f : Shape} :
    f ∈ TensorTable.workingShapes functions mappings ↔
      (f ∈ functions ∨ ∃ m ∈ mappings, m.forward = f) ∨ f = pointScalar := by
  simp [TensorTable.workingShapes, or_assoc]

/-- With nothing to differentiate there is no derivative; else there is one for each order
and each shape at hand. -/
theorem mem_derivatives_build {x : Derivative} :
    x ∈ (TensorTable.build functions mappings order).value.derivatives ↔
      (functions ≠ [] ∨ mappings ≠ []) ∧ ∃ o ≤ order.max,
        ∃ f ∈ TensorTable.workingShapes functions mappings, Derivative.ofOrder o f = x := by
  unfold TensorTable.build
  split
  · next h => simp_all [TensorTable.empty]
  · next h =>
    rw [Bool.and_eq_true, List.isEmpty_iff, List.isEmpty_iff, not_and_or] at h
    simp [h, MaxOrder.mem_orders]

theorem mem_values_build {v : Value} :
    v ∈ (TensorTable.build functions mappings order).value.values ↔
      (functions ≠ [] ∨ mappings ≠ []) ∧
        ∃ f ∈ TensorTable.workingShapes functions mappings, Value.ofShape f = v := by
  unfold TensorTable.build
  split
  · next h => simp_all [TensorTable.empty]
  · next h =>
    rw [Bool.and_eq_true, List.isEmpty_iff, List.isEmpty_iff, not_and_or] at h
    simp [h, distinct_flatMap_const order.orders_ne_nil]

@[simp] theorem TensorTable.derivative_mem_tensors {t : TensorTable} {x : Derivative} :
    .derivative x ∈ t.tensors ↔ x ∈ t.derivatives := by
  simp [TensorTable.tensors]

@[simp] theorem TensorTable.value_mem_tensors {t : TensorTable} {v : Value} :
    .value v ∈ t.tensors ↔ v ∈ t.values := by
  simp [TensorTable.tensors]

theorem mem_dynamicMultiArrayTable {a : DynamicMultiArray} :
    a ∈ dynamicMultiArrayTable dims tensors ↔
      (∃ d ∈ dims, a = ⟨.tensorIndex d, d⟩ ∨ a = ⟨.scalar .real, d⟩ ∨ a = ⟨.scalar .index, d⟩) ∨
        ∃ t ∈ tensors, a = ⟨.tensor t, 2⟩ := by
  simp [dynamicMultiArrayTable, eq_comm]

theorem mem_cartesianProductArrayTable {a : CartesianProductArray} :
    a ∈ cartesianProductArrayTable dims ↔ a.dim ∈ dims := by
  cases a
  simp [cartesianProductArrayTable, ProductElement.mem_all]

/-- The vector of reals is there as soon as there is a tensor. -/
theorem mem_valueVectorTable {v : ValueVector} :
    v ∈ valueVectorTable tensors ↔ ∃ t ∈ tensors, v = .real ∨ v = .tensor t := by
  unfold valueVectorTable
  split
  · next h => simp_all
  · next h =>
    obtain ⟨t, ht⟩ := List.exists_mem_of_ne_nil _ (mt List.isEmpty_iff.2 h)
    rw [mem_distinct, List.mem_cons, List.mem_map]
    constructor
    · rintro (rfl | ⟨u, hu, rfl⟩)
      · exact ⟨t, ht, .inl rfl⟩
      · exact ⟨u, hu, .inr rfl⟩
    · rintro ⟨u, hu, rfl | rfl⟩
      · exact .inl rfl
      · exact .inr ⟨u, hu, rfl⟩

theorem mem_valueTableTable {t : ValueTable} :
    t ∈ valueTableTable tensors ↔ t.tensor ∈ tensors := by
  cases t
  simp [valueTableTable]

theorem mem_refSpaceTable {r : RefSpace} : r ∈ refSpaceTable shapes ↔ r.shape ∈ shapes := by
  cases r
  simp [refSpaceTable, SplineKind.mem_all]

theorem mem_pushForwardTable {p : PushForward} :
    p ∈ pushForwardTable rows ↔ ∃ s ∈ rows, s.pushForward = p := by
  simp [pushForwardTable]

theorem mem_physicalSpaceTable {p : PhysicalSpace} :
    p ∈ physicalSpaceTable rows ↔ ∃ s ∈ rows, PhysicalSpace.ofSpace p.refSpace.kind s = p := by
  rw [physicalSpaceTable, mem_distinct, List.mem_flatMap]
  constructor
  · rintro ⟨k, -, h⟩
    obtain ⟨s, hs, rfl⟩ := List.mem_map.1 h
    exact ⟨s, hs, rfl⟩
  · rintro ⟨s, hs, h⟩
    exact ⟨p.refSpace.kind, SplineKind.mem_all _, List.mem_map.2 ⟨s, hs, h⟩⟩

end Lists

/-! ## Tables of a catalogue -/

namespace Catalogue

variable {seeds : List Space} {n : MaxOrder}

theorem spaces_ofSeeds : (ofSeeds seeds n).spaces = (Closure.build seeds).value := rfl

theorem shapes_ofSeeds :
    (ofSeeds seeds n).shapes = (Projection.build (ofSeeds seeds n).spaces).value := rfl

theorem tensors_ofSeeds :
    (ofSeeds seeds n).tensors =
      (TensorTable.build (ofSeeds seeds n).shapes.functions (ofSeeds seeds n).shapes.mappings
        n).value :=
  rfl

theorem containers_ofSeeds :
    (ofSeeds seeds n).containers =
      (ContainerTable.build (ofSeeds seeds n).spaces.all (ofSeeds seeds n).tensors).value :=
  rfl

theorem splines_ofSeeds :
    (ofSeeds seeds n).splines =
      SplineTable.build (ofSeeds seeds n).spaces (ofSeeds seeds n).shapes :=
  rfl

theorem mem_user {s : Space} : s ∈ (ofSeeds seeds n).spaces.user ↔ s ∈ seeds :=
  mem_distinct

theorem mem_face {t : Space} :
    t ∈ (ofSeeds seeds n).spaces.face ↔ ∃ s ∈ seeds, s.face? = some t := by
  refine mem_faceRows.trans ?_
  simp only [mem_distinct]

/-- The closure holds the seeds and their faces. -/
theorem mem_all {t : Space} :
    t ∈ (ofSeeds seeds n).spaces.all ↔ t ∈ seeds ∨ ∃ s ∈ seeds, s.face? = some t :=
  mem_joinRows.trans (or_congr (mem_user (n := n)) (mem_face (n := n)))

/-- Nothing comes from nothing, and every seed is in the closure. -/
theorem all_ne_nil_iff : (ofSeeds seeds n).spaces.all ≠ [] ↔ seeds ≠ [] := by
  simp only [ne_eq, List.eq_nil_iff_forall_not_mem, mem_all]
  refine not_congr ⟨fun h s hs => h s (.inl hs), fun h s hs => ?_⟩
  rcases hs with hs | ⟨t, ht, -⟩
  · exact h s hs
  · exact h t ht

theorem mem_extended {t : Space} :
    t ∈ (ofSeeds seeds n).spaces.extended ↔
      ∃ s ∈ (ofSeeds seeds n).spaces.all, s.reference = t :=
  mem_referenceRows

theorem mem_mappings {m : Mapping} :
    m ∈ (ofSeeds seeds n).shapes.mappings ↔
      ∃ s ∈ (ofSeeds seeds n).spaces.all, s.mapping = m :=
  mem_mappingTable

theorem mem_refShapes {f : Shape} :
    f ∈ (ofSeeds seeds n).shapes.refShapes ↔
      ∃ s ∈ (ofSeeds seeds n).spaces.all, s.refShape = f :=
  mem_refShapeTable

/-- Each row of the closure needs functions of four shapes. -/
theorem mem_functions {f : Shape} :
    f ∈ (ofSeeds seeds n).shapes.functions ↔
      ∃ s ∈ (ofSeeds seeds n).spaces.all,
        f = s.refShape ∨ f = s.physicalShape ∨ f = s.mapping.forward ∨ f = s.mapping.inverse := by
  refine mem_functionTable.trans ?_
  simp only [mem_mappingTable]
  constructor
  · rintro (⟨s, hs, h | h⟩ | ⟨-, ⟨s, hs, rfl⟩, h | h⟩)
    · exact ⟨s, hs, .inl h⟩
    · exact ⟨s, hs, .inr (.inl h)⟩
    · exact ⟨s, hs, .inr (.inr (.inl h))⟩
    · exact ⟨s, hs, .inr (.inr (.inr h))⟩
  · rintro ⟨s, hs, h | h | h | h⟩
    · exact .inl ⟨s, hs, .inl h⟩
    · exact .inl ⟨s, hs, .inr h⟩
    · exact .inr ⟨s.mapping, ⟨s, hs, rfl⟩, .inl h⟩
    · exact .inr ⟨s.mapping, ⟨s, hs, rfl⟩, .inr h⟩

/-- There is something to differentiate as soon as there is a seed. -/
theorem functions_or_mappings_ne_nil_iff :
    ((ofSeeds seeds n).shapes.functions ≠ [] ∨ (ofSeeds seeds n).shapes.mappings ≠ []) ↔
      seeds ≠ [] := by
  rw [← all_ne_nil_iff (n := n)]
  constructor
  · rintro (h | h) hnil
    · obtain ⟨f, hf⟩ := List.exists_mem_of_ne_nil _ h
      obtain ⟨s, hs, -⟩ := mem_functions.1 hf
      simp [hnil] at hs
    · obtain ⟨m, hm⟩ := List.exists_mem_of_ne_nil _ h
      obtain ⟨s, hs, -⟩ := mem_mappings.1 hm
      simp [hnil] at hs
  · intro h
    obtain ⟨s, hs⟩ := List.exists_mem_of_ne_nil _ h
    exact .inl (List.ne_nil_of_mem (mem_functions.2 ⟨s, hs, .inl rfl⟩))

/-- The mappings add no shape to those of the functions: the shapes at hand are these and
the point scalar. -/
theorem mem_workingShapes_ofSeeds {f : Shape} :
    f ∈ TensorTable.workingShapes (ofSeeds seeds n).shapes.functions
        (ofSeeds seeds n).shapes.mappings ↔
      f ∈ (ofSeeds seeds n).shapes.functions ∨ f = pointScalar := by
  rw [mem_workingShapes]
  refine or_congr_left ⟨?_, .inl⟩
  rintro (h | ⟨m, hm, rfl⟩)
  · exact h
  · obtain ⟨s, hs, rfl⟩ := mem_mappings.1 hm
    exact mem_functions.2 ⟨s, hs, .inr (.inr (.inl rfl))⟩

theorem mem_derivatives {x : Derivative} :
    x ∈ (ofSeeds seeds n).tensors.derivatives ↔
      seeds ≠ [] ∧ ∃ o ≤ n.max,
        ∃ f, (f ∈ (ofSeeds seeds n).shapes.functions ∨ f = pointScalar) ∧
          Derivative.ofOrder o f = x := by
  rw [tensors_ofSeeds, mem_derivatives_build, functions_or_mappings_ne_nil_iff]
  simp only [mem_workingShapes_ofSeeds]

theorem mem_values {v : Value} :
    v ∈ (ofSeeds seeds n).tensors.values ↔
      seeds ≠ [] ∧ ∃ f, (f ∈ (ofSeeds seeds n).shapes.functions ∨ f = pointScalar) ∧
        Value.ofShape f = v := by
  rw [tensors_ofSeeds, mem_values_build, functions_or_mappings_ne_nil_iff]
  simp only [mem_workingShapes_ofSeeds]

/-- There are tensor types as soon as there is a seed, whatever the order. -/
theorem exists_mem_tensors_iff :
    (∃ t, t ∈ (ofSeeds seeds n).tensors.tensors) ↔ seeds ≠ [] := by
  constructor
  · rintro ⟨x | v, ht⟩
    · exact (mem_derivatives.1 (TensorTable.derivative_mem_tensors.1 ht)).1
    · exact (mem_values.1 (TensorTable.value_mem_tensors.1 ht)).1
  · intro hne
    have hvalue := (mem_values (n := n)).2 ⟨hne, pointScalar, .inr rfl, rfl⟩
    exact ⟨_, TensorTable.value_mem_tensors.2 hvalue⟩

theorem mem_containerDims {d : UInt32} :
    d ∈ (ofSeeds seeds n).containers.dims ↔
      ∃ s ∈ (ofSeeds seeds n).spaces.all, s.dim = d :=
  mem_dimensions

theorem mem_perDim {c : DimClass} {x : DimContainer} :
    x ∈ (ofSeeds seeds n).containers.perDim c ↔
      ∃ s ∈ (ofSeeds seeds n).spaces.all, x = ⟨c, s.dim⟩ := by
  simp [ContainerTable.perDim, mem_containerDims, eq_comm]

theorem mem_dynamicMultiArrays {a : DynamicMultiArray} :
    a ∈ (ofSeeds seeds n).containers.dynamicMultiArrays ↔
      (∃ s ∈ (ofSeeds seeds n).spaces.all,
        a = ⟨.tensorIndex s.dim, s.dim⟩ ∨ a = ⟨.scalar .real, s.dim⟩ ∨
          a = ⟨.scalar .index, s.dim⟩) ∨
        ∃ t ∈ (ofSeeds seeds n).tensors.tensors, a = ⟨.tensor t, 2⟩ := by
  change a ∈ dynamicMultiArrayTable ((ofSeeds seeds n).spaces.all.map Space.dim)
    (ofSeeds seeds n).tensors.tensors ↔ _
  rw [mem_dynamicMultiArrayTable]
  simp only [List.mem_map, exists_exists_and_eq_and]

theorem mem_cartesianProductArrays {a : CartesianProductArray} :
    a ∈ (ofSeeds seeds n).containers.cartesianProductArrays ↔
      ∃ s ∈ (ofSeeds seeds n).spaces.all, s.dim = a.dim :=
  mem_cartesianProductArrayTable.trans List.mem_map

theorem mem_valueVectors {v : ValueVector} :
    v ∈ (ofSeeds seeds n).containers.valueVectors ↔
      ∃ t ∈ (ofSeeds seeds n).tensors.tensors, v = .real ∨ v = .tensor t :=
  mem_valueVectorTable

theorem mem_valueTables {t : ValueTable} :
    t ∈ (ofSeeds seeds n).containers.valueTables ↔
      t.tensor ∈ (ofSeeds seeds n).tensors.tensors :=
  mem_valueTableTable

theorem mem_refSpaces {r : RefSpace} :
    r ∈ (ofSeeds seeds n).splines.refSpaces ↔
      ∃ s ∈ (ofSeeds seeds n).spaces.all, s.refShape = r.shape :=
  mem_refSpaceTable.trans mem_refShapes

theorem mem_pushForwards {p : PushForward} :
    p ∈ (ofSeeds seeds n).splines.pushForwards ↔
      ∃ s ∈ (ofSeeds seeds n).spaces.all, s.pushForward = p :=
  mem_pushForwardTable

theorem mem_physicalSpaces {p : PhysicalSpace} :
    p ∈ (ofSeeds seeds n).splines.physicalSpaces ↔
      ∃ s ∈ (ofSeeds seeds n).spaces.all, PhysicalSpace.ofSpace p.refSpace.kind s = p :=
  mem_physicalSpaceTable

end Catalogue

end InstanceTables

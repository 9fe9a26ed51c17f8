import InstanceTables.Proofs.Catalogue.Table

/-!
# The enumeration of containers

The rows of a closure may have the same dimension many times, and each copy asks for the same
containers again.  Here the tables of containers are given as lists, made from the dimensions
once each and from the tensor types: `ContainerTable.Enumerates` says what they hold and in which
order, and `ContainerTable.HasLengths` how long that makes them.

Nothing but copies is lost, for an entry shows what it was made from: an array of a dimension has
that as its rank and holds no tensor, and an array of factors shows its element and its dimension.
-/

namespace InstanceTables

variable {tensors : List Tensor} {dims : List UInt32}

/-- The arrays of the dimensions come first, three for each, and those of the tensor types behind
them. -/
theorem dynamicMultiArrayTable_eq (dims : List UInt32) (h : tensors.Nodup) :
    dynamicMultiArrayTable dims tensors =
      (distinct dims).flatMap
          (fun d => [⟨.tensorIndex d, d⟩, ⟨.scalar .real, d⟩, ⟨.scalar .index, d⟩]) ++
        tensors.map fun t => ⟨.tensor t, 2⟩ := by
  have hdisjoint : (dims.flatMap fun d => ([⟨.tensorIndex d, d⟩, ⟨.scalar .real, d⟩,
      ⟨.scalar .index, d⟩] : List DynamicMultiArray)).Disjoint
        (tensors.map fun t => ⟨.tensor t, 2⟩) := by
    intro a ha ha'
    obtain ⟨d, -, hd⟩ := List.mem_flatMap.1 ha
    obtain ⟨t, -, rfl⟩ := List.mem_map.1 ha'
    simp at hd
  have hdims : ((distinct dims).flatMap fun d => ([⟨.tensorIndex d, d⟩, ⟨.scalar .real, d⟩,
      ⟨.scalar .index, d⟩] : List DynamicMultiArray)).Nodup := by
    refine List.nodup_flatMap.2
      ⟨fun d _ => by simp, (nodup_distinct dims).imp fun hde a ha ha' => ?_⟩
    have hrank : ∀ {d : UInt32}, a ∈ ([⟨.tensorIndex d, d⟩, ⟨.scalar .real, d⟩,
        ⟨.scalar .index, d⟩] : List DynamicMultiArray) → a.rank = d := by
      intro d hd
      simp only [List.mem_cons, List.not_mem_nil, or_false] at hd
      rcases hd with rfl | rfl | rfl <;> rfl
    exact hde ((hrank ha).symm.trans (hrank ha'))
  have htensors : (tensors.map fun t => (⟨.tensor t, 2⟩ : DynamicMultiArray)).Nodup :=
    h.map fun t u htu => by simpa using htu
  rw [dynamicMultiArrayTable, distinct_append_of_disjoint hdisjoint,
    distinct_flatMap_of_nodup hdims, distinct_of_nodup htensors]

theorem cartesianProductArrayTable_eq (dims : List UInt32) :
    cartesianProductArrayTable dims =
      ProductElement.all.flatMap fun e => (distinct dims).map (⟨e, ·⟩) :=
  distinct_combinations (fun _ _ _ _ h => CartesianProductArray.mk.inj h) (by decide) dims

theorem valueVectorTable_eq (h : tensors.Nodup) :
    valueVectorTable tensors = if tensors = [] then [] else .real :: tensors.map .tensor := by
  by_cases hnil : tensors = []
  · rw [if_pos hnil, hnil]
    rfl
  · rw [if_neg hnil, valueVectorTable, if_neg (mt List.isEmpty_iff.1 hnil)]
    refine distinct_of_nodup (List.nodup_cons.2 ⟨by simp, ?_⟩)
    exact h.map fun t u htu => ValueVector.tensor.inj htu

theorem valueTableTable_eq (h : tensors.Nodup) : valueTableTable tensors = tensors.map .mk :=
  distinct_of_nodup (h.map fun _ _ htu => ValueTable.mk.inj htu)

/-! ## All tables -/

namespace ContainerTable

/-- The tables list, in this order, what the dimensions and the tensor types need. -/
structure Enumerates (t : ContainerTable) (dims : List UInt32) (tensors : List Tensor) : Prop where
  dims_eq : t.dims = dims
  perDim_eq (c : DimClass) : t.perDim c = dims.map (⟨c, ·⟩)
  dynamicMultiArrays_eq : t.dynamicMultiArrays =
    dims.flatMap (fun d => [⟨.tensorIndex d, d⟩, ⟨.scalar .real, d⟩, ⟨.scalar .index, d⟩]) ++
      tensors.map fun x => ⟨.tensor x, 2⟩
  cartesianProductArrays_eq : t.cartesianProductArrays =
    [.real, .realPtr, .index, .cache .matrix, .cache .matrixPtr, .cache .matrixVector,
      .cache .matrixVectorPtr].flatMap fun e => dims.map (⟨e, ·⟩)
  valueVectors_eq : t.valueVectors = if tensors = [] then [] else .real :: tensors.map .tensor
  valueTables_eq : t.valueTables = tensors.map .mk

/-- The lengths of the tables for so many dimensions and tensor types. -/
structure HasLengths (t : ContainerTable) (dims tensors : Nat) : Prop where
  length_dims : t.dims.length = dims
  length_perDim (c : DimClass) : (t.perDim c).length = dims
  length_dynamicMultiArrays : t.dynamicMultiArrays.length = 3 * dims + tensors
  length_cartesianProductArrays : t.cartesianProductArrays.length = 7 * dims
  length_valueVectors : t.valueVectors.length = if tensors = 0 then 0 else 1 + tensors
  length_valueTables : t.valueTables.length = tensors

theorem enumerates_build (rows : List Space) {tensors : TensorTable} (h : tensors.tensors.Nodup) :
    (build rows tensors).value.Enumerates (distinct (rows.map Space.dim)) tensors.tensors where
  dims_eq := rfl
  perDim_eq _ := rfl
  dynamicMultiArrays_eq := dynamicMultiArrayTable_eq _ h
  cartesianProductArrays_eq := cartesianProductArrayTable_eq _
  valueVectors_eq := valueVectorTable_eq h
  valueTables_eq := valueTableTable_eq h

theorem Enumerates.hasLengths {t : ContainerTable} (h : t.Enumerates dims tensors) :
    t.HasLengths dims.length tensors.length where
  length_dims := by rw [h.dims_eq]
  length_perDim c := by rw [h.perDim_eq, List.length_map]
  length_dynamicMultiArrays := by
    rw [h.dynamicMultiArrays_eq, List.length_append, List.length_map]
    simp [List.length_flatMap, Nat.mul_comm]
  length_cartesianProductArrays := by
    rw [h.cartesianProductArrays_eq]
    simp
    omega
  length_valueVectors := by
    rw [h.valueVectors_eq]
    cases tensors with
    | nil => rfl
    | cons x xs => simp [Nat.add_comm]
  length_valueTables := by rw [h.valueTables_eq, List.length_map]

/-- The tables of containers as lists, for any rows and any tensor types that have been
enumerated.  Each class of a dimension and each table goes through the dimensions of the rows once,
in order of first occurrence, and through the derivatives and then the values.  Copies of a
dimension are all that is lost, so that the lengths are known. -/
theorem containers_exact (rows : List Space) (functions : List Shape) (mappings : List Mapping)
    (n : MaxOrder) :
    (build rows (TensorTable.build functions mappings n).value).value.Enumerates
      (rows.map Space.dim).eraseDups
      ((TensorTable.build functions mappings n).value.derivatives.map .derivative ++
        (TensorTable.build functions mappings n).value.values.map .value) ∧
    (build rows (TensorTable.build functions mappings n).value).value.HasLengths
      (rows.map Space.dim).eraseDups.length
      ((TensorTable.build functions mappings n).value.derivatives.length +
        (TensorTable.build functions mappings n).value.values.length) := by
  obtain ⟨hderivatives, hvalues⟩ := TensorTable.nodup_build functions mappings n
  have h := enumerates_build rows (TensorTable.nodup_tensors hderivatives hvalues)
  rw [← distinct_eq_eraseDups, ← TensorTable.length_tensors]
  exact ⟨h, h.hasLengths⟩

/-- Five rows of two dimensions, and a function and a mapping that share a shape: the tables hold
what two rows would need. -/
theorem containers_exact_repeated :
    let rows : List Space := [⟨2, 0, 1, 1, .hGrad⟩, ⟨1, 1, 1, 1, .hGrad⟩, ⟨2, 1, 2, 1, .hDiv⟩,
      ⟨1, 0, 1, 1, .hGrad⟩, ⟨2, 0, 1, 1, .hGrad⟩]
    let t := (build rows (TensorTable.build [⟨1, 1, 1⟩] [⟨1, 0⟩] ⟨0⟩).value).value
    t.dims = [2, 1] ∧
      t.dynamicMultiArrays =
        [⟨.tensorIndex 2, 2⟩, ⟨.scalar .real, 2⟩, ⟨.scalar .index, 2⟩,
          ⟨.tensorIndex 1, 1⟩, ⟨.scalar .real, 1⟩, ⟨.scalar .index, 1⟩,
          ⟨.tensor (.derivative ⟨1, 1, ⟨1, 1⟩⟩), 2⟩, ⟨.tensor (.derivative ⟨1, 1, ⟨0, 1⟩⟩), 2⟩,
          ⟨.tensor (.value ⟨1, 1⟩), 2⟩, ⟨.tensor (.value ⟨0, 1⟩), 2⟩] ∧
      t.cartesianProductArrays.length = 14 ∧ t.valueVectors.length = 5 := by
  intro rows t
  have hdims : (rows.map Space.dim).eraseDups = [2, 1] := by decide
  have hderivatives : (TensorTable.build [⟨1, 1, 1⟩] [⟨1, 0⟩] ⟨0⟩).value.derivatives =
      [⟨1, 1, ⟨1, 1⟩⟩, ⟨1, 1, ⟨0, 1⟩⟩] := by
    simp only [TensorTable.build, distinct_eq_eraseDups]
    decide
  have hvalues : (TensorTable.build [⟨1, 1, 1⟩] [⟨1, 0⟩] ⟨0⟩).value.values =
      [⟨1, 1⟩, ⟨0, 1⟩] := by
    simp only [TensorTable.build, distinct_eq_eraseDups]
    decide
  obtain ⟨h, hlength⟩ := containers_exact rows [⟨1, 1, 1⟩] [⟨1, 0⟩] ⟨0⟩
  rw [hdims, hderivatives, hvalues] at h hlength
  exact ⟨h.dims_eq, h.dynamicMultiArrays_eq, hlength.length_cartesianProductArrays,
    hlength.length_valueVectors⟩

end ContainerTable

end InstanceTables

import InstanceTables.Proofs.Writer.Text
import InstanceTables.Proofs.Container.Enumeration
import InstanceTables.Proofs.Membership
import Mathlib.Data.List.Flatten

/-!
# Higher orders

What a catalogue with a higher order has in addition.  Two things are to be shown, and each by a
lemma for the tables: that nothing is moved or lost (`sublist_entries`), since lower orders come
first and each table keeps the order of what it is made from; and that what is added belongs to
a derivative of one of the further orders (`exists_holds_of_added`), which follows from the
entries of the tables alone.

Order zero is listed as a derivative of order one, so that the orders of the derivatives do not
show which order they were listed for.
-/

namespace InstanceTables

variable {n m : MaxOrder}

/-- The orders up to the lower one come first. -/
theorem MaxOrder.prefix_orders (h : n.max ≤ m.max) : n.orders <+: m.orders := by
  have hle : n.max.toNat + 1 ≤ m.max.toNat + 1 :=
    Nat.succ_le_succ (UInt32.le_iff_toNat_le.1 h)
  have hrange : List.range (n.max.toNat + 1) <+: List.range (m.max.toNat + 1) := by
    rw [← Nat.min_eq_left hle, ← List.take_range]
    exact List.take_prefix _ _
  simp only [orders, firstOrders, Nat.min_self]
  exact hrange.map UInt32.ofNat

namespace TensorTable

variable {functions : List Shape} {mappings : List Mapping}

theorem prefix_derivatives (h : n.max ≤ m.max) :
    (build functions mappings n).value.derivatives <+:
      (build functions mappings m).value.derivatives := by
  obtain ⟨further, horders⟩ := MaxOrder.prefix_orders h
  unfold build
  split
  · exact List.prefix_refl _
  · refine prefix_distinct ?_
    rw [← horders, List.flatMap_append]
    exact List.prefix_append _ _

theorem values_eq (n m : MaxOrder) :
    (build functions mappings n).value.values = (build functions mappings m).value.values := by
  unfold build
  split
  · rfl
  · change distinct _ = distinct _
    rw [distinct_flatMap_const n.orders_ne_nil, distinct_flatMap_const m.orders_ne_nil]

end TensorTable

section Lists

variable {tensors tensors' : List Tensor}

theorem dynamicMultiArrayTable_sublist (dims : List UInt32) (h : tensors.Sublist tensors')
    (hnodup : tensors'.Nodup) :
    (dynamicMultiArrayTable dims tensors).Sublist (dynamicMultiArrayTable dims tensors') := by
  rw [dynamicMultiArrayTable_eq dims (hnodup.sublist h), dynamicMultiArrayTable_eq dims hnodup]
  exact (List.Sublist.refl _).append (h.map _)

theorem valueVectorTable_sublist (h : tensors.Sublist tensors') (hnodup : tensors'.Nodup) :
    (valueVectorTable tensors).Sublist (valueVectorTable tensors') := by
  by_cases hnil : tensors = []
  · subst hnil
    exact List.nil_sublist _
  · have hnil' : tensors' ≠ [] := fun h' => hnil (List.sublist_nil.1 (h' ▸ h))
    rw [valueVectorTable_eq (hnodup.sublist h), valueVectorTable_eq hnodup, if_neg hnil,
      if_neg hnil']
    exact (h.map _).cons_cons _

theorem valueTableTable_sublist (h : tensors.Sublist tensors') (hnodup : tensors'.Nodup) :
    (valueTableTable tensors).Sublist (valueTableTable tensors') := by
  rw [valueTableTable_eq (hnodup.sublist h), valueTableTable_eq hnodup]
  exact h.map _

end Lists

/-- Further tensor types add containers, and leave the others in their order. -/
theorem ContainerTable.build_sublist (rows : List Space) {t t' : TensorTable}
    (h : t.tensors.Sublist t'.tensors) (hnodup : t'.tensors.Nodup) :
    (build rows t).value.dynamicMultiArrays.Sublist (build rows t').value.dynamicMultiArrays ∧
      (build rows t).value.valueVectors.Sublist (build rows t').value.valueVectors ∧
      (build rows t).value.valueTables.Sublist (build rows t').value.valueTables :=
  ⟨dynamicMultiArrayTable_sublist _ h hnodup, valueVectorTable_sublist h hnodup,
    valueTableTable_sublist h hnodup⟩

/-- The tables that list derivatives, alone or among others, or containers of them. -/
def TableName.ofDerivatives : List TableName :=
  [.derivatives, .tensors, .dynamicMultiArrays, .valueVectors, .valueTables]

/-- What is declared for a derivative: its type, and the containers of it. -/
inductive Declaration.Holds (x : Derivative) : Declaration → Prop
  | tensor : Holds x (.tensor (.derivative x))
  | dynamicMultiArray : Holds x (.dynamicMultiArray ⟨.tensor (.derivative x), 2⟩)
  | valueVector : Holds x (.valueVector (.tensor (.derivative x)))
  | valueTable : Holds x (.valueTable ⟨.derivative x⟩)

namespace Catalogue

variable {seeds : List Space} {selected : List Family}

/-! ## Nothing is moved -/

/-- The spaces do not depend on the order. -/
theorem spaces_eq (seeds : List Space) (n m : MaxOrder) :
    (ofSeeds seeds n).spaces = (ofSeeds seeds m).spaces := by
  rw [spaces_ofSeeds, spaces_ofSeeds]

theorem shapes_eq (seeds : List Space) (n m : MaxOrder) :
    (ofSeeds seeds n).shapes = (ofSeeds seeds m).shapes := by
  rw [shapes_ofSeeds, shapes_ofSeeds, spaces_eq seeds n m]

theorem splines_eq (seeds : List Space) (n m : MaxOrder) :
    (ofSeeds seeds n).splines = (ofSeeds seeds m).splines := by
  rw [splines_ofSeeds, splines_ofSeeds, spaces_eq seeds n m, shapes_eq seeds n m]

theorem values_eq (seeds : List Space) (n m : MaxOrder) :
    (ofSeeds seeds n).tensors.values = (ofSeeds seeds m).tensors.values := by
  rw [tensors_ofSeeds, tensors_ofSeeds, shapes_eq seeds n m]
  exact TensorTable.values_eq n m

/-- The dimensions of containers do not depend on the order. -/
theorem containerDims_eq (seeds : List Space) (n m : MaxOrder) :
    (ofSeeds seeds n).containers.dims = (ofSeeds seeds m).containers.dims := by
  rw [containers_ofSeeds, containers_ofSeeds, spaces_eq seeds n m]
  rfl

theorem cartesianProductArrays_eq (seeds : List Space) (n m : MaxOrder) :
    (ofSeeds seeds n).containers.cartesianProductArrays =
      (ofSeeds seeds m).containers.cartesianProductArrays := by
  rw [containers_ofSeeds, containers_ofSeeds, spaces_eq seeds n m]
  rfl

theorem perDim_eq (seeds : List Space) (n m : MaxOrder) (c : DimClass) :
    (ofSeeds seeds n).containers.perDim c = (ofSeeds seeds m).containers.perDim c := by
  rw [ContainerTable.perDim, ContainerTable.perDim, containerDims_eq seeds n m]

theorem prefix_derivatives (h : n.max ≤ m.max) :
    (ofSeeds seeds n).tensors.derivatives <+: (ofSeeds seeds m).tensors.derivatives := by
  rw [tensors_ofSeeds, tensors_ofSeeds, shapes_eq seeds n m]
  exact TensorTable.prefix_derivatives h

theorem tensors_sublist (h : n.max ≤ m.max) :
    (ofSeeds seeds n).tensors.tensors.Sublist (ofSeeds seeds m).tensors.tensors := by
  rw [TensorTable.tensors, TensorTable.tensors, values_eq seeds n m]
  exact ((prefix_derivatives h).sublist.map _).append (List.Sublist.refl _)

/-- The containers of tensors keep their order. -/
theorem containers_sublist (seeds : List Space) (h : n.max ≤ m.max) :
    (ofSeeds seeds n).containers.dynamicMultiArrays.Sublist
        (ofSeeds seeds m).containers.dynamicMultiArrays ∧
      (ofSeeds seeds n).containers.valueVectors.Sublist
        (ofSeeds seeds m).containers.valueVectors ∧
      (ofSeeds seeds n).containers.valueTables.Sublist
        (ofSeeds seeds m).containers.valueTables := by
  rw [containers_ofSeeds, containers_ofSeeds, spaces_eq seeds n m]
  exact ContainerTable.build_sublist _ (tensors_sublist h) (nodup_tensors seeds m)

/-- Tables that are not made from derivatives do not depend on the order. -/
theorem entries_eq (seeds : List Space) (n m : MaxOrder) {t : TableName}
    (ht : t ∉ TableName.ofDerivatives) :
    (ofSeeds seeds n).entries t = (ofSeeds seeds m).entries t := by
  cases t with
  | derivatives | tensors | dynamicMultiArrays | valueVectors | valueTables =>
    exact absurd (by decide) ht
  | values => exact values_eq seeds n m
  | containerDims => exact containerDims_eq seeds n m
  | perDim c => exact perDim_eq seeds n m c
  | cartesianProductArrays => exact cartesianProductArrays_eq seeds n m
  | user | face | all | extended | pushForwardRows | dims | userDims | faceDims =>
    rw [entries, entries, spaces_eq seeds n m]
  | mappings | userMappings | functions | refShapes | userRefShapes | filteredRefShapes =>
    rw [entries, entries, shapes_eq seeds n m]
  | refSpaces | userRefSpaces | filteredRefSpaces | pushForwards | physicalSpaces
  | userPhysicalSpaces =>
    rw [entries, entries, splines_eq seeds n m]

/-- Every table keeps its entries in their order. -/
theorem sublist_entries (h : n.max ≤ m.max) (t : TableName) :
    ((ofSeeds seeds n).entries t).Sublist ((ofSeeds seeds m).entries t) := by
  by_cases ht : t ∈ TableName.ofDerivatives
  · obtain ⟨harrays, hvectors, htables⟩ := containers_sublist seeds h
    simp only [TableName.ofDerivatives, List.mem_cons, List.not_mem_nil, or_false] at ht
    rcases ht with rfl | rfl | rfl | rfl | rfl
    · exact (prefix_derivatives h).sublist
    · exact tensors_sublist h
    · exact harrays
    · exact hvectors
    · exact htables
  · rw [entries_eq seeds n m ht]

theorem declarations_sublist (h : n.max ≤ m.max) :
    ((ofSeeds seeds n).declarations selected).Sublist
      ((ofSeeds seeds m).declarations selected) := by
  refine List.Sublist.flatMap_right _ fun f _ => ?_
  rw [f.declarations_eq_map, f.declarations_eq_map]
  exact (sublist_entries h f.table).map _

/-! ## What is added -/

/-- A derivative that is added has one of the further orders. -/
theorem order_of_added {x : Derivative} (hx : x ∈ (ofSeeds seeds m).tensors.derivatives)
    (hnew : x ∉ (ofSeeds seeds n).tensors.derivatives) : n.max < x.order ∧ x.order ≤ m.max := by
  obtain ⟨hne, o, ho, f, hf, rfl⟩ := mem_derivatives.1 hx
  have hlow : n.max < o := by
    by_contra hlow
    exact hnew (mem_derivatives.2 ⟨hne, o, UInt32.not_lt.1 hlow, f, hf, rfl⟩)
  have hzero : o ≠ 0 := by
    rintro rfl
    exact UInt32.not_lt_zero hlow
  rw [Derivative.ofOrder, if_neg hzero]
  exact ⟨hlow, ho⟩

/-- A tensor type that is added is that of a derivative of one of the further orders. -/
theorem exists_derivative_of_added {t : Tensor} (ht : t ∈ (ofSeeds seeds m).tensors.tensors)
    (hnew : t ∉ (ofSeeds seeds n).tensors.tensors) :
    ∃ x, t = .derivative x ∧ n.max < x.order ∧ x.order ≤ m.max := by
  rw [TensorTable.tensors, List.mem_append] at ht hnew
  rcases ht with ht | ht
  · obtain ⟨x, hx, rfl⟩ := List.mem_map.1 ht
    exact ⟨x, rfl, order_of_added hx fun hx' => hnew (.inl (List.mem_map_of_mem hx'))⟩
  · rw [values_eq seeds n m] at hnew
    exact absurd (.inr ht) hnew

/-- A declaration that is added is one for a derivative of one of the further orders. -/
theorem exists_holds_of_added {d : Declaration}
    (hd : d ∈ (ofSeeds seeds m).declarations selected)
    (hnew : d ∉ (ofSeeds seeds n).declarations selected) :
    ∃ x : Derivative, n.max < x.order ∧ x.order ≤ m.max ∧ d.Holds x := by
  obtain ⟨hselected, hentry⟩ := mem_declarations.1 hd
  have hnew : d.entry ∉ (ofSeeds seeds n).entries d.family.table :=
    fun h => hnew (mem_declarations.2 ⟨hselected, h⟩)
  have htable : d.family.table ∈ TableName.ofDerivatives := by
    by_contra htable
    exact hnew (entries_eq seeds n m htable ▸ hentry)
  cases d with
  | tensor t =>
    obtain ⟨x, rfl, hlow, hhigh⟩ := exists_derivative_of_added hentry hnew
    exact ⟨x, hlow, hhigh, .tensor⟩
  | dynamicMultiArray a =>
    rcases mem_dynamicMultiArrays.1 hentry with hdim | ⟨t, ht, ha⟩
    · have hlisted : a ∈ (ofSeeds seeds n).containers.dynamicMultiArrays :=
        mem_dynamicMultiArrays.2 (.inl hdim)
      exact absurd hlisted hnew
    · obtain ⟨x, rfl, hlow, hhigh⟩ := exists_derivative_of_added ht
        fun h => hnew (mem_dynamicMultiArrays.2 (.inr ⟨t, h, ha⟩))
      obtain rfl : a = ⟨.tensor (.derivative x), 2⟩ := ha
      exact ⟨x, hlow, hhigh, .dynamicMultiArray⟩
  | valueVector v =>
    obtain ⟨t, ht, hv⟩ := mem_valueVectors.1 hentry
    rcases hv with rfl | rfl
    · obtain ⟨u, hu⟩ := exists_mem_tensors_iff.2 (exists_mem_tensors_iff.1 ⟨t, ht⟩)
      exact absurd (mem_valueVectors.2 ⟨u, hu, .inl rfl⟩) hnew
    · obtain ⟨x, rfl, hlow, hhigh⟩ := exists_derivative_of_added ht
        fun h => hnew (mem_valueVectors.2 ⟨t, h, .inr rfl⟩)
      exact ⟨x, hlow, hhigh, .valueVector⟩
  | valueTable t =>
    obtain ⟨tensor⟩ := t
    obtain ⟨x, rfl, hlow, hhigh⟩ := exists_derivative_of_added (mem_valueTables.1 hentry)
      fun h => hnew (mem_valueTables.2 h)
    exact ⟨x, hlow, hhigh, .valueTable⟩
  | _ => exact absurd htable (by simp [TableName.ofDerivatives, Declaration.family, Family.table])

/-- A higher order only adds lines, and leaves the others in their order.  All tables but those
made from derivatives stay as they are, and the derivatives are continued.  In a generated file,
each line that is added declares a derivative of one of the further orders or a container of it;
as no line is written twice, it is clear which ones these are. -/
theorem higher_order (seeds : List Space) {n m : MaxOrder} (h : n.max ≤ m.max)
    (generator : String) (selected : List Family) :
    ((ofSeeds seeds n).spaces = (ofSeeds seeds m).spaces ∧
      (ofSeeds seeds n).shapes = (ofSeeds seeds m).shapes ∧
      (ofSeeds seeds n).splines = (ofSeeds seeds m).splines ∧
      (ofSeeds seeds n).tensors.values = (ofSeeds seeds m).tensors.values ∧
      (∀ c, (ofSeeds seeds n).containers.perDim c = (ofSeeds seeds m).containers.perDim c) ∧
      (ofSeeds seeds n).containers.cartesianProductArrays =
        (ofSeeds seeds m).containers.cartesianProductArrays) ∧
    (ofSeeds seeds n).tensors.derivatives <+: (ofSeeds seeds m).tensors.derivatives ∧
    ∃ (body body' : String) (lines lines' : List (List Char)),
      (Writer.generate generator (ofSeeds seeds n) selected).sink.bytes =
        (header generator ++ body).toUTF8 ∧
      (Writer.generate generator (ofSeeds seeds m) selected).sink.bytes =
        (header generator ++ body').toUTF8 ∧
      Text.lines body.toList = lines ++ [[]] ∧ Text.lines body'.toList = lines' ++ [[]] ∧
      lines.Sublist lines' ∧ lines'.Nodup ∧
      ∀ l ∈ lines', l ∉ lines →
        ∃ (x : Derivative) (d : Declaration), n.max < x.order ∧ x.order ≤ m.max ∧ d.Holds x ∧
          d.line = l := by
  refine ⟨⟨spaces_eq seeds n m, shapes_eq seeds n m, splines_eq seeds n m, values_eq seeds n m,
    perDim_eq seeds n m, cartesianProductArrays_eq seeds n m⟩, prefix_derivatives h, ?_⟩
  refine ⟨_, _, _, _, Writer.bytes_generate _ _ _, Writer.bytes_generate _ _ _,
    lines_declarationText _, lines_declarationText _, (declarations_sublist h).map _,
    (nodup_declarations selected).map Declaration.line_injective, ?_⟩
  intro l hl hnew
  obtain ⟨d, hd, rfl⟩ := List.mem_map.1 hl
  obtain ⟨x, hlow, hhigh, hholds⟩ :=
    exists_holds_of_added hd fun hd' => hnew (List.mem_map_of_mem hd')
  exact ⟨x, d, hlow, hhigh, hholds, rfl⟩

/-- From order zero to order two, for a vector field on a surface in space: the second derivative
of the field continues the derivatives, and its line is one that is added among the tensors. -/
theorem higher_order_surface :
    let low := ofSeeds [⟨2, 1, 2, 1, .hDiv⟩] ⟨0⟩
    let high := ofSeeds [⟨2, 1, 2, 1, .hDiv⟩] ⟨2⟩
    let added := ("template class Tensor<3, 2, tensor::covariant, " ++
      "Tensor<3, 1, tensor::contravariant, Tdouble>> ;").toList
    (⟨0⟩ : MaxOrder).max ≤ (⟨2⟩ : MaxOrder).max ∧
      low.tensors.derivatives <+: high.tensors.derivatives ∧
      ⟨2, 3, ⟨3, 1⟩⟩ ∈ high.tensors.derivatives ∧ ⟨2, 3, ⟨3, 1⟩⟩ ∉ low.tensors.derivatives ∧
      ∃ (body body' : String) (lines lines' : List (List Char)),
        (Writer.generate "surface" low [.tensors]).sink.bytes =
          (header "surface" ++ body).toUTF8 ∧
        (Writer.generate "surface" high [.tensors]).sink.bytes =
          (header "surface" ++ body').toUTF8 ∧
        Text.lines body.toList = lines ++ [[]] ∧ Text.lines body'.toList = lines' ++ [[]] ∧
        lines.Sublist lines' ∧ added ∈ lines' ∧ added ∉ lines := by
  intro low high added
  have hle : (⟨0⟩ : MaxOrder).max ≤ (⟨2⟩ : MaxOrder).max := by decide
  have hrow : (⟨2, 1, 2, 1, .hDiv⟩ : Space) ∈ high.spaces.all :=
    mem_all.2 (.inl List.mem_cons_self)
  have hshape : (⟨3, 3, 1⟩ : Shape) ∈ high.shapes.functions :=
    mem_functions.2 ⟨_, hrow, .inr (.inl rfl)⟩
  have hmem : ⟨2, 3, ⟨3, 1⟩⟩ ∈ high.tensors.derivatives :=
    mem_derivatives.2 ⟨List.cons_ne_nil _ _, 2, UInt32.le_refl _, _, .inl hshape, rfl⟩
  have hnew : ⟨2, 3, ⟨3, 1⟩⟩ ∉ low.tensors.derivatives := by
    intro hlisted
    obtain ⟨-, o, ho, f, -, hx⟩ := mem_derivatives.1 hlisted
    obtain rfl : o = 0 := UInt32.le_antisymm ho UInt32.zero_le
    have horder : (1 : UInt32) = 2 := congrArg Derivative.order hx
    exact absurd horder (by decide)
  obtain ⟨-, hprefix, body, body', lines, lines', hbytes, hbytes', hlines, hlines', hsublist, -⟩ :=
    higher_order [⟨2, 1, 2, 1, .hDiv⟩] hle "surface" [.tensors]
  have hadded : (Declaration.tensor (.derivative ⟨2, 3, ⟨3, 1⟩⟩)).line = added := by decide
  have hline : added ∈ lines' := by
    rw [Writer.lines_eq_of_bytes_generate hbytes' hlines', ← hadded]
    exact List.mem_map_of_mem (mem_declarations.2
      ⟨List.mem_singleton_self _, TensorTable.derivative_mem_tensors.2 hmem⟩)
  have hline' : added ∉ lines := by
    rw [Writer.lines_eq_of_bytes_generate hbytes hlines, ← hadded,
      List.mem_map_of_injective Declaration.line_injective]
    exact fun h => hnew (TensorTable.derivative_mem_tensors.1 (mem_declarations.1 h).2)
  exact ⟨hle, hprefix, hmem, hnew, body, body', lines, lines', hbytes, hbytes', hlines, hlines',
    hsublist, hline, hline'⟩

end Catalogue

end InstanceTables

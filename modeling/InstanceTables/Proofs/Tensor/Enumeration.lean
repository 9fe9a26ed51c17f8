import InstanceTables.Proofs.Catalogue.Table
import InstanceTables.Proofs.Membership

/-!
# The enumeration of tensor types

The table of tensor types is made by going through the orders and, within each order, through
the shapes at hand, which may come up several times.  Here it is given as lists: `shapesAtHand`
and `valuesAtHand` hold each shape and each type of values once, and the derivatives are written
down from these, block by block.

A type of order zero is that of a first derivative on a line.  So order zero gives one type for
each type of values, order one repeats those of them that belong to functions on a line, and no
other order repeats anything.
-/

namespace InstanceTables

namespace MaxOrder

variable (n : MaxOrder)

/-- The orders from one up to the highest. -/
def positiveOrders : List UInt32 := (List.range' 1 n.max.toNat).map UInt32.ofNat

/-- The orders from two up to the highest. -/
def furtherOrders : List UInt32 := (List.range' 2 (n.max.toNat - 1)).map UInt32.ofNat

theorem orders_eq : n.orders = 0 :: n.positiveOrders := by
  rw [orders, firstOrders, Nat.min_self, List.range_eq_range', List.range'_succ, List.map_cons]
  rfl

theorem positiveOrders_eq (h : 1 ≤ n.max.toNat) : n.positiveOrders = 1 :: n.furtherOrders := by
  obtain ⟨k, hk⟩ : ∃ k, n.max.toNat = k + 1 := ⟨n.max.toNat - 1, by omega⟩
  rw [positiveOrders, furtherOrders, hk, List.range'_succ, List.map_cons, Nat.add_sub_cancel]
  rfl

theorem positiveOrders_of_lt (h : ¬ 1 ≤ n.max.toNat) : n.positiveOrders = [] := by
  rw [positiveOrders, Nat.lt_one_iff.1 (Nat.lt_of_not_le h)]
  rfl

theorem furtherOrders_of_lt (h : ¬ 1 ≤ n.max.toNat) : n.furtherOrders = [] := by
  rw [furtherOrders, Nat.lt_one_iff.1 (Nat.lt_of_not_le h)]
  rfl

theorem nodup_orders : n.orders.Nodup := by
  have hn : n.max.toNat < UInt32.size := n.max.toNat_lt
  rw [orders, firstOrders, Nat.min_self]
  refine List.Nodup.map_on ?_ List.nodup_range
  intro k hk l hl h
  rw [List.mem_range] at hk hl
  rw [← UInt32.toNat_ofNat_of_lt' (n := k) (by omega), h, UInt32.toNat_ofNat_of_lt' (by omega)]

theorem zero_not_mem_positiveOrders : 0 ∉ n.positiveOrders :=
  (List.nodup_cons.1 (n.orders_eq ▸ n.nodup_orders)).1

theorem nodup_positiveOrders : n.positiveOrders.Nodup :=
  (List.nodup_cons.1 (n.orders_eq ▸ n.nodup_orders)).2

theorem one_not_mem_furtherOrders : 1 ∉ n.furtherOrders := by
  by_cases h : 1 ≤ n.max.toNat
  · exact (List.nodup_cons.1 (n.positiveOrders_eq h ▸ n.nodup_positiveOrders)).1
  · rw [n.furtherOrders_of_lt h]
    exact List.not_mem_nil

end MaxOrder

/-! ## Blocks of one order -/

namespace Derivative

theorem ofShape_injective (o : UInt32) : Function.Injective (ofShape o) := by
  rintro ⟨d, r, k⟩ ⟨d', r', k'⟩ h
  simpa [ofShape, Value.ofShape] using h

/-- The zeroth derivatives of shapes are those of their values. -/
theorem map_zeroth (shapes : List Shape) :
    shapes.map zeroth = (shapes.map Value.ofShape).map (⟨1, 1, ·⟩) := by
  rw [List.map_map]
  rfl

/-- Of the derivatives of an order, those that are no zeroth derivatives. -/
theorem map_ofShape_removeAll (o : UInt32) (shapes : List Shape) :
    (shapes.map (ofShape o)).removeAll (shapes.map zeroth) =
      (shapes.filter fun f => ¬ (o = 1 ∧ f.dim = 1)).map (ofShape o) := by
  rw [List.removeAll, List.filter_map]
  refine congrArg _ (List.filter_congr fun f hf => ?_)
  have hlisted : ofShape o f ∈ shapes.map zeroth ↔ o = 1 ∧ f.dim = 1 := by
    rw [List.mem_map]
    constructor
    · rintro ⟨g, -, h⟩
      exact ⟨(congrArg order h).symm, (congrArg dim h).symm⟩
    · rintro ⟨ho, hd⟩
      refine ⟨f, hf, ?_⟩
      rw [zeroth, ofShape, ho, hd]
  simp only [Function.comp_apply, List.elem_eq_mem, hlisted, decide_not]

end Derivative

/-! ## The table -/

/-- The shapes at hand: those of the functions, those of the mappings and that of the point
scalar, each once. -/
def shapesAtHand (functions : List Shape) (mappings : List Mapping) : List Shape :=
  (functions ++ mappings.map Mapping.forward ++ [pointScalar]).eraseDups

/-- The types of the values at hand, each once. -/
def valuesAtHand (functions : List Shape) (mappings : List Mapping) : List Value :=
  ((shapesAtHand functions mappings).map Value.ofShape).eraseDups

theorem shapesAtHand_eq (functions : List Shape) (mappings : List Mapping) :
    shapesAtHand functions mappings = distinct (TensorTable.workingShapes functions mappings) :=
  (distinct_eq_eraseDups _).symm

/-- Copies of a shape add no type of values. -/
theorem valuesAtHand_eq (functions : List Shape) (mappings : List Mapping) :
    valuesAtHand functions mappings =
      distinct ((TensorTable.workingShapes functions mappings).map Value.ofShape) := by
  rw [valuesAtHand, shapesAtHand_eq, ← distinct_eq_eraseDups, distinct_map_distinct]

namespace TensorTable

variable {functions : List Shape} {mappings : List Mapping} {n : MaxOrder}

/-- What is listed and what is logged if there is something to differentiate. -/
theorem build_of_ne_nil (hne : functions ≠ [] ∨ mappings ≠ []) :
    build functions mappings n =
      let derivatives := distinct (n.orders.flatMap fun o =>
        (workingShapes functions mappings).map (Derivative.ofOrder o))
      let values := distinct ((workingShapes functions mappings).map Value.ofShape)
      ⟨⟨derivatives, values⟩, [.tensorsEnumerated n derivatives.length values.length]⟩ := by
  have hempty : ¬ (functions.isEmpty && mappings.isEmpty) := by
    rw [Bool.and_eq_true, List.isEmpty_iff, List.isEmpty_iff, not_and_or]
    exact hne
  have hvalues := distinct_flatMap_const n.orders_ne_nil
    ((workingShapes functions mappings).map Value.ofShape)
  rw [build, if_neg hempty, ← hvalues]
  rfl

theorem build_eq (hne : functions ≠ [] ∨ mappings ≠ []) :
    (build functions mappings n).value =
      { derivatives := distinct (n.orders.flatMap fun o =>
          (workingShapes functions mappings).map (Derivative.ofOrder o))
        values := distinct ((workingShapes functions mappings).map Value.ofShape) } := by
  rw [build_of_ne_nil hne]

/-- The lengths of the tables are logged. -/
theorem events_build (hne : functions ≠ [] ∨ mappings ≠ []) :
    (build functions mappings n).events =
      [.tensorsEnumerated n (build functions mappings n).value.derivatives.length
        (build functions mappings n).value.values.length] := by
  rw [build_of_ne_nil hne]

theorem values_build (hne : functions ≠ [] ∨ mappings ≠ []) :
    (build functions mappings n).value.values = valuesAtHand functions mappings := by
  rw [build_eq hne, valuesAtHand_eq]

/-- The first occurrences of derivatives, order by order. -/
theorem distinct_derivatives (n : MaxOrder) (shapes : List Shape) :
    distinct (n.orders.flatMap fun o => shapes.map (Derivative.ofOrder o)) =
      (distinct (shapes.map Value.ofShape)).map (⟨1, 1, ·⟩) ++
        n.positiveOrders.flatMap fun o =>
          ((distinct shapes).filter fun f => ¬ (o = 1 ∧ f.dim = 1)).map (Derivative.ofShape o) := by
  have hpositive : (n.positiveOrders.flatMap fun o => shapes.map (Derivative.ofOrder o)) =
      n.positiveOrders.flatMap fun o => shapes.map (Derivative.ofShape o) := by
    refine List.flatMap_congr fun o ho => List.map_congr_left fun f _ => ?_
    rw [Derivative.ofOrder, if_neg (ne_of_mem_of_not_mem ho n.zero_not_mem_positiveOrders)]
  have hnew : (n.positiveOrders.flatMap fun o => shapes.map (Derivative.ofShape o)).removeAll
        (shapes.map Derivative.zeroth) =
      n.positiveOrders.flatMap fun o =>
        (shapes.filter fun f => ¬ (o = 1 ∧ f.dim = 1)).map (Derivative.ofShape o) := by
    rw [List.removeAll, List.filter_flatMap]
    exact List.flatMap_congr fun o _ => Derivative.map_ofShape_removeAll o shapes
  have hdisjoint : n.positiveOrders.Pairwise fun o p =>
      ((shapes.filter fun f => ¬ (o = 1 ∧ f.dim = 1)).map (Derivative.ofShape o)).Disjoint
        ((shapes.filter fun f => ¬ (p = 1 ∧ f.dim = 1)).map (Derivative.ofShape p)) := by
    refine n.nodup_positiveOrders.imp fun hop x hx hx' => hop ?_
    obtain ⟨f, -, rfl⟩ := List.mem_map.1 hx
    obtain ⟨g, -, hg⟩ := List.mem_map.1 hx'
    exact (congrArg Derivative.order hg).symm
  have hzeroth : Function.Injective fun v : Value => (⟨1, 1, v⟩ : Derivative) :=
    fun v w h => (Derivative.mk.inj h).2.2
  calc
    distinct (n.orders.flatMap fun o => shapes.map (Derivative.ofOrder o))
    _ = distinct (shapes.map Derivative.zeroth ++
          n.positiveOrders.flatMap fun o => shapes.map (Derivative.ofShape o)) := by
        rw [n.orders_eq, List.flatMap_cons, hpositive]
        rfl
    _ = distinct (shapes.map Derivative.zeroth) ++
          distinct (n.positiveOrders.flatMap fun o =>
            (shapes.filter fun f => ¬ (o = 1 ∧ f.dim = 1)).map (Derivative.ofShape o)) := by
        rw [distinct_append, hnew]
    _ = _ := by
        rw [Derivative.map_zeroth, distinct_map_of_injective hzeroth,
          distinct_flatMap_of_disjoint hdisjoint]
        refine congrArg _ (List.flatMap_congr fun o _ => ?_)
        rw [distinct_map_of_injective (Derivative.ofShape_injective o), distinct_filter]

/-- Only order one repeats what order zero has given. -/
theorem flatMap_positiveOrders (n : MaxOrder) (shapes : List Shape) :
    (n.positiveOrders.flatMap fun o =>
        (shapes.filter fun f => ¬ (o = 1 ∧ f.dim = 1)).map (Derivative.ofShape o)) =
      (if 1 ≤ n.max.toNat then (shapes.filter fun f => f.dim ≠ 1).map (Derivative.ofShape 1)
        else []) ++
      n.furtherOrders.flatMap fun o => shapes.map (Derivative.ofShape o) := by
  by_cases h : 1 ≤ n.max.toNat
  · have hfurther : ∀ o ∈ n.furtherOrders,
        (shapes.filter fun f => ¬ (o = 1 ∧ f.dim = 1)) = shapes := by
      intro o ho
      have ho1 : o ≠ 1 := ne_of_mem_of_not_mem ho n.one_not_mem_furtherOrders
      exact List.filter_eq_self.2 fun f _ => by simp [ho1]
    rw [n.positiveOrders_eq h, List.flatMap_cons, if_pos h]
    congr 1
    · simp
    · exact List.flatMap_congr fun o ho => by rw [hfurther o ho]
  · rw [n.positiveOrders_of_lt h, n.furtherOrders_of_lt h, if_neg h]
    rfl

/-- The derivatives, block by block. -/
theorem derivatives_build (hne : functions ≠ [] ∨ mappings ≠ []) :
    (build functions mappings n).value.derivatives =
      (valuesAtHand functions mappings).map (⟨1, 1, ·⟩) ++
        ((if 1 ≤ n.max.toNat then
            ((shapesAtHand functions mappings).filter fun f => f.dim ≠ 1).map (Derivative.ofShape 1)
          else []) ++
        n.furtherOrders.flatMap fun o =>
          (shapesAtHand functions mappings).map (Derivative.ofShape o)) := by
  rw [build_eq hne, ← flatMap_positiveOrders, valuesAtHand_eq, shapesAtHand_eq]
  exact distinct_derivatives n _

/-- Of the shapes at hand, those on a line have no type of order one of their own. -/
theorem length_derivatives_build (hne : functions ≠ [] ∨ mappings ≠ []) :
    (build functions mappings n).value.derivatives.length +
        (if 1 ≤ n.max.toNat then (shapesAtHand functions mappings).countP (·.dim = 1) else 0) =
      (valuesAtHand functions mappings).length +
        n.max.toNat * (shapesAtHand functions mappings).length := by
  generalize hshapes : shapesAtHand functions mappings = shapes
  have hblocks : (n.furtherOrders.flatMap fun o => shapes.map (Derivative.ofShape o)).length =
      (n.max.toNat - 1) * shapes.length := by
    simp [List.length_flatMap, MaxOrder.furtherOrders, Function.comp_def]
  rw [derivatives_build hne, hshapes, List.length_append, List.length_append, hblocks,
    List.length_map]
  by_cases h : 1 ≤ n.max.toNat
  · obtain ⟨k, hk⟩ : ∃ k, n.max.toNat = k + 1 := ⟨n.max.toNat - 1, by omega⟩
    have hsplit : shapes.length =
        shapes.countP (·.dim = 1) + (shapes.filter fun f => f.dim ≠ 1).length := by
      rw [← List.countP_eq_length_filter]
      simpa using List.length_eq_countP_add_countP (fun f : Shape => decide (f.dim = 1))
    rw [if_pos h, if_pos h, List.length_map, hk, Nat.add_sub_cancel, Nat.succ_mul]
    omega
  · rw [if_neg h, if_neg h, Nat.lt_one_iff.1 (Nat.lt_of_not_le h)]
    simp

/-- Order zero is replaced, so that no entry has it. -/
theorem order_ne_zero_of_mem_build {x : Derivative}
    (hx : x ∈ (build functions mappings n).value.derivatives) : x.order ≠ 0 := by
  obtain ⟨-, o, -, f, -, rfl⟩ := mem_derivatives_build.1 hx
  by_cases ho : o = 0
  · rw [Derivative.ofOrder, if_pos ho]
    exact (by decide : (1 : UInt32) ≠ 0)
  · rw [Derivative.ofOrder, if_neg ho]
    exact ho

/-- The tables of tensor types as lists, if there is something to differentiate.  Whatever the
highest order is, the values are those at hand.  The derivatives are first one on a line for each
type of values, then those of order one of the shapes that do not lie on a line, then those of
each further order in turn of all shapes.  So no type is listed twice, none has order zero, and
their number is known. -/
theorem enumeration_exact (functions : List Shape) (mappings : List Mapping)
    (hne : functions ≠ [] ∨ mappings ≠ []) (n : MaxOrder) :
    (build functions mappings n).value.values = valuesAtHand functions mappings ∧
    (build functions mappings n).value.derivatives =
      (valuesAtHand functions mappings).map (⟨1, 1, ·⟩) ++
        ((if 1 ≤ n.max.toNat then
            ((shapesAtHand functions mappings).filter fun f => f.dim ≠ 1).map (Derivative.ofShape 1)
          else []) ++
        n.furtherOrders.flatMap fun o =>
          (shapesAtHand functions mappings).map (Derivative.ofShape o)) ∧
    (build functions mappings n).value.derivatives.Nodup ∧
    (∀ x ∈ (build functions mappings n).value.derivatives, x.order ≠ 0) ∧
    (build functions mappings n).value.derivatives.length +
        (if 1 ≤ n.max.toNat then (shapesAtHand functions mappings).countP (·.dim = 1) else 0) =
      (valuesAtHand functions mappings).length +
        n.max.toNat * (shapesAtHand functions mappings).length :=
  ⟨values_build hne, derivatives_build hne, (nodup_build functions mappings n).1,
    fun _ => order_ne_zero_of_mem_build, length_derivatives_build hne⟩

/-- Functions on a line and on a plane, and a mapping of a line that brings the first of them
once more, up to order two. -/
theorem enumeration_exact_line :
    (([⟨1, 1, 1⟩, ⟨2, 1, 1⟩] : List Shape) ≠ [] ∨ ([⟨1, 0⟩] : List Mapping) ≠ []) ∧
      (build [⟨1, 1, 1⟩, ⟨2, 1, 1⟩] [⟨1, 0⟩] ⟨2⟩).value.values = [⟨1, 1⟩, ⟨0, 1⟩] ∧
      (build [⟨1, 1, 1⟩, ⟨2, 1, 1⟩] [⟨1, 0⟩] ⟨2⟩).value.derivatives =
        [⟨1, 1, ⟨1, 1⟩⟩, ⟨1, 1, ⟨0, 1⟩⟩, ⟨1, 2, ⟨1, 1⟩⟩, ⟨1, 0, ⟨0, 1⟩⟩,
          ⟨2, 1, ⟨1, 1⟩⟩, ⟨2, 2, ⟨1, 1⟩⟩, ⟨2, 0, ⟨0, 1⟩⟩] := by
  have hne : ([⟨1, 1, 1⟩, ⟨2, 1, 1⟩] : List Shape) ≠ [] ∨ ([⟨1, 0⟩] : List Mapping) ≠ [] :=
    .inl (List.cons_ne_nil _ _)
  have hshapes : shapesAtHand [⟨1, 1, 1⟩, ⟨2, 1, 1⟩] [⟨1, 0⟩] =
      [⟨1, 1, 1⟩, ⟨2, 1, 1⟩, ⟨0, 0, 1⟩] := by
    decide
  have hvalues : valuesAtHand [⟨1, 1, 1⟩, ⟨2, 1, 1⟩] [⟨1, 0⟩] = [⟨1, 1⟩, ⟨0, 1⟩] := by
    rw [valuesAtHand, hshapes]
    decide
  obtain ⟨h, h', -⟩ := enumeration_exact _ _ hne ⟨2⟩
  rw [hvalues] at h h'
  rw [hshapes] at h'
  exact ⟨hne, h, h'⟩

end TensorTable

end InstanceTables

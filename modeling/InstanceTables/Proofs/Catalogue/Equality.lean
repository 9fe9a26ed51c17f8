import InstanceTables.Proofs.Container.Enumeration
import InstanceTables.Proofs.Membership
import InstanceTables.Proofs.Spline.Enumeration

/-!
# Equal catalogues

What a catalogue, or one of its parts, still shows of the seeds and the order that it was built
from.  The user's rows are the first occurrences of the seeds, and everything but the order comes
from them; so two catalogues are equal if these and the orders are.  In the other direction the
rows are found among the spaces, and can be read off the user's physical spaces.

The order is shown by the tensor types alone, and only if there is a seed: then the derivatives
of the point scalar go up to the highest order.  Order zero is no exception, as it is listed
with dimension one and the point scalar has dimension zero.
-/

namespace InstanceTables

namespace Tensor

def derivative? : Tensor → Option Derivative
  | derivative x => some x
  | value _ => none

def value? : Tensor → Option Value
  | derivative _ => none
  | value v => some v

end Tensor

namespace TensorTable

theorem filterMap_derivative?_tensors (t : TensorTable) :
    t.tensors.filterMap Tensor.derivative? = t.derivatives := by
  simp [tensors, Tensor.derivative?, Function.comp_def]

theorem filterMap_value?_tensors (t : TensorTable) :
    t.tensors.filterMap Tensor.value? = t.values := by
  simp [tensors, Tensor.value?, Function.comp_def]

/-- The list of all tensors shows where the derivatives end. -/
theorem tensors_injective : Function.Injective tensors := by
  intro t u h
  obtain ⟨hderivatives, hvalues⟩ : t.derivatives = u.derivatives ∧ t.values = u.values := by
    rw [← filterMap_derivative?_tensors, ← filterMap_derivative?_tensors,
      ← filterMap_value?_tensors t, ← filterMap_value?_tensors u, h]
    exact ⟨rfl, rfl⟩
  cases t
  cases u
  rw [mk.injEq]
  exact ⟨hderivatives, hvalues⟩

end TensorTable

/-- Tensor types can be read off the value tables, if no type is listed twice. -/
theorem ContainerTable.tensors_eq_of_build_eq {rows rows' : List Space} {t u : TensorTable}
    (ht : t.tensors.Nodup) (hu : u.tensors.Nodup)
    (h : (build rows t).value = (build rows' u).value) : t = u := by
  have htables := congrArg valueTables h
  rw [(enumerates_build rows ht).valueTables_eq,
    (enumerates_build rows' hu).valueTables_eq] at htables
  have hmk : Function.Injective ValueTable.mk := fun _ _ h => ValueTable.mk.inj h
  exact TensorTable.tensors_injective (List.map_injective_iff.2 hmk htables)

namespace Catalogue

variable {a b : List Space} {n m : MaxOrder}

theorem maxOrder_ofSeeds (seeds : List Space) (n : MaxOrder) : (ofSeeds seeds n).maxOrder = n := rfl

theorem user_ofSeeds (seeds : List Space) (n : MaxOrder) :
    (ofSeeds seeds n).spaces.user = distinct seeds := rfl

/-- The spaces show the first occurrences of the seeds, and nothing more. -/
theorem spaces_eq_iff :
    (ofSeeds a n).spaces = (ofSeeds b m).spaces ↔ distinct a = distinct b := by
  constructor
  · intro h
    rw [← user_ofSeeds a n, ← user_ofSeeds b m, h]
  · intro h
    rw [spaces_ofSeeds, spaces_ofSeeds, Closure.build, Closure.build, h]

theorem shapes_congr (h : distinct a = distinct b) :
    (ofSeeds a n).shapes = (ofSeeds b m).shapes := by
  rw [shapes_ofSeeds, shapes_ofSeeds, spaces_eq_iff.2 h]

/-- The first occurrences of the seeds can be read off the user's physical spaces. -/
theorem splines_eq_iff :
    (ofSeeds a n).splines = (ofSeeds b m).splines ↔ distinct a = distinct b := by
  constructor
  · intro h
    have huser : physicalSpaceTable (distinct a) = physicalSpaceTable (distinct b) :=
      congrArg SplineTable.userPhysicalSpaces h
    rw [physicalSpaceTable_inj, distinct_distinct, distinct_distinct] at huser
    exact huser
  · intro h
    rw [splines_ofSeeds, splines_ofSeeds, spaces_eq_iff.2 h, shapes_congr h]

/-! ## Tensor types -/

/-- The derivatives of the point scalar show the highest order, as soon as there is a seed. -/
theorem pointDerivative_mem_iff {seeds : List Space} (hne : seeds ≠ []) {o : UInt32} (ho : o ≠ 0) :
    Derivative.ofShape o pointScalar ∈ (ofSeeds seeds n).tensors.derivatives ↔ o ≤ n.max := by
  rw [mem_derivatives]
  constructor
  · rintro ⟨-, p, hp, f, -, hf⟩
    by_cases hzero : p = 0
    · rw [Derivative.ofOrder, if_pos hzero] at hf
      exact absurd (congrArg Derivative.dim hf) (by decide : (1 : UInt32) ≠ 0)
    · rw [Derivative.ofOrder, if_neg hzero] at hf
      obtain rfl : p = o := congrArg Derivative.order hf
      exact hp
  · intro hle
    exact ⟨hne, o, hle, pointScalar, .inr rfl, if_neg ho⟩

theorem max_le_of_tensors_eq (ha : a ≠ []) (hb : b ≠ [])
    (h : (ofSeeds a n).tensors = (ofSeeds b m).tensors) : n.max ≤ m.max := by
  by_cases hzero : n.max = 0
  · rw [hzero]
    exact UInt32.zero_le
  · rw [← pointDerivative_mem_iff hb hzero, ← h]
    exact (pointDerivative_mem_iff ha hzero).2 (UInt32.le_refl _)

theorem ne_nil_of_tensors_eq (ha : a ≠ [])
    (h : (ofSeeds a n).tensors = (ofSeeds b m).tensors) : b ≠ [] := by
  have hpoint := (mem_values (n := n)).2 ⟨ha, pointScalar, .inr rfl, rfl⟩
  rw [h] at hpoint
  exact (mem_values.1 hpoint).1

theorem order_eq_of_tensors_eq (ha : a ≠ []) (hb : b ≠ [])
    (h : (ofSeeds a n).tensors = (ofSeeds b m).tensors) : n = m := by
  have hmax := UInt32.le_antisymm (max_le_of_tensors_eq ha hb h) (max_le_of_tensors_eq hb ha h.symm)
  cases n
  cases m
  exact congrArg MaxOrder.mk hmax

theorem tensors_eq_of_containers_eq (h : (ofSeeds a n).containers = (ofSeeds b m).containers) :
    (ofSeeds a n).tensors = (ofSeeds b m).tensors :=
  ContainerTable.tensors_eq_of_build_eq (nodup_tensors a n) (nodup_tensors b m) h

/-! ## Catalogues -/

/-- Everything but the order comes from the first occurrences of the seeds. -/
theorem ofSeeds_congr (h : distinct a = distinct b) (n : MaxOrder) : ofSeeds a n = ofSeeds b n := by
  have hspaces : (ofSeeds a n).spaces = (ofSeeds b n).spaces := spaces_eq_iff.2 h
  have hshapes : (ofSeeds a n).shapes = (ofSeeds b n).shapes := shapes_congr h
  have htensors : (ofSeeds a n).tensors = (ofSeeds b n).tensors := by
    rw [tensors_ofSeeds, tensors_ofSeeds, hshapes]
  have hcontainers : (ofSeeds a n).containers = (ofSeeds b n).containers := by
    rw [containers_ofSeeds, containers_ofSeeds, hspaces, htensors]
  have hsplines : (ofSeeds a n).splines = (ofSeeds b n).splines := splines_eq_iff.2 h
  calc
    ofSeeds a n
    _ = ⟨n, (ofSeeds a n).spaces, (ofSeeds a n).shapes, (ofSeeds a n).tensors,
          (ofSeeds a n).containers, (ofSeeds a n).splines⟩ := rfl
    _ = ⟨n, (ofSeeds b n).spaces, (ofSeeds b n).shapes, (ofSeeds b n).tensors,
          (ofSeeds b n).containers, (ofSeeds b n).splines⟩ := by
        rw [hspaces, hshapes, htensors, hcontainers, hsplines]
    _ = ofSeeds b n := rfl

theorem ofSeeds_eq_iff : ofSeeds a n = ofSeeds b m ↔ n = m ∧ distinct a = distinct b := by
  constructor
  · intro h
    refine ⟨?_, (spaces_eq_iff (n := n) (m := m)).1 (by rw [h])⟩
    rw [← maxOrder_ofSeeds a n, ← maxOrder_ofSeeds b m, h]
  · rintro ⟨rfl, h⟩
    exact ofSeeds_congr h n

/-- What equality of two catalogues and of their parts means.  The catalogues are equal if the
orders and the first occurrences of the seeds are; the spaces, and likewise the spline spaces, if
the first occurrences of the seeds are.  Equal containers are made from equal tensor types, and
these show the order as soon as there is a seed on one of the two sides. -/
theorem equality_exact (a b : List Space) (n m : MaxOrder) :
    (ofSeeds a n = ofSeeds b m ↔ n = m ∧ distinct a = distinct b) ∧
    ((ofSeeds a n).spaces = (ofSeeds b m).spaces ↔ distinct a = distinct b) ∧
    ((ofSeeds a n).splines = (ofSeeds b m).splines ↔ distinct a = distinct b) ∧
    ((ofSeeds a n).containers = (ofSeeds b m).containers →
      (ofSeeds a n).tensors = (ofSeeds b m).tensors) ∧
    ((ofSeeds a n).tensors = (ofSeeds b m).tensors → a ≠ [] → b ≠ [] ∧ n = m) := by
  refine ⟨ofSeeds_eq_iff, spaces_eq_iff, splines_eq_iff, tensors_eq_of_containers_eq, ?_⟩
  intro h ha
  have hb := ne_nil_of_tensors_eq ha h
  exact ⟨hb, order_eq_of_tensors_eq ha hb h⟩

/-- Two lists of seeds with different copies of a vector field on a surface and a function on a
line.  Their catalogues are equal, and so are the tensor types in them; with another order not
even these are. -/
theorem equality_exact_copies :
    ofSeeds [⟨2, 1, 2, 1, .hDiv⟩, ⟨1, 0, 1, 1, .hGrad⟩, ⟨2, 1, 2, 1, .hDiv⟩] ⟨2⟩ =
        ofSeeds [⟨2, 1, 2, 1, .hDiv⟩, ⟨1, 0, 1, 1, .hGrad⟩, ⟨1, 0, 1, 1, .hGrad⟩] ⟨2⟩ ∧
      (ofSeeds [⟨2, 1, 2, 1, .hDiv⟩, ⟨1, 0, 1, 1, .hGrad⟩, ⟨2, 1, 2, 1, .hDiv⟩] ⟨2⟩).tensors =
        (ofSeeds [⟨2, 1, 2, 1, .hDiv⟩, ⟨1, 0, 1, 1, .hGrad⟩, ⟨1, 0, 1, 1, .hGrad⟩] ⟨2⟩).tensors ∧
      (ofSeeds [⟨2, 1, 2, 1, .hDiv⟩, ⟨1, 0, 1, 1, .hGrad⟩, ⟨2, 1, 2, 1, .hDiv⟩] ⟨2⟩).tensors ≠
        (ofSeeds [⟨2, 1, 2, 1, .hDiv⟩, ⟨1, 0, 1, 1, .hGrad⟩, ⟨1, 0, 1, 1, .hGrad⟩]
          ⟨1⟩).tensors := by
  have hdistinct :
      distinct [(⟨2, 1, 2, 1, .hDiv⟩ : Space), ⟨1, 0, 1, 1, .hGrad⟩, ⟨2, 1, 2, 1, .hDiv⟩] =
        distinct [⟨2, 1, 2, 1, .hDiv⟩, ⟨1, 0, 1, 1, .hGrad⟩, ⟨1, 0, 1, 1, .hGrad⟩] := by
    rw [distinct_eq_eraseDups, distinct_eq_eraseDups]
    decide
  obtain ⟨hcatalogue, -, -, htensors, -⟩ := equality_exact
    [⟨2, 1, 2, 1, .hDiv⟩, ⟨1, 0, 1, 1, .hGrad⟩, ⟨2, 1, 2, 1, .hDiv⟩]
    [⟨2, 1, 2, 1, .hDiv⟩, ⟨1, 0, 1, 1, .hGrad⟩, ⟨1, 0, 1, 1, .hGrad⟩] ⟨2⟩ ⟨2⟩
  obtain ⟨-, -, -, -, horder⟩ := equality_exact
    [⟨2, 1, 2, 1, .hDiv⟩, ⟨1, 0, 1, 1, .hGrad⟩, ⟨2, 1, 2, 1, .hDiv⟩]
    [⟨2, 1, 2, 1, .hDiv⟩, ⟨1, 0, 1, 1, .hGrad⟩, ⟨1, 0, 1, 1, .hGrad⟩] ⟨2⟩ ⟨1⟩
  have heq := hcatalogue.2 ⟨rfl, hdistinct⟩
  refine ⟨heq, htensors (congrArg containers heq), fun h => ?_⟩
  exact absurd (horder h (List.cons_ne_nil _ _)).2 (by decide)

end Catalogue

end InstanceTables

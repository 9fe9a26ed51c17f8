import InstanceTables.Proofs.Distinct
import InstanceTables.Spline.Table

/-!
# The enumeration of spline spaces

Spline spaces are listed kind by kind, each kind for every shape or row once; so the spaces of one
kind alone are those of the shapes or rows in their order.  A physical space shows the row it was
made from, so that the rows can be read off the table (`physicalSpaceTable_inj`).  The reference
rows of a closure, in their turn, are the shapes of its reference spaces in other words.
-/

namespace InstanceTables

variable {rows rows' : List Space}

/-- The row of the reference space of a shape. -/
def Shape.reference (f : Shape) : Space := ⟨f.dim, 0, f.range, f.rank, .hGrad⟩

theorem Shape.reference_injective : Function.Injective Shape.reference := by
  rintro ⟨d, r, k⟩ ⟨d', r', k'⟩ h
  simpa [Shape.reference] using h

/-- A row is forgotten in its reference row but for the shape of the reference functions. -/
theorem referenceRows_eq (rows : List Space) :
    referenceRows rows = (refShapeTable rows).map Shape.reference := by
  rw [refShapeTable, ← distinct_map_of_injective Shape.reference_injective, List.map_map]
  rfl

theorem refSpaceTable_eq (shapes : List Shape) :
    refSpaceTable shapes = SplineKind.all.flatMap fun k => (distinct shapes).map (⟨k, ·⟩) :=
  distinct_combinations (fun _ _ _ _ h => RefSpace.mk.inj h) (by decide) shapes

theorem refSpaceTable_distinct (shapes : List Shape) :
    refSpaceTable (distinct shapes) = refSpaceTable shapes := by
  rw [refSpaceTable_eq, refSpaceTable_eq, distinct_distinct]

/-- A physical space shows its kind and the row it is on. -/
theorem PhysicalSpace.ofSpace_injective2 : Function.Injective2 PhysicalSpace.ofSpace := by
  rintro k l ⟨d, c, r, q, t⟩ ⟨d', c', r', q', t'⟩ h
  simp only [ofSpace, Space.refShape, Space.pushForward, PhysicalSpace.mk.injEq, RefSpace.mk.injEq,
    Shape.mk.injEq, PushForward.mk.injEq] at h
  obtain ⟨⟨rfl, rfl, rfl, rfl⟩, rfl, -, rfl⟩ := h
  exact ⟨rfl, rfl⟩

theorem physicalSpaceTable_eq (rows : List Space) :
    physicalSpaceTable rows =
      SplineKind.all.flatMap fun k => (distinct rows).map (PhysicalSpace.ofSpace k) :=
  distinct_combinations PhysicalSpace.ofSpace_injective2 (by decide) rows

theorem length_refSpaceTable (shapes : List Shape) :
    (refSpaceTable shapes).length = 2 * (distinct shapes).length := by
  rw [refSpaceTable_eq]
  simp [SplineKind.all, Nat.two_mul]

theorem length_physicalSpaceTable (rows : List Space) :
    (physicalSpaceTable rows).length = 2 * (distinct rows).length := by
  rw [physicalSpaceTable_eq]
  simp [SplineKind.all, Nat.two_mul]

/-- The physical spaces of the first kind come in the order of the rows, and then those of the
second kind in the same order. -/
theorem getElem?_physicalSpaceTable (h : rows.Nodup) (i : Nat) :
    (physicalSpaceTable rows)[i]? =
      if i < rows.length then rows[i]?.map (PhysicalSpace.ofSpace .bspline)
      else rows[i - rows.length]?.map (PhysicalSpace.ofSpace .nurbs) := by
  rw [physicalSpaceTable_eq, distinct_of_nodup h, SplineKind.all, List.flatMap_cons,
    List.flatMap_singleton, List.getElem?_append, List.length_map, List.getElem?_map,
    List.getElem?_map]

theorem filter_kind_refSpaceTable (k : SplineKind) (shapes : List Shape) :
    (refSpaceTable shapes).filter (fun r => r.kind = k) = (distinct shapes).map (⟨k, ·⟩) := by
  rw [refSpaceTable_eq]
  exact filter_combinations (fun _ _ => rfl) (by decide) (SplineKind.mem_all k) _

theorem filter_kind_physicalSpaceTable (k : SplineKind) (rows : List Space) :
    (physicalSpaceTable rows).filter (fun p => p.refSpace.kind = k) =
      (distinct rows).map (PhysicalSpace.ofSpace k) := by
  rw [physicalSpaceTable_eq]
  exact filter_combinations (fun _ _ => rfl) (by decide) (SplineKind.mem_all k) _

/-- Shapes may be chosen before or after the reference spaces are made. -/
theorem refSpaceTable_filter (p : Shape → Bool) (shapes : List Shape) :
    refSpaceTable (shapes.filter p) = (refSpaceTable shapes).filter fun r => p r.shape := by
  rw [refSpaceTable_eq, refSpaceTable_eq, distinct_filter, List.filter_flatMap]
  apply List.flatMap_congr
  intro k _
  rw [List.filter_map]
  rfl

/-- The rows can be read off their physical spaces, but for the copies. -/
theorem physicalSpaceTable_inj :
    physicalSpaceTable rows = physicalSpaceTable rows' ↔ distinct rows = distinct rows' := by
  constructor
  · intro h
    have hbspline := congrArg (List.filter fun p => p.refSpace.kind = SplineKind.bspline) h
    rw [filter_kind_physicalSpaceTable, filter_kind_physicalSpaceTable] at hbspline
    exact List.map_injective_iff.2 (PhysicalSpace.ofSpace_injective2.right _) hbspline
  · intro h
    rw [physicalSpaceTable_eq, physicalSpaceTable_eq, h]

end InstanceTables

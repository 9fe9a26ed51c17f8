import InstanceTables.Proofs.Closure
import InstanceTables.Proofs.Membership
import InstanceTables.Proofs.Projection

/-!
# The tables of the user's rows

Some tables exist a second time, for the rows of the user alone.  These rows come first in the
closure, and each stage keeps what comes first: so the tables of the user's rows are the
beginnings of those of all rows.  Of spline spaces this is true for each kind, as the kinds come
one after the other.

The user's reference spaces exist a third time, for those of the rows whose range is at most
their dimension.  These are chosen among the rows, which is as good as choosing among the
entries of the table that is made from them.
-/

namespace InstanceTables.Catalogue

theorem prefix_all (seeds : List Space) (n : MaxOrder) :
    (ofSeeds seeds n).spaces.user <+: (ofSeeds seeds n).spaces.all := by
  have hall := joinRows_eq (nodup_distinct seeds) (Closure.nodup_face_build seeds)
  exact ⟨_, hall.symm⟩

theorem prefix_refShapes (seeds : List Space) (n : MaxOrder) :
    (ofSeeds seeds n).shapes.userRefShapes <+: (ofSeeds seeds n).shapes.refShapes :=
  (isProjection_refShapeTable _).isPrefix (isProjection_refShapeTable _) (prefix_all seeds n)

/-- The reference spaces of a kind, for shapes that come first among others. -/
theorem prefix_filter_kind_refSpaceTable {shapes shapes' : List Shape} (h : shapes <+: shapes')
    (k : SplineKind) :
    (refSpaceTable shapes).filter (fun r => r.kind = k) <+:
      (refSpaceTable shapes').filter (fun r => r.kind = k) := by
  rw [filter_kind_refSpaceTable, filter_kind_refSpaceTable]
  exact (prefix_distinct h).map _

theorem prefix_filter_kind_physicalSpaceTable {rows rows' : List Space} (h : rows <+: rows')
    (k : SplineKind) :
    (physicalSpaceTable rows).filter (fun p => p.refSpace.kind = k) <+:
      (physicalSpaceTable rows').filter (fun p => p.refSpace.kind = k) := by
  rw [filter_kind_physicalSpaceTable, filter_kind_physicalSpaceTable]
  exact (prefix_distinct h).map _

/-- Choosing among the user's rows comes to choosing among their shapes. -/
theorem filteredRefShapes_eq (seeds : List Space) (n : MaxOrder) :
    (ofSeeds seeds n).shapes.filteredRefShapes =
      (ofSeeds seeds n).shapes.userRefShapes.filter fun f => ¬ f.dim < f.range := by
  have hchosen := (isProjection_refShapeTable (ofSeeds seeds n).spaces.user).filter
    fun f => ¬ f.dim < f.range
  have hrows : ((ofSeeds seeds n).spaces.user.filter fun s => ¬ s.refShape.dim < s.refShape.range) =
      (ofSeeds seeds n).spaces.user.filter fun s => s.range ≤ s.dim :=
    List.filter_congr fun s _ => decide_eq_decide.2 UInt32.not_lt
  rw [hrows] at hchosen
  exact (isProjection_refShapeTable _).unique hchosen

/-- The tables of the user's rows are the beginnings of the tables of all rows, those of spline
spaces kind by kind.  The reference spaces that are left when a spline mapping is to be built are
those of the user whose range is at most their dimension, in the same order. -/
theorem user_views (seeds : List Space) (n : MaxOrder) :
    (ofSeeds seeds n).spaces.user <+: (ofSeeds seeds n).spaces.all ∧
    (ofSeeds seeds n).spaces.userDims <+: (ofSeeds seeds n).spaces.dims ∧
    (ofSeeds seeds n).shapes.userMappings <+: (ofSeeds seeds n).shapes.mappings ∧
    (ofSeeds seeds n).shapes.userRefShapes <+: (ofSeeds seeds n).shapes.refShapes ∧
    (∀ k, (ofSeeds seeds n).splines.userRefSpaces.filter (fun r => r.kind = k) <+:
      (ofSeeds seeds n).splines.refSpaces.filter fun r => r.kind = k) ∧
    (∀ k, (ofSeeds seeds n).splines.userPhysicalSpaces.filter (fun p => p.refSpace.kind = k) <+:
      (ofSeeds seeds n).splines.physicalSpaces.filter fun p => p.refSpace.kind = k) ∧
    (ofSeeds seeds n).shapes.filteredRefShapes =
      (ofSeeds seeds n).shapes.userRefShapes.filter (fun f => ¬ f.dim < f.range) ∧
    (ofSeeds seeds n).splines.filteredRefSpaces =
      (ofSeeds seeds n).splines.userRefSpaces.filter fun r => ¬ r.shape.dim < r.shape.range := by
  have hall := prefix_all seeds n
  refine ⟨hall, ?_, ?_, prefix_refShapes seeds n, fun k => ?_, fun k => ?_,
    filteredRefShapes_eq seeds n, ?_⟩
  · exact (isProjection_dimensions _).isPrefix (isProjection_dimensions _) hall
  · exact (isProjection_mappingTable _).isPrefix (isProjection_mappingTable _) hall
  · exact prefix_filter_kind_refSpaceTable (prefix_refShapes seeds n) k
  · exact prefix_filter_kind_physicalSpaceTable hall k
  · change refSpaceTable (ofSeeds seeds n).shapes.filteredRefShapes = _
    rw [filteredRefShapes_eq, refSpaceTable_filter]
    rfl

end InstanceTables.Catalogue

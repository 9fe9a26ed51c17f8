import InstanceTables.Proofs.Membership
import InstanceTables.Proofs.Projection

/-!
# The tables of a catalogue as projections

Which tables of a catalogue are projections of which others, order included.  All of them are made
from the rows of the closure, in modules that do not know of each other, and through different
tables in between; that they agree is the law of projections in two steps
(`IsProjection.of_comp`).

The physical spaces are the table that shows most.  They come kind by kind, each kind on every row
of the closure, and the reference spaces, the push-forwards and with these the mappings are their
projections.  The dimensions of the domains can be read off any of these tables.
-/

namespace InstanceTables.Catalogue

variable {seeds : List Space} {n : MaxOrder}

theorem nodup_all (seeds : List Space) (n : MaxOrder) : (ofSeeds seeds n).spaces.all.Nodup :=
  nodup_distinct _

/-- Each row of the closure stands for a physical space of either kind. -/
theorem length_physicalSpaces :
    (ofSeeds seeds n).splines.physicalSpaces.length = 2 * (ofSeeds seeds n).spaces.all.length := by
  rw [splines_ofSeeds]
  exact (length_physicalSpaceTable _).trans (by rw [distinct_of_nodup (nodup_all seeds n)])

/-- The reference rows are those of the shapes of the reference spaces, one for one. -/
theorem extended_eq :
    (ofSeeds seeds n).spaces.extended =
      (ofSeeds seeds n).shapes.refShapes.map Shape.reference :=
  referenceRows_eq _

/-- The spline spaces are products and projections of each other.  The physical spaces are those of
the first kind on the rows of the closure and then those of the second kind, in the order of the
rows, and different rows have different physical spaces.  The reference spaces and the
push-forwards are what the physical spaces show, and the mappings are what the push-forwards
show. -/
theorem splines_exact (seeds : List Space) (n : MaxOrder) :
    (ofSeeds seeds n).splines.physicalSpaces.length = 2 * (ofSeeds seeds n).spaces.all.length ∧
    (∀ i, (ofSeeds seeds n).splines.physicalSpaces[i]? =
      if i < (ofSeeds seeds n).spaces.all.length then
        (ofSeeds seeds n).spaces.all[i]?.map (PhysicalSpace.ofSpace .bspline)
      else
        (ofSeeds seeds n).spaces.all[i - (ofSeeds seeds n).spaces.all.length]?.map
          (PhysicalSpace.ofSpace .nurbs)) ∧
    (∀ s ∈ (ofSeeds seeds n).spaces.all, ∀ s' ∈ (ofSeeds seeds n).spaces.all, ∀ k k',
      PhysicalSpace.ofSpace k s = PhysicalSpace.ofSpace k' s' → s = s') ∧
    IsProjection PhysicalSpace.refSpace (ofSeeds seeds n).splines.physicalSpaces
      (ofSeeds seeds n).splines.refSpaces ∧
    IsProjection PhysicalSpace.pushForward (ofSeeds seeds n).splines.physicalSpaces
      (ofSeeds seeds n).splines.pushForwards ∧
    IsProjection PushForward.mapping (ofSeeds seeds n).splines.pushForwards
      (ofSeeds seeds n).shapes.mappings := by
  refine ⟨length_physicalSpaces, getElem?_physicalSpaceTable (nodup_all seeds n), ?_, ?_, ?_, ?_⟩
  · intro s _ s' _ k k' h
    exact (PhysicalSpace.ofSpace_injective2 h).2
  · exact isProjection_refSpace_physicalSpaceTable _
  · exact isProjection_pushForward_physicalSpaceTable _
  · exact isProjection_mapping_pushForwardTable _

/-- All ways to the dimensions of the domains agree, and so do those to the reference spaces.  The
dimensions are what the containers, the reference rows, the mappings, the shapes of the reference
spaces and the push-forwards show.  The reference rows are the rows of these shapes, entry by
entry, and are their own reference rows. -/
theorem dims_agree (seeds : List Space) (n : MaxOrder) :
    (ofSeeds seeds n).containers.dims = (ofSeeds seeds n).spaces.dims ∧
    IsProjection Space.dim (ofSeeds seeds n).spaces.extended (ofSeeds seeds n).spaces.dims ∧
    IsProjection Mapping.dim (ofSeeds seeds n).shapes.mappings (ofSeeds seeds n).spaces.dims ∧
    IsProjection Shape.dim (ofSeeds seeds n).shapes.refShapes (ofSeeds seeds n).spaces.dims ∧
    IsProjection PushForward.dim (ofSeeds seeds n).splines.pushForwards
      (ofSeeds seeds n).spaces.dims ∧
    (ofSeeds seeds n).spaces.extended =
      (ofSeeds seeds n).shapes.refShapes.map (fun f => ⟨f.dim, 0, f.range, f.rank, .hGrad⟩) ∧
    (ofSeeds seeds n).spaces.extended.Nodup ∧
    (ofSeeds seeds n).spaces.extended.length = (ofSeeds seeds n).shapes.refShapes.length ∧
    referenceRows (ofSeeds seeds n).spaces.extended = (ofSeeds seeds n).spaces.extended := by
  have hdims := isProjection_dimensions (ofSeeds seeds n).spaces.all
  refine ⟨rfl, ?_, ?_, ?_, ?_, extended_eq, nodup_distinct _, ?_, ?_⟩
  · exact (isProjection_referenceRows _).of_comp hdims fun _ => rfl
  · exact (isProjection_mappingTable _).of_comp hdims fun _ => rfl
  · exact (isProjection_refShapeTable _).of_comp hdims fun _ => rfl
  · exact (isProjection_pushForwardTable _).of_comp hdims fun _ => rfl
  · rw [extended_eq, List.length_map]
  · exact referenceRows_referenceRows _

end InstanceTables.Catalogue

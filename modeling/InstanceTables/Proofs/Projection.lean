import InstanceTables.Proofs.Spline.Enumeration

/-!
# Tables as projections

A table is a projection of some rows if it lists what the rows show of themselves, each thing
once and in order of first occurrence.  Most tables of this library are made as projections of
the rows of a closure.

What holds of all of them follows from `IsProjection.of_comp`.  If `g` can be read off what `f`
shows of a row, then it does not matter whether `g` is read off the rows themselves or off their
projection by `f`: the copies that have been lost in between would have been lost anyway.  So
tables that are made from the same rows are projections of each other.
-/

namespace InstanceTables

variable {α β : Type} [DecidableEq β]

/-- The list `m` holds what `f` gives on `l`, each once and in order of first occurrence. -/
def IsProjection (f : α → β) (l : List α) (m : List β) : Prop := (l.map f).eraseDups = m

instance (f : α → β) (l : List α) (m : List β) : Decidable (IsProjection f l m) :=
  inferInstanceAs (Decidable (_ = _))

example : IsProjection Shape.dim [⟨2, 3, 1⟩, ⟨1, 1, 1⟩, ⟨2, 1, 1⟩] [2, 1] := by decide

namespace IsProjection

variable {f : α → β} {l l' : List α} {m m' : List β}

theorem unique (h : IsProjection f l m) (h' : IsProjection f l m') : m = m' :=
  h.symm.trans h'

variable [Hashable β]

theorem iff_distinct : IsProjection f l m ↔ m = distinct (l.map f) := by
  rw [distinct_eq_eraseDups]
  exact eq_comm

theorem distinct_map (f : α → β) (l : List α) : IsProjection f l (distinct (l.map f)) :=
  iff_distinct.2 rfl

/-- What can be read off a projection gives the same there as on the list itself. -/
theorem of_comp {γ : Type} [DecidableEq γ] [Hashable γ] {g : β → γ} {g' : α → γ} {k : List γ}
    (h : IsProjection f l m) (h' : IsProjection g' l k) (hg : ∀ a, g (f a) = g' a) :
    IsProjection g m k := by
  obtain rfl := iff_distinct.1 h
  obtain rfl := iff_distinct.1 h'
  have hcomp : (l.map f).map g = l.map g' := by
    rw [List.map_map]
    exact List.map_congr_left fun a _ => hg a
  rw [iff_distinct, distinct_map_distinct, hcomp]

/-- What comes first in a list comes first in its projection. -/
theorem isPrefix (h : IsProjection f l m) (h' : IsProjection f l' m') (hl : l <+: l') :
    m <+: m' := by
  obtain rfl := iff_distinct.1 h
  obtain rfl := iff_distinct.1 h'
  exact prefix_distinct (hl.map f)

/-- A choice by what `f` gives may be made before the projection or after it. -/
theorem filter (h : IsProjection f l m) (p : β → Bool) :
    IsProjection f (l.filter fun a => p (f a)) (m.filter p) := by
  obtain rfl := iff_distinct.1 h
  rw [iff_distinct, ← distinct_filter, List.filter_map]
  rfl

end IsProjection

theorem isProjection_dimensions (rows : List Space) :
    IsProjection Space.dim rows (dimensions rows) :=
  .distinct_map _ _

theorem isProjection_referenceRows (rows : List Space) :
    IsProjection Space.reference rows (referenceRows rows) :=
  .distinct_map _ _

theorem isProjection_mappingTable (rows : List Space) :
    IsProjection Space.mapping rows (mappingTable rows) :=
  .distinct_map _ _

theorem isProjection_refShapeTable (rows : List Space) :
    IsProjection Space.refShape rows (refShapeTable rows) :=
  .distinct_map _ _

theorem isProjection_pushForwardTable (rows : List Space) :
    IsProjection Space.pushForward rows (pushForwardTable rows) :=
  .distinct_map _ _

/-- Reference rows have nothing more to forget. -/
theorem referenceRows_referenceRows (rows : List Space) :
    referenceRows (referenceRows rows) = referenceRows rows := by
  have h := isProjection_referenceRows rows
  apply (isProjection_referenceRows (referenceRows rows)).unique
  exact h.of_comp h fun _ => rfl

/-! ## Spline spaces -/

def PushForward.mapping (p : PushForward) : Mapping := ⟨p.dim, p.codim⟩

theorem isProjection_mapping_pushForwardTable (rows : List Space) :
    IsProjection PushForward.mapping (pushForwardTable rows) (mappingTable rows) :=
  (isProjection_pushForwardTable rows).of_comp (isProjection_mappingTable rows) fun _ => rfl

/-- Both kinds of physical spaces show the push-forwards of the rows. -/
theorem isProjection_pushForward_physicalSpaceTable (rows : List Space) :
    IsProjection PhysicalSpace.pushForward (physicalSpaceTable rows) (pushForwardTable rows) := by
  have hkinds : (SplineKind.all.flatMap fun k =>
      (rows.map (PhysicalSpace.ofSpace k)).map PhysicalSpace.pushForward) =
        rows.map Space.pushForward ++ rows.map Space.pushForward := by
    rw [SplineKind.all, List.flatMap_cons, List.flatMap_singleton, List.map_map, List.map_map]
    rfl
  rw [IsProjection.iff_distinct, physicalSpaceTable, distinct_map_distinct, List.map_flatMap,
    hkinds, distinct_append_of_subset (List.Subset.refl _)]
  rfl

/-- The reference spaces of physical spaces are those of the shapes of the rows. -/
theorem isProjection_refSpace_physicalSpaceTable (rows : List Space) :
    IsProjection PhysicalSpace.refSpace (physicalSpaceTable rows)
      (refSpaceTable (refShapeTable rows)) := by
  rw [IsProjection.iff_distinct, physicalSpaceTable, distinct_map_distinct, List.map_flatMap,
    refShapeTable, refSpaceTable_distinct, refSpaceTable]
  simp only [List.map_map]
  rfl

end InstanceTables

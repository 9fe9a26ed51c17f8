import InstanceTables.Proofs.Closure
import Mathlib.Data.Nat.Basic
import Mathlib.Order.Basic

/-!
# Faces of faces

A row has a face as long as it is no point, so that faces can be taken as often as the row has
dimensions.  Each step moves one dimension over to the codimension (`Space.HasIteratedFace`), and
the sum of the two stays what it was.  Therefore no step leaves the words if the row itself fits,
and the functions on the surrounding space keep their shape whichever the transformation is.

The rows of a chain of faces differ in their dimensions.
-/

namespace InstanceTables

namespace Space

/-- The row that taking the face `k` times leads to. -/
def iteratedFace? : (k : Nat) → Space → Option Space
  | 0, s => some s
  | k + 1, s => s.face?.bind (iteratedFace? k)

/-- The row `t` is what taking the face `k` times makes of `s`, in exact numbers. -/
structure HasIteratedFace (s : Space) (k : Nat) (t : Space) : Prop where
  dim : t.dim.toNat + k = s.dim.toNat
  codim : t.codim.toNat = s.codim.toNat + k
  range : t.range = s.range
  rank : t.rank = s.rank
  transformation : t.transformation = s.transformation

variable {s t t' r : Space} {k : Nat}

theorem HasIteratedFace.refl (s : Space) : s.HasIteratedFace 0 s := ⟨rfl, rfl, rfl, rfl, rfl⟩

theorem HasFace.iterated (h : s.HasFace r) (ht : r.HasIteratedFace k t) :
    s.HasIteratedFace (k + 1) t where
  dim := by rw [← Nat.add_assoc, ht.dim, h.dim]
  codim := by rw [ht.codim, h.codim, Nat.add_right_comm, Nat.add_assoc]
  range := ht.range.trans h.range
  rank := ht.rank.trans h.rank
  transformation := ht.transformation.trans h.transformation

/-- A row that is no point has a face, and that has one dimension less. -/
theorem exists_hasFace (h : s.Fits) (hdim : 0 < s.dim.toNat) :
    ∃ r, s.face? = some r ∧ s.HasFace r := by
  have hne : s.dim ≠ 0 := by
    intro h0
    rw [h0] at hdim
    exact Nat.lt_irrefl _ hdim
  have hface := face?_eq_some_iff.2 ⟨hne, rfl⟩
  exact ⟨_, hface, hasFace_of_face? h hface⟩

theorem iteratedFace?_succ (h : s.face? = some r) (k : Nat) :
    iteratedFace? (k + 1) s = iteratedFace? k r := by
  rw [iteratedFace?, h, Option.bind_some]

theorem iteratedFace?_succ_eq_some_iff :
    iteratedFace? (k + 1) s = some t ↔ ∃ r, s.face? = some r ∧ iteratedFace? k r = some t :=
  Option.bind_eq_some_iff

/-- In a row that fits, faces can be taken as often as it has dimensions. -/
theorem exists_hasIteratedFace (h : s.Fits) (hk : k ≤ s.dim.toNat) :
    ∃ t, iteratedFace? k s = some t ∧ s.HasIteratedFace k t := by
  induction k generalizing s with
  | zero => exact ⟨s, rfl, .refl s⟩
  | succ k ih =>
    obtain ⟨r, hface, hr⟩ := exists_hasFace h (Nat.zero_lt_of_lt hk)
    have hdim := hr.dim
    obtain ⟨t, ht, hrt⟩ := ih (h.face hface) (by omega)
    exact ⟨t, (iteratedFace?_succ hface k).trans ht, hr.iterated hrt⟩

/-- They cannot be taken more often. -/
theorem iteratedFace?_of_lt (h : s.Fits) (hk : s.dim.toNat < k) : iteratedFace? k s = none := by
  induction k generalizing s with
  | zero => exact absurd hk (Nat.not_lt_zero _)
  | succ k ih =>
    rw [iteratedFace?]
    cases hface : s.face? with
    | none => rfl
    | some r =>
      have hdim := (hasFace_of_face? h hface).dim
      exact ih (h.face hface) (by omega)

theorem isSome_iteratedFace?_iff (h : s.Fits) : (iteratedFace? k s).isSome ↔ k ≤ s.dim.toNat := by
  constructor
  · intro hsome
    by_contra hk
    rw [iteratedFace?_of_lt h (Nat.lt_of_not_le hk)] at hsome
    exact Bool.false_ne_true hsome
  · intro hk
    obtain ⟨t, ht, -⟩ := exists_hasIteratedFace h hk
    rw [ht, Option.isSome_some]

/-- Faces lie in the same surrounding space, even those of a row that does not fit. -/
theorem spaceDim_of_iteratedFace? (ht : iteratedFace? k s = some t) : t.spaceDim = s.spaceDim := by
  induction k generalizing s with
  | zero => rw [Option.some.inj ht]
  | succ k ih =>
    obtain ⟨r, hface, hr⟩ := iteratedFace?_succ_eq_some_iff.1 ht
    rw [ih hr, spaceDim_of_face? hface]

theorem hasIteratedFace_of_eq_some (h : s.Fits) (ht : iteratedFace? k s = some t) :
    s.HasIteratedFace k t := by
  have hk := (isSome_iteratedFace?_iff h).1 (by rw [ht, Option.isSome_some])
  obtain ⟨t', ht', hst⟩ := exists_hasIteratedFace h hk
  rw [ht, Option.some.injEq] at ht'
  exact ht' ▸ hst

namespace HasIteratedFace

/-- The numbers of the row that faces lead to are words. -/
theorem fits (ht : s.HasIteratedFace k t) (h : s.Fits) : t.Fits := by
  have hdim := ht.dim
  have hcodim := ht.codim
  rw [Fits] at h ⊢
  omega

theorem reference_eq (ht : s.HasIteratedFace k t) :
    t.reference = ⟨t.dim, 0, s.range, s.rank, .hGrad⟩ := by
  rw [reference, ht.range, ht.rank]

end HasIteratedFace

/-- Faces need no new shape of functions on the surrounding space. -/
theorem physicalShape_of_iteratedFace? (h : s.Fits) (ht : iteratedFace? k s = some t) :
    t.physicalShape = s.physicalShape := by
  have hst := hasIteratedFace_of_eq_some h ht
  simp only [physicalShape, physicalRange, physicalRank, spaceDim_of_iteratedFace? ht, hst.range,
    hst.rank, hst.transformation]

/-! ## Chains -/

/-- A chain lists the row and what faces lead to, up to its limit. -/
theorem getElem?_faceChain (limit k : Nat) (s : Space) :
    (faceChain limit s)[k]? = if k < limit then iteratedFace? k s else none := by
  induction limit generalizing k s with
  | zero => simp [faceChain]
  | succ limit ih =>
    cases k with
    | zero => rfl
    | succ k =>
      rw [faceChain, List.getElem?_cons_succ, iteratedFace?]
      cases s.face? with
      | none => simp
      | some r => simpa using ih k r

theorem length_faceChain (h : s.Fits) (limit : Nat) :
    (faceChain limit s).length = min limit (s.dim.toNat + 1) := by
  refine eq_of_forall_lt_iff fun k => ?_
  have hentry : k < (faceChain limit s).length ↔ ((faceChain limit s)[k]?).isSome := by simp
  rw [hentry, getElem?_faceChain, Nat.lt_min, Nat.lt_succ_iff, ← isSome_iteratedFace?_iff h]
  by_cases hk : k < limit <;> simp [hk]

/-- No row comes up twice, for each has one dimension less than the one before it. -/
theorem nodup_faceChain (h : s.Fits) (limit : Nat) : (faceChain limit s).Nodup := by
  rw [List.nodup_iff_getElem?_ne_getElem?]
  intro i j hij hj heq
  rw [length_faceChain h, Nat.lt_min] at hj
  obtain ⟨hjlimit, hjdim⟩ := hj
  rw [getElem?_faceChain, getElem?_faceChain, if_pos (Nat.lt_trans hij hjlimit),
    if_pos hjlimit] at heq
  obtain ⟨t, ht, hst⟩ := exists_hasIteratedFace h (Nat.le_of_lt_succ hjdim)
  have hdim := hst.dim
  have hdim' := (hasIteratedFace_of_eq_some h (heq.trans ht)).dim
  omega

/-- Faces of a row that fits, in exact numbers.  They can be taken as often as the row has
dimensions.  Each of them fits, has functions of the same shape on the surrounding space, and
comes from the reference space of its own dimension.  The chain of all of them has one row more
than the row has dimensions, and no row twice. -/
theorem faces_exact (s : Space) (h : s.Fits) :
    (∀ k, (iteratedFace? k s).isSome ↔ k ≤ s.dim.toNat) ∧
      (∀ k t, iteratedFace? k s = some t → s.HasIteratedFace k t ∧ t.Fits ∧
        t.physicalShape = s.physicalShape ∧
        t.reference = ⟨t.dim, 0, s.range, s.rank, .hGrad⟩) ∧
      ∀ limit, s.dim.toNat < limit → (faceChain limit s).length = s.dim.toNat + 1 ∧
        (faceChain limit s).Nodup ∧ ∀ k : Nat, (faceChain limit s)[k]? = iteratedFace? k s := by
  refine ⟨fun k => isSome_iteratedFace?_iff h, fun k t ht => ?_, fun limit hlimit => ?_⟩
  · have hst := hasIteratedFace_of_eq_some h ht
    exact ⟨hst, hst.fits h, physicalShape_of_iteratedFace? h ht, hst.reference_eq⟩
  · refine ⟨?_, nodup_faceChain h limit, fun k => ?_⟩
    · rw [length_faceChain h, Nat.min_eq_right hlimit]
    · rw [getElem?_faceChain]
      split
      · rfl
      · exact (iteratedFace?_of_lt h (by omega)).symm

/-- A row whose sum of dimensions is the last word, and the point that its faces end with. -/
theorem faces_exact_last :
    Fits ⟨3, 4294967292, 2, 1, .hDiv⟩ ∧
      iteratedFace? 3 ⟨3, 4294967292, 2, 1, .hDiv⟩ = some ⟨0, 4294967295, 2, 1, .hDiv⟩ ∧
      physicalShape ⟨0, 4294967295, 2, 1, .hDiv⟩ = ⟨4294967295, 4294967295, 1⟩ ∧
      reference ⟨0, 4294967295, 2, 1, .hDiv⟩ = ⟨0, 0, 2, 1, .hGrad⟩ ∧
      ¬ (iteratedFace? 4 ⟨3, 4294967292, 2, 1, .hDiv⟩).isSome ∧
      (faceChain 64 ⟨3, 4294967292, 2, 1, .hDiv⟩).length = 4 := by
  have hfits : Fits ⟨3, 4294967292, 2, 1, .hDiv⟩ := by decide
  have hpoint : iteratedFace? 3 ⟨3, 4294967292, 2, 1, .hDiv⟩ =
      some ⟨0, 4294967295, 2, 1, .hDiv⟩ := by
    decide
  obtain ⟨hsome, hface, hchain⟩ := faces_exact ⟨3, 4294967292, 2, 1, .hDiv⟩ hfits
  obtain ⟨-, -, hshape, hreference⟩ := hface 3 _ hpoint
  refine ⟨hfits, hpoint, hshape, hreference, ?_, (hchain 64 (by decide)).1⟩
  rw [hsome]
  decide

end Space

end InstanceTables

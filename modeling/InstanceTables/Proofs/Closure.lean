import InstanceTables.Closure
import InstanceTables.Proofs.Distinct
import Mathlib.Data.List.Forall2

/-!
# The closure of the seeds

What the tables of spaces hold and in which order, as the structure `Closure.Closes` says it.
A face shows the row that it belongs to, so that different rows have different faces.  Therefore
nothing is lost when the faces of the user's rows are collected, and they stand in the order of
these rows.

A face may be a row of the user's as well, and so may the face of that in turn.  Such faces are
the only entries that are left out when the rows and their faces are joined.
-/

namespace InstanceTables

variable {rows other seeds : List Space}

/-! ## Faces -/

namespace Space

/-- The row `t` is the face of `s`, in exact numbers. -/
structure HasFace (s t : Space) : Prop where
  dim : t.dim.toNat + 1 = s.dim.toNat
  codim : t.codim.toNat = s.codim.toNat + 1
  range : t.range = s.range
  rank : t.rank = s.rank
  transformation : t.transformation = s.transformation

variable {s s' t : Space}

theorem hasFace_of_face? (h : s.Fits) (ht : s.face? = some t) : s.HasFace t := by
  obtain ⟨hdim, hcodim, hpos⟩ := h.toNat_face ht
  obtain ⟨-, rfl⟩ := face?_eq_some_iff.1 ht
  exact ⟨by omega, hcodim, rfl, rfl, rfl⟩

/-- In a row that fits, the numbers of the face are exact. -/
theorem hasFace_iff (h : s.Fits) : s.HasFace t ↔ s.face? = some t := by
  constructor
  · rintro ⟨hdim, hcodim, hrange, hrank, htransformation⟩
    have hpos : s.dim ≠ 0 := by
      intro h0
      rw [h0] at hdim
      exact absurd hdim (Nat.succ_ne_zero _)
    have hface := face?_eq_some_iff.2 ⟨hpos, rfl⟩
    obtain ⟨hdim', hcodim', -⟩ := h.toNat_face hface
    rw [hface]
    cases t
    rw [Option.some.injEq, mk.injEq]
    refine ⟨UInt32.toNat_inj.1 ?_, UInt32.toNat_inj.1 ?_, hrange.symm, hrank.symm,
      htransformation.symm⟩
    · rw [hdim', ← hdim, Nat.add_sub_cancel]
    · rw [hcodim', hcodim]
  · exact hasFace_of_face? h

/-- A face shows the row that it belongs to. -/
theorem eq_of_face?_eq (h : s.face? = some t) (h' : s'.face? = some t) : s = s' := by
  obtain ⟨-, rfl⟩ := face?_eq_some_iff.1 h
  obtain ⟨-, heq⟩ := face?_eq_some_iff.1 h'
  cases s
  cases s'
  simp only [mk.injEq, UInt32.sub_left_inj, UInt32.add_left_inj] at heq
  rw [mk.injEq]
  exact heq

end Space

/-- Different rows have different faces, so that none is lost. -/
theorem faceRows_eq (h : rows.Nodup) : (faceRows rows).value = rows.filterMap Space.face? := by
  apply distinct_of_nodup
  exact h.filterMap fun _ _ _ ha ha' => Space.eq_of_face?_eq ha ha'

/-- A row that has no face is logged. -/
theorem length_faceRows (h : rows.Nodup) :
    (faceRows rows).events.length + (faceRows rows).value.length = rows.length := by
  have hevents : (faceRows rows).events.length = rows.countP (·.dim = 0) := by
    rw [faceRows, List.length_map, List.countP_eq_length_filter]
  have hvalue : (faceRows rows).value.length = rows.countP fun s => ¬ decide (s.dim = 0) := by
    rw [faceRows_eq h, List.length_filterMap_eq_countP]
    refine List.countP_congr fun s _ => ?_
    by_cases hdim : s.dim = 0 <;> simp [Space.face?, hdim]
  rw [hevents, hvalue]
  exact (List.length_eq_countP_add_countP _).symm

/-- The rows that are no points and the faces correspond, entry by entry. -/
theorem forall₂_hasFace (h : ∀ s ∈ rows, s.Fits) :
    List.Forall₂ Space.HasFace (rows.filter fun s => 0 < s.dim)
      (rows.filterMap Space.face?) := by
  induction rows with
  | nil => exact .nil
  | cons s rows ih =>
    have hrows := ih fun r hr => h r (List.mem_cons_of_mem _ hr)
    by_cases hdim : s.dim = 0
    · rw [List.filter_cons_of_neg (by simp [hdim]),
        List.filterMap_cons_none (Space.face?_eq_none_iff.2 hdim)]
      exact hrows
    · have hface := Space.face?_eq_some_iff.2 ⟨hdim, rfl⟩
      rw [List.filter_cons_of_pos (by simpa using UInt32.pos_iff_ne_zero.2 hdim),
        List.filterMap_cons_some hface]
      exact .cons (Space.hasFace_of_face? (h s List.mem_cons_self) hface) hrows

theorem joinRows_eq (h : rows.Nodup) (h' : other.Nodup) :
    joinRows rows other = rows ++ other.filter fun s => s ∉ rows :=
  distinct_append_of_nodup h h'

theorem length_joinRows (h : rows.Nodup) (h' : other.Nodup) :
    (joinRows rows other).length + rows.countP (· ∈ other) = rows.length + other.length :=
  length_distinct_append_of_nodup h h'

/-! ## The tables -/

namespace Closure

/-- The tables hold the closure of the seeds, in this order. -/
structure Closes (t : Closure) (seeds : List Space) : Prop where
  /-- The seeds, without later copies. -/
  user_eq : t.user = seeds.eraseDups
  /-- The face of each of the user's rows that is no point, in the order of these. -/
  forall₂_face : List.Forall₂ Space.HasFace (t.user.filter fun s => 0 < s.dim) t.face
  /-- No two rows of the user share a face. -/
  hasFace_inj : ∀ s ∈ t.user, ∀ s' ∈ t.user, ∀ f, s.HasFace f → s'.HasFace f → s = s'
  length_face : t.face.length + t.user.countP (·.dim = 0) = t.user.length
  all_eq : t.all = t.user ++ t.face.filter fun s => s ∉ t.user
  mem_all_iff : ∀ s, s ∈ t.all ↔ s ∈ seeds ∨ ∃ r ∈ seeds, r.HasFace s
  length_all : t.all.length + t.user.countP (· ∈ t.face) = t.user.length + t.face.length
  /-- The reference rows of all spaces, each once. -/
  extended_eq : t.extended =
    (t.all.map fun s => ⟨s.dim, 0, s.range, s.rank, .hGrad⟩).eraseDups
  pushForwardRows_eq : t.pushForwardRows = t.all ++ t.extended.filter fun s => s ∉ t.all

theorem user_build (seeds : List Space) : (build seeds).value.user = distinct seeds := rfl

/-- There is a row of the user's as soon as there is a seed. -/
theorem isEmpty_build_iff : (build seeds).value.isEmpty ↔ seeds = [] := by
  rw [isEmpty, List.isEmpty_iff, user_build, distinct_eq_nil_iff]

theorem face_build (seeds : List Space) :
    (build seeds).value.face = (distinct seeds).filterMap Space.face? :=
  faceRows_eq (nodup_distinct seeds)

theorem all_build (seeds : List Space) :
    (build seeds).value.all =
      joinRows (build seeds).value.user (build seeds).value.face :=
  rfl

theorem nodup_face_build (seeds : List Space) : (build seeds).value.face.Nodup :=
  nodup_distinct _

/-- The faces and the points among the user's rows make up all of these. -/
theorem length_face_build (h : ∀ s ∈ seeds, s.Fits) :
    (build seeds).value.face.length + (distinct seeds).countP (·.dim = 0) =
      (distinct seeds).length := by
  have hlength := (forall₂_hasFace fun s hs => h s (mem_distinct.1 hs)).length_eq
  have hsplit := List.length_eq_countP_add_countP (fun s : Space => decide (s.dim = 0))
    (l := distinct seeds)
  have hpoints : (distinct seeds).countP (fun s => ¬ decide (s.dim = 0)) =
      ((distinct seeds).filter fun s => 0 < s.dim).length := by
    rw [List.countP_eq_length_filter]
    refine congrArg _ (List.filter_congr fun s _ => ?_)
    simp [UInt32.pos_iff_ne_zero]
  rw [face_build, ← hlength, ← hpoints]
  omega

theorem mem_all_build_iff (h : ∀ s ∈ seeds, s.Fits) (s : Space) :
    s ∈ (build seeds).value.all ↔ s ∈ seeds ∨ ∃ r ∈ seeds, r.HasFace s := by
  rw [all_build, joinRows, mem_distinct, List.mem_append, user_build, face_build,
    mem_distinct, List.mem_filterMap]
  apply or_congr_right
  apply exists_congr
  intro r
  rw [mem_distinct]
  exact and_congr_right fun hr => (Space.hasFace_iff (h r hr)).symm

/-- The shape of the closure of seeds that fit.  The user's rows are the seeds, each once; the
faces are those of the user's rows, and none is lost; all spaces are the user's rows, then the
faces that are no rows of the user; and the rows with push-forwards are all spaces, then the
reference rows that are not among them. -/
theorem closes_build (seeds : List Space) (h : ∀ s ∈ seeds, s.Fits) :
    (build seeds).value.Closes seeds where
  user_eq := distinct_eq_eraseDups seeds
  forall₂_face := by
    rw [face_build]
    exact forall₂_hasFace fun s hs => h s (mem_distinct.1 hs)
  hasFace_inj := by
    intro s hs s' hs' f hf hf'
    rw [Space.hasFace_iff (h s (mem_distinct.1 hs))] at hf
    rw [Space.hasFace_iff (h s' (mem_distinct.1 hs'))] at hf'
    exact Space.eq_of_face?_eq hf hf'
  length_face := length_face_build h
  all_eq := joinRows_eq (nodup_distinct seeds) (nodup_face_build seeds)
  mem_all_iff := mem_all_build_iff h
  length_all := length_joinRows (nodup_distinct seeds) (nodup_face_build seeds)
  extended_eq := distinct_eq_eraseDups _
  pushForwardRows_eq := joinRows_eq (nodup_distinct _) (nodup_distinct _)

/-- A surface, twice, a curve that is its face, and a point.  The face of the curve is the only
row that is new. -/
theorem closes_build_chain :
    (∀ s ∈ [(⟨2, 0, 1, 1, .hGrad⟩ : Space), ⟨1, 1, 1, 1, .hGrad⟩, ⟨2, 0, 1, 1, .hGrad⟩,
        ⟨0, 3, 1, 1, .hDiv⟩], s.Fits) ∧
      (build [⟨2, 0, 1, 1, .hGrad⟩, ⟨1, 1, 1, 1, .hGrad⟩, ⟨2, 0, 1, 1, .hGrad⟩,
          ⟨0, 3, 1, 1, .hDiv⟩]).value.Closes
        [⟨2, 0, 1, 1, .hGrad⟩, ⟨1, 1, 1, 1, .hGrad⟩, ⟨2, 0, 1, 1, .hGrad⟩,
          ⟨0, 3, 1, 1, .hDiv⟩] ∧
      (build [⟨2, 0, 1, 1, .hGrad⟩, ⟨1, 1, 1, 1, .hGrad⟩, ⟨2, 0, 1, 1, .hGrad⟩,
          ⟨0, 3, 1, 1, .hDiv⟩]).value.user =
        [⟨2, 0, 1, 1, .hGrad⟩, ⟨1, 1, 1, 1, .hGrad⟩, ⟨0, 3, 1, 1, .hDiv⟩] ∧
      (build [⟨2, 0, 1, 1, .hGrad⟩, ⟨1, 1, 1, 1, .hGrad⟩, ⟨2, 0, 1, 1, .hGrad⟩,
          ⟨0, 3, 1, 1, .hDiv⟩]).value.face.length = 2 ∧
      ⟨0, 2, 1, 1, .hGrad⟩ ∈ (build [⟨2, 0, 1, 1, .hGrad⟩, ⟨1, 1, 1, 1, .hGrad⟩,
          ⟨2, 0, 1, 1, .hGrad⟩, ⟨0, 3, 1, 1, .hDiv⟩]).value.all := by
  have hfits : ∀ s ∈ [(⟨2, 0, 1, 1, .hGrad⟩ : Space), ⟨1, 1, 1, 1, .hGrad⟩,
      ⟨2, 0, 1, 1, .hGrad⟩, ⟨0, 3, 1, 1, .hDiv⟩], s.Fits := by
    decide
  have hcloses := closes_build _ hfits
  have hseeds : [(⟨2, 0, 1, 1, .hGrad⟩ : Space), ⟨1, 1, 1, 1, .hGrad⟩, ⟨2, 0, 1, 1, .hGrad⟩,
      ⟨0, 3, 1, 1, .hDiv⟩].eraseDups =
        [⟨2, 0, 1, 1, .hGrad⟩, ⟨1, 1, 1, 1, .hGrad⟩, ⟨0, 3, 1, 1, .hDiv⟩] := by
    decide
  have huser := hcloses.user_eq.trans hseeds
  have hlength := hcloses.length_face
  rw [huser] at hlength
  refine ⟨hfits, hcloses, huser, Nat.add_right_cancel hlength, ?_⟩
  rw [hcloses.mem_all_iff]
  refine .inr ⟨⟨1, 1, 1, 1, .hGrad⟩, ?_, ?_⟩
  · exact List.mem_cons_of_mem _ List.mem_cons_self
  · exact ⟨rfl, rfl, rfl, rfl, rfl⟩

end Closure

end InstanceTables

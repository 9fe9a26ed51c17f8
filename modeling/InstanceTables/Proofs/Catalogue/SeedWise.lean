import InstanceTables.Proofs.Catalogue.Table
import InstanceTables.Proofs.Membership

/-!
# Tables seed by seed

A condition on lists of seeds holds *seed by seed* if it holds of a list whenever it holds of
one of the seeds alone, and never otherwise.  Such a condition sees neither the order of the
seeds nor how often one stands in the list, and on `a ++ b` it is the disjunction of what it is
on `a` and on `b`.

That an entry is in a table is such a condition, for every entry and every table
(`Catalogue.seedWise_mem_entries`): no stage of the pipeline looks at two rows at once.
-/

namespace InstanceTables

/-- The condition holds of a list of seeds if it holds of one of them alone. -/
def SeedWise (P : List Space → Prop) : Prop := ∀ seeds, P seeds ↔ ∃ s ∈ seeds, P [s]

namespace SeedWise

variable {α ι : Type} {P Q : List Space → Prop}

theorem append (h : SeedWise P) (a b : List Space) : P (a ++ b) ↔ P a ∨ P b := by
  rw [h (a ++ b), h a, h b]
  simp only [List.mem_append, or_and_right, exists_or]

/-- Only the set of seeds matters. -/
theorem congr (h : SeedWise P) {a b : List Space} (hab : ∀ s, s ∈ a ↔ s ∈ b) : P a ↔ P b := by
  rw [h a, h b]
  simp only [hab]

theorem ne_nil (h : SeedWise P) {seeds : List Space} (hP : P seeds) : seeds ≠ [] := by
  obtain ⟨s, hs, -⟩ := (h seeds).1 hP
  exact List.ne_nil_of_mem hs

/-! ## Conditions that hold seed by seed -/

theorem of_iff (hQ : SeedWise Q) (h : ∀ seeds, P seeds ↔ Q seeds) : SeedWise P := by
  intro seeds
  rw [h, hQ]
  simp only [h]

theorem mem (s : Space) : SeedWise (s ∈ ·) := by
  intro seeds
  simp

theorem nonempty : SeedWise (· ≠ []) := by
  intro seeds
  constructor
  · intro h
    obtain ⟨s, hs⟩ := List.exists_mem_of_ne_nil _ h
    exact ⟨s, hs, List.cons_ne_nil s []⟩
  · rintro ⟨s, hs, -⟩
    exact List.ne_nil_of_mem hs

theorem or (hP : SeedWise P) (hQ : SeedWise Q) : SeedWise fun seeds => P seeds ∨ Q seeds := by
  intro seeds
  change P seeds ∨ Q seeds ↔ ∃ s ∈ seeds, P [s] ∨ Q [s]
  rw [hP seeds, hQ seeds]
  simp only [and_or_left, exists_or]

theorem and_const (hP : SeedWise P) (q : Prop) : SeedWise fun seeds => P seeds ∧ q := by
  intro seeds
  change P seeds ∧ q ↔ ∃ s ∈ seeds, P [s] ∧ q
  rw [hP seeds]
  simp only [← and_assoc, exists_and_right]

theorem any {P : ι → List Space → Prop} (h : ∀ i, SeedWise (P i)) :
    SeedWise fun seeds => ∃ i, P i seeds := by
  intro seeds
  constructor
  · rintro ⟨i, hi⟩
    obtain ⟨s, hs, hi⟩ := (h i seeds).1 hi
    exact ⟨s, hs, i, hi⟩
  · rintro ⟨s, hs, i, hi⟩
    exact ⟨i, (h i seeds).2 ⟨s, hs, hi⟩⟩

/-- Some entry of a table meets a condition. -/
theorem exists_mem {T : List Space → List α} (h : ∀ x, SeedWise fun seeds => x ∈ T seeds)
    (R : α → Prop) : SeedWise fun seeds => ∃ x ∈ T seeds, R x :=
  any fun x => (h x).and_const (R x)

/-- A constant alternative is no harm where there has to be a seed anyway. -/
theorem or_const (hP : SeedWise P) (q : Prop) :
    SeedWise fun seeds => seeds ≠ [] ∧ (P seeds ∨ q) := by
  refine (hP.or (nonempty.and_const q)).of_iff fun seeds => ?_
  constructor
  · rintro ⟨hne, h | h⟩
    · exact .inl h
    · exact .inr ⟨hne, h⟩
  · rintro (h | ⟨hne, h⟩)
    · exact ⟨hP.ne_nil h, .inl h⟩
    · exact ⟨hne, .inr h⟩

end SeedWise

/-! ## Tables of a catalogue -/

namespace Catalogue

variable (n : MaxOrder)

theorem seedWise_mem_user (s : Space) : SeedWise fun seeds => s ∈ (ofSeeds seeds n).spaces.user :=
  (SeedWise.mem s).of_iff fun _ => mem_user

theorem seedWise_mem_face (t : Space) : SeedWise fun seeds => t ∈ (ofSeeds seeds n).spaces.face :=
  (SeedWise.exists_mem SeedWise.mem fun s => s.face? = some t).of_iff fun _ => mem_face

theorem seedWise_mem_all (s : Space) : SeedWise fun seeds => s ∈ (ofSeeds seeds n).spaces.all :=
  ((seedWise_mem_user n s).or (seedWise_mem_face n s)).of_iff fun _ => mem_joinRows

/-- Some row of the closure meets a condition. -/
theorem seedWise_exists_all (R : Space → Prop) :
    SeedWise fun seeds => ∃ s ∈ (ofSeeds seeds n).spaces.all, R s :=
  .exists_mem (seedWise_mem_all n) R

/-- Some row of the user meets a condition. -/
theorem seedWise_exists_user (R : Space → Prop) :
    SeedWise fun seeds => ∃ s ∈ (ofSeeds seeds n).spaces.user, R s :=
  .exists_mem (seedWise_mem_user n) R

theorem seedWise_mem_extended (s : Space) :
    SeedWise fun seeds => s ∈ (ofSeeds seeds n).spaces.extended :=
  (seedWise_exists_all n _).of_iff fun _ => mem_extended

theorem seedWise_mem_functions (f : Shape) :
    SeedWise fun seeds => f ∈ (ofSeeds seeds n).shapes.functions :=
  (seedWise_exists_all n _).of_iff fun _ => mem_functions

/-- Only the spaces whose range is at most their dimension count. -/
theorem seedWise_mem_filteredRefShapes (f : Shape) :
    SeedWise fun seeds => f ∈ (ofSeeds seeds n).shapes.filteredRefShapes := by
  refine (seedWise_exists_user n fun s => s.range ≤ s.dim ∧ s.refShape = f).of_iff fun seeds => ?_
  refine mem_refShapeTable.trans ?_
  simp only [List.mem_filter, decide_eq_true_eq, and_assoc]
  rfl

/-- The shapes with tensor types: those of the functions, and that of the point scalar if there
is a seed. -/
theorem seedWise_exists_shape (R : Shape → Prop) :
    SeedWise fun seeds => seeds ≠ [] ∧
      ∃ f, (f ∈ (ofSeeds seeds n).shapes.functions ∨ f = pointScalar) ∧ R f := by
  have hshape : ∀ f, SeedWise fun seeds =>
      (seeds ≠ [] ∧ (f ∈ (ofSeeds seeds n).shapes.functions ∨ f = pointScalar)) ∧ R f :=
    fun f => ((seedWise_mem_functions n f).or_const _).and_const _
  refine (SeedWise.any hshape).of_iff fun seeds => ?_
  simp only [and_assoc, exists_and_left]

theorem seedWise_mem_values (v : Value) :
    SeedWise fun seeds => v ∈ (ofSeeds seeds n).tensors.values :=
  (seedWise_exists_shape n _).of_iff fun _ => mem_values

theorem seedWise_mem_derivatives (x : Derivative) :
    SeedWise fun seeds => x ∈ (ofSeeds seeds n).tensors.derivatives := by
  have hshape := seedWise_exists_shape n fun f => ∃ o ≤ n.max, Derivative.ofOrder o f = x
  refine hshape.of_iff fun seeds => ?_
  rw [mem_derivatives]
  refine and_congr_right fun _ => ⟨?_, ?_⟩
  · rintro ⟨o, ho, f, hf, hx⟩
    exact ⟨f, hf, o, ho, hx⟩
  · rintro ⟨f, hf, o, ho, hx⟩
    exact ⟨o, ho, f, hf, hx⟩

theorem seedWise_mem_tensors (t : Tensor) :
    SeedWise fun seeds => t ∈ (ofSeeds seeds n).tensors.tensors := by
  cases t with
  | derivative x =>
    exact (seedWise_mem_derivatives n x).of_iff fun _ => TensorTable.derivative_mem_tensors
  | value v => exact (seedWise_mem_values n v).of_iff fun _ => TensorTable.value_mem_tensors

/-- An entry is in a table if one of the seeds alone brings it there. -/
theorem seedWise_mem_entries (t : TableName) (x : t.Entry) :
    SeedWise fun seeds => x ∈ (ofSeeds seeds n).entries t := by
  cases t with
  | user => exact seedWise_mem_user n x
  | face => exact seedWise_mem_face n x
  | all => exact seedWise_mem_all n x
  | extended => exact seedWise_mem_extended n x
  | pushForwardRows =>
    exact ((seedWise_mem_all n x).or (seedWise_mem_extended n x)).of_iff fun _ => mem_joinRows
  | dims => exact (seedWise_exists_all n _).of_iff fun _ => mem_dimensions
  | userDims => exact (seedWise_exists_user n _).of_iff fun _ => mem_dimensions
  | faceDims => exact (SeedWise.exists_mem (seedWise_mem_face n) _).of_iff fun _ => mem_dimensions
  | mappings => exact (seedWise_exists_all n _).of_iff fun _ => mem_mappings
  | userMappings => exact (seedWise_exists_user n _).of_iff fun _ => mem_mappingTable
  | functions => exact seedWise_mem_functions n x
  | refShapes => exact (seedWise_exists_all n _).of_iff fun _ => mem_refShapes
  | userRefShapes => exact (seedWise_exists_user n _).of_iff fun _ => mem_refShapeTable
  | filteredRefShapes => exact seedWise_mem_filteredRefShapes n x
  | derivatives => exact seedWise_mem_derivatives n x
  | values => exact seedWise_mem_values n x
  | tensors => exact seedWise_mem_tensors n x
  | containerDims => exact (seedWise_exists_all n _).of_iff fun _ => mem_containerDims
  | perDim c => exact (seedWise_exists_all n _).of_iff fun _ => mem_perDim
  | dynamicMultiArrays =>
    exact ((seedWise_exists_all n _).or (.exists_mem (seedWise_mem_tensors n) _)).of_iff
      fun _ => mem_dynamicMultiArrays
  | cartesianProductArrays =>
    exact (seedWise_exists_all n _).of_iff fun _ => mem_cartesianProductArrays
  | valueVectors =>
    exact (SeedWise.exists_mem (seedWise_mem_tensors n) _).of_iff fun _ => mem_valueVectors
  | valueTables => exact (seedWise_mem_tensors n x.tensor).of_iff fun _ => mem_valueTables
  | refSpaces => exact (seedWise_exists_all n _).of_iff fun _ => mem_refSpaces
  | userRefSpaces =>
    exact (seedWise_exists_user n _).of_iff
      fun _ => mem_refSpaceTable.trans mem_refShapeTable
  | filteredRefSpaces =>
    exact (seedWise_mem_filteredRefShapes n x.shape).of_iff fun _ => mem_refSpaceTable
  | pushForwards => exact (seedWise_exists_all n _).of_iff fun _ => mem_pushForwards
  | physicalSpaces => exact (seedWise_exists_all n _).of_iff fun _ => mem_physicalSpaces
  | userPhysicalSpaces => exact (seedWise_exists_user n _).of_iff fun _ => mem_physicalSpaceTable

end Catalogue

end InstanceTables

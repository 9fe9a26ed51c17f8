import InstanceTables.Proofs.Membership
import InstanceTables.Proofs.Writer.Text

/-!
# Declarations bring what they require

An instance of a template needs instances at its arguments, and some need instances that are
not named by an argument.  `Declaration.Requires` lists these needs.  The declarations of a
catalogue are closed under them, although what is required and what requires it stand in
different tables (`Declaration.Requires.entry_mem`).  So are the lines of a full file.
-/

namespace InstanceTables

/-- The first declaration needs the second. -/
inductive Declaration.Requires : Declaration → Declaration → Prop
  /-- A physical space is made from a reference space. -/
  | reference (s : PhysicalSpace) : Requires (.physicalSpace s) (.refSpace s.refSpace)
  /-- A physical space carries it along a push-forward. -/
  | transformation (s : PhysicalSpace) : Requires (.physicalSpace s) (.pushForward s.pushForward)
  /-- A push-forward goes along a mapping. -/
  | domain (p : PushForward) : Requires (.pushForward p) (.mapping ⟨p.dim, p.codim⟩)
  | arrayTensor (t : Tensor) (rank : UInt32) :
    Requires (.dynamicMultiArray ⟨.tensor t, rank⟩) (.tensor t)
  | vectorTensor (t : Tensor) : Requires (.valueVector (.tensor t)) (.tensor t)
  | tableTensor (t : Tensor) : Requires (.valueTable ⟨t⟩) (.tensor t)
  /-- A derivative has the values of the function. -/
  | value (x : Derivative) : Requires (.tensor (.derivative x)) (.tensor (.value x.value))
  | arrayIndex (d rank : UInt32) :
    Requires (.dynamicMultiArray ⟨.tensorIndex d, rank⟩) (.dimContainer ⟨.tensorIndex, d⟩)
  /-- A reference space uses every container of its dimension. -/
  | container (r : RefSpace) (c : DimClass) :
    Requires (.refSpace r) (.dimContainer ⟨c, r.shape.dim⟩)

variable {seeds : List Space} {order : MaxOrder}

namespace Catalogue

/-- Both parts of a physical space come from the row that it comes from. -/
theorem parts_mem_of_mem_physicalSpaces {s : PhysicalSpace}
    (h : s ∈ (ofSeeds seeds order).splines.physicalSpaces) :
    s.refSpace ∈ (ofSeeds seeds order).splines.refSpaces ∧
      s.pushForward ∈ (ofSeeds seeds order).splines.pushForwards := by
  obtain ⟨row, hrow, hs⟩ := mem_physicalSpaces.1 h
  constructor
  · refine mem_refSpaces.2 ⟨row, hrow, ?_⟩
    rw [← hs]
    rfl
  · refine mem_pushForwards.2 ⟨row, hrow, ?_⟩
    rw [← hs]
    rfl

theorem mapping_mem_of_mem_pushForwards {p : PushForward}
    (h : p ∈ (ofSeeds seeds order).splines.pushForwards) :
    ⟨p.dim, p.codim⟩ ∈ (ofSeeds seeds order).shapes.mappings := by
  obtain ⟨row, hrow, rfl⟩ := mem_pushForwards.1 h
  exact mem_mappings.2 ⟨row, hrow, rfl⟩

theorem tensor_mem_of_mem_dynamicMultiArrays {t : Tensor} {rank : UInt32}
    (h : ⟨.tensor t, rank⟩ ∈ (ofSeeds seeds order).containers.dynamicMultiArrays) :
    t ∈ (ofSeeds seeds order).tensors.tensors := by
  rcases mem_dynamicMultiArrays.1 h with ⟨row, -, hd | hd | hd⟩ | ⟨u, hu, htu⟩
  · simp at hd
  · simp at hd
  · simp at hd
  · obtain ⟨rfl, -⟩ : t = u ∧ rank = 2 := by simpa using htu
    exact hu

theorem tensor_mem_of_mem_valueVectors {t : Tensor}
    (h : .tensor t ∈ (ofSeeds seeds order).containers.valueVectors) :
    t ∈ (ofSeeds seeds order).tensors.tensors := by
  rcases mem_valueVectors.1 h with ⟨u, hu, htu | htu⟩
  · simp at htu
  · obtain rfl := ValueVector.tensor.inj htu
    exact hu

/-- Whichever shape a derivative comes from, its value comes from the same one. -/
theorem value_mem_of_mem_derivatives {x : Derivative}
    (h : x ∈ (ofSeeds seeds order).tensors.derivatives) :
    x.value ∈ (ofSeeds seeds order).tensors.values := by
  obtain ⟨hne, o, -, f, hf, rfl⟩ := mem_derivatives.1 h
  refine mem_values.2 ⟨hne, f, hf, ?_⟩
  unfold Derivative.ofOrder
  split
  · rfl
  · rfl

theorem tensorIndex_mem_of_mem_dynamicMultiArrays {d rank : UInt32}
    (h : ⟨.tensorIndex d, rank⟩ ∈ (ofSeeds seeds order).containers.dynamicMultiArrays) :
    ⟨.tensorIndex, d⟩ ∈ (ofSeeds seeds order).containers.perDim .tensorIndex := by
  rcases mem_dynamicMultiArrays.1 h with ⟨row, hrow, hd | hd | hd⟩ | ⟨u, -, hu⟩
  · obtain ⟨rfl, -⟩ : d = row.dim ∧ rank = row.dim := by simpa using hd
    exact mem_perDim.2 ⟨row, hrow, rfl⟩
  · simp at hd
  · simp at hd
  · simp at hu

theorem container_mem_of_mem_refSpaces {r : RefSpace} (c : DimClass)
    (h : r ∈ (ofSeeds seeds order).splines.refSpaces) :
    ⟨c, r.shape.dim⟩ ∈ (ofSeeds seeds order).containers.perDim c := by
  obtain ⟨row, hrow, hr⟩ := mem_refSpaces.1 h
  exact mem_perDim.2 ⟨row, hrow, by rw [← hr]; rfl⟩

end Catalogue

/-! ## Closure -/

/-- What an entry of a catalogue requires is an entry too. -/
theorem Declaration.Requires.entry_mem {d e : Declaration} (h : d.Requires e)
    (hd : d.entry ∈ (Catalogue.ofSeeds seeds order).entries d.family.table) :
    e.entry ∈ (Catalogue.ofSeeds seeds order).entries e.family.table := by
  cases h with
  | reference s => exact (Catalogue.parts_mem_of_mem_physicalSpaces hd).1
  | transformation s => exact (Catalogue.parts_mem_of_mem_physicalSpaces hd).2
  | domain p => exact Catalogue.mapping_mem_of_mem_pushForwards hd
  | arrayTensor t rank => exact Catalogue.tensor_mem_of_mem_dynamicMultiArrays hd
  | vectorTensor t => exact Catalogue.tensor_mem_of_mem_valueVectors hd
  | tableTensor t => exact Catalogue.mem_valueTables.1 hd
  | value x =>
    exact TensorTable.value_mem_tensors.2
      (Catalogue.value_mem_of_mem_derivatives (TensorTable.derivative_mem_tensors.1 hd))
  | arrayIndex n rank => exact Catalogue.tensorIndex_mem_of_mem_dynamicMultiArrays hd
  | container r c => exact Catalogue.container_mem_of_mem_refSpaces c hd

/-- A new writer that declares every family writes the declarations that the families list, and
with each of them what it requires. -/
theorem Writer.requirements_written (generator : String) (seeds : List Space) (order : MaxOrder) :
    ∃ (w w' : Writer) (n : Nat) (text : String),
      start generator {} = (.ok (), w) ∧ w.sink.bytes = (header generator).toUTF8 ∧
      (Emit.declareFamilies (.ofSeeds seeds order) Family.all).run.run w = (.ok n, w') ∧
      w'.sink.bytes = w.sink.bytes ++ text.toUTF8 ∧
      (∀ d : Declaration, d.line ∈ Text.lines text.toList ↔
        d ∈ d.family.declarations (.ofSeeds seeds order)) ∧
      ∀ d e : Declaration, d.Requires e →
        d.line ∈ Text.lines text.toList → e.line ∈ Text.lines text.toList := by
  have hwritten : ∀ d : Declaration,
      d.line ∈ Text.lines (declarationText
          ((Catalogue.ofSeeds seeds order).declarations Family.all)).toList ↔
        d.entry ∈ (Catalogue.ofSeeds seeds order).entries d.family.table := by
    intro d
    rw [Declaration.line_mem_lines, Catalogue.mem_declarations_all]
  refine ⟨_, _, _, _, start_unlimited generator, rfl, Emit.run_declareFamilies rfl _, rfl,
    ?_, ?_⟩
  · intro d
    rw [hwritten, Declaration.mem_declarations_family]
  · intro d e hreq hd
    rw [hwritten] at hd ⊢
    exact hreq.entry_mem hd

end InstanceTables

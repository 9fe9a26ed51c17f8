import InstanceTables.Proofs.Catalogue.Table
import InstanceTables.Proofs.Declaration.Name

/-!
# Declarations as entries

A family declares the entries of one table of a catalogue, each once
(`Family.declarations_eq_map`).  So a declaration is an entry of the table of its family, and a
selection of families declares the entries of their tables; all families together declare
every entry (`mem_declarations_all`).
-/

namespace InstanceTables

namespace Family

def table : Family → TableName
  | tensors => .tensors
  | perDim c => .perDim c
  | dynamicMultiArray => .dynamicMultiArrays
  | cartesianProductArray => .cartesianProductArrays
  | valueVector => .valueVectors
  | valueTable => .valueTables
  | mapping => .mappings
  | refSpace => .refSpaces
  | pushForward => .pushForwards
  | physicalSpace => .physicalSpaces

def declaration : (f : Family) → f.table.Entry → Declaration
  | tensors => .tensor
  | perDim _ => .dimContainer
  | dynamicMultiArray => .dynamicMultiArray
  | cartesianProductArray => .cartesianProductArray
  | valueVector => .valueVector
  | valueTable => .valueTable
  | mapping => .mapping
  | refSpace => .refSpace
  | pushForward => .pushForward
  | physicalSpace => .physicalSpace

theorem declarations_eq_map (c : Catalogue) (f : Family) :
    f.declarations c = (c.entries f.table).map f.declaration := by
  cases f <;> rfl

/-- Different entries have different declarations. -/
theorem declaration_injective (f : Family) : Function.Injective f.declaration := by
  intro x y h
  cases f with
  | tensors => exact Declaration.tensor.inj h
  | perDim c => exact Declaration.dimContainer.inj h
  | dynamicMultiArray => exact Declaration.dynamicMultiArray.inj h
  | cartesianProductArray => exact Declaration.cartesianProductArray.inj h
  | valueVector => exact Declaration.valueVector.inj h
  | valueTable => exact Declaration.valueTable.inj h
  | mapping => exact Declaration.mapping.inj h
  | refSpace => exact Declaration.refSpace.inj h
  | pushForward => exact Declaration.pushForward.inj h
  | physicalSpace => exact Declaration.physicalSpace.inj h

/-- No family lists a declaration twice. -/
theorem nodup_declarations {seeds : List Space} {order : MaxOrder} (f : Family) :
    (f.declarations (.ofSeeds seeds order)).Nodup := by
  rw [declarations_eq_map]
  exact (Catalogue.nodup_entries seeds order f.table).map f.declaration_injective

/-- Different families have no declaration in common. -/
theorem disjoint_declarations {c : Catalogue} {f g : Family} (h : f ≠ g) :
    (f.declarations c).Disjoint (g.declarations c) := by
  intro d hf hg
  apply h
  rw [← Declaration.family_of_mem_declarations hf, ← Declaration.family_of_mem_declarations hg]

end Family

namespace Declaration

/-- A declaration as an entry of the table of its family. -/
def entry : (d : Declaration) → d.family.table.Entry
  | tensor t => t
  | dimContainer c => c
  | dynamicMultiArray a => a
  | cartesianProductArray a => a
  | valueVector v => v
  | valueTable t => t
  | mapping m => m
  | refSpace r => r
  | pushForward p => p
  | physicalSpace s => s

theorem declaration_entry (d : Declaration) : d.family.declaration d.entry = d := by
  cases d <;> rfl

/-- A family declares the entries of its table. -/
theorem mem_declarations_family {c : Catalogue} {d : Declaration} :
    d ∈ d.family.declarations c ↔ d.entry ∈ c.entries d.family.table := by
  rw [Family.declarations_eq_map, List.mem_map]
  constructor
  · rintro ⟨x, hx, hd⟩
    have hentry : x = d.entry :=
      d.family.declaration_injective (hd.trans d.declaration_entry.symm)
    exact hentry ▸ hx
  · intro h
    exact ⟨d.entry, h, d.declaration_entry⟩

end Declaration

/-! ## Selections -/

namespace Catalogue

variable {c : Catalogue} {d : Declaration} {selected : List Family}

/-- The declarations of a selection: each selected family once, in the order of selection. -/
def declarations (c : Catalogue) (selected : List Family) : List Declaration :=
  (distinct selected).flatMap (Family.declarations c)

/-- A selection declares the entries of the tables of its families. -/
theorem mem_declarations :
    d ∈ c.declarations selected ↔ d.family ∈ selected ∧ d.entry ∈ c.entries d.family.table := by
  rw [declarations, List.mem_flatMap, ← Declaration.mem_declarations_family]
  constructor
  · rintro ⟨f, hf, hd⟩
    obtain rfl := Declaration.family_of_mem_declarations hd
    exact ⟨mem_distinct.1 hf, hd⟩
  · rintro ⟨hf, hd⟩
    exact ⟨d.family, mem_distinct.2 hf, hd⟩

/-- All families together declare every entry. -/
theorem mem_declarations_all :
    d ∈ c.declarations Family.all ↔ d.entry ∈ c.entries d.family.table := by
  rw [mem_declarations, and_iff_right d.family.mem_all]

/-- No selection declares a type twice, even if it names a family twice. -/
theorem nodup_declarations {seeds : List Space} {order : MaxOrder} (selected : List Family) :
    ((ofSeeds seeds order).declarations selected).Nodup := by
  refine List.nodup_flatMap.2 ⟨fun f _ => f.nodup_declarations, ?_⟩
  refine (nodup_distinct selected).pairwise_of_forall_ne ?_
  rintro f - g - hfg
  exact Family.disjoint_declarations hfg

end Catalogue

end InstanceTables

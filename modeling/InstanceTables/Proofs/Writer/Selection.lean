import InstanceTables.Proofs.Closure
import InstanceTables.Proofs.Membership
import InstanceTables.Proofs.Writer.Text

/-!
# Selections of families

What a selection of families writes, in terms of the tables of the catalogue: the names of the
classes of a family are spelled from the table of the closure that belongs to it
(`Family.classNames`), and a selection writes one line for each name, whatever the writer has
done before.

A selection may be split.  The second part then need not write the families that the first part
has written, and both together do to the writer what the whole selection does
(`declareFamilies_append`).  This does not depend on the sink: it holds as well where the sink
becomes full on the way.
-/

namespace InstanceTables

variable {c : Catalogue}

/-- The names of the classes of a family, in the order of the table that they come from. -/
def Family.classNames (c : Catalogue) : Family → List String
  | tensors => c.tensors.derivatives.map spell ++ c.tensors.values.map spell
  | perDim k => c.containers.dims.map fun d => spell (DimContainer.mk k d)
  | dynamicMultiArray => c.containers.dynamicMultiArrays.map spell
  | cartesianProductArray => c.containers.cartesianProductArrays.map spell
  | valueVector => c.containers.valueVectors.map spell
  | valueTable => c.containers.valueTables.map spell
  | mapping => c.shapes.mappings.map spell
  | refSpace => c.splines.refSpaces.map spell
  | pushForward => c.splines.pushForwards.map spell
  | physicalSpace => c.splines.physicalSpaces.map spell

/-- The names of the classes of a selection: those of each selected family, once and in the order
of selection. -/
def Catalogue.classNames (c : Catalogue) (selected : List Family) : List String :=
  selected.eraseDups.flatMap (Family.classNames c)

theorem Family.map_spell_declarations (f : Family) :
    (f.declarations c).map spell = f.classNames c := by
  cases f with
  | tensors =>
    rw [declarations, TensorTable.tensors, classNames]
    simp only [List.map_append, List.map_map]
    rfl
  | perDim k =>
    rw [declarations, ContainerTable.perDim, classNames]
    simp only [List.map_map]
    rfl
  | _ => exact List.map_map

theorem Catalogue.map_spell_declarations (selected : List Family) :
    (c.declarations selected).map spell = c.classNames selected := by
  rw [declarations, classNames, distinct_eq_eraseDups, List.map_flatMap]
  exact List.flatMap_congr fun f _ => f.map_spell_declarations

theorem Catalogue.length_classNames (selected : List Family) :
    (c.classNames selected).length = (c.declarations selected).length := by
  rw [← map_spell_declarations, List.length_map]

theorem Catalogue.map_line_declarations (selected : List Family) :
    (c.declarations selected).map Declaration.line =
      (c.classNames selected).map fun name => ("template class " ++ name ++ " ;").toList := by
  rw [← map_spell_declarations, List.map_map]
  rfl

theorem Catalogue.familyEvents_eq (selected : List Family) :
    c.familyEvents selected =
      selected.eraseDups.map fun f => .familyWritten f (f.classNames c).length := by
  rw [familyEvents, distinct_eq_eraseDups]
  refine List.map_congr_left fun f _ => ?_
  rw [← f.map_spell_declarations, List.length_map]

/-- What a new writer has done when it has written a selection. -/
theorem Writer.exists_generated (generator : String) (c : Catalogue) (selected : List Family) :
    ∃ w w', start generator {} = (.ok (), w) ∧
      (Emit.declareFamilies c selected).run.run w = (.ok w'.declared, w') ∧
      w'.sink.bytes = (c.generatedText generator selected).toUTF8 ∧
      w'.declared = (c.classNames selected).length ∧
      w'.log.toList = c.familyEvents selected := by
  let w : Writer := { sink := { bytes := (header generator).toUTF8 } }
  refine ⟨w, w.extend (c.declarations selected) (c.familyEvents selected),
    start_unlimited generator, ?_, ?_, ?_, ?_⟩
  · have hcount : w.declared + (c.declarations selected).length =
        (c.declarations selected).length :=
      Nat.zero_add _
    rw [Emit.run_declareFamilies rfl, extend, hcount]
  · simp [w, extend, Catalogue.generatedText]
  · rw [c.length_classNames]
    exact Nat.zero_add _
  · simp [w, extend]

/-- The spaces of a curve are itself and its end points. -/
theorem Catalogue.all_curve :
    (Catalogue.ofSeeds [⟨1, 0, 1, 1, .hGrad⟩] ⟨0⟩).spaces.all =
      [⟨1, 0, 1, 1, .hGrad⟩, ⟨0, 1, 1, 1, .hGrad⟩] := by
  rw [spaces_ofSeeds, Closure.all_build, Closure.user_build, Closure.face_build, joinRows,
    distinct_eq_eraseDups, distinct_eq_eraseDups]
  decide

theorem Catalogue.mappings_curve :
    (Catalogue.ofSeeds [⟨1, 0, 1, 1, .hGrad⟩] ⟨0⟩).shapes.mappings = [⟨1, 0⟩, ⟨0, 1⟩] := by
  change mappingTable (ofSeeds [⟨1, 0, 1, 1, .hGrad⟩] ⟨0⟩).spaces.all = _
  rw [all_curve, mappingTable, distinct_eq_eraseDups]
  decide

/-! ## Split selections -/

namespace Emit

/-- What has been added up before is added to the number that is returned. -/
theorem foldlM_declareFamily_add (fs : List Family) (m k : Nat) :
    (fs.foldlM (fun n f => return n + (← declareFamily c f)) (m + k) : Emit Nat) = do
      let n ← fs.foldlM (fun n f => return n + (← declareFamily c f)) k
      return m + n := by
  induction fs generalizing k with
  | nil => simp
  | cons f fs ih =>
    simp only [List.foldlM_cons, bind_assoc, pure_bind]
    refine bind_congr fun written => ?_
    rw [Nat.add_assoc, ih]

/-- A selection does what its parts do one after the other, if the second part leaves out the
families of the first. -/
theorem declareFamilies_append (c : Catalogue) (a b : List Family) :
    declareFamilies c (a ++ b) = do
      let m ← declareFamilies c a
      let n ← declareFamilies c (b.filter fun f => f ∉ a)
      return m + n := by
  have hrest : b.removeAll a = b.filter fun f => f ∉ a :=
    List.filter_congr fun f _ => by simp
  simp only [declareFamilies]
  rw [distinct_append, List.foldlM_append, hrest]
  refine bind_congr fun m => ?_
  exact foldlM_declareFamily_add _ m 0

/-- On a sink that is never full, a selection writes one line for each entry of the tables of its
families, each family once and in the order of selection, whatever has been written before.  It
returns, and adds to the count of declarations, the number of these lines.  If it is split, the
parts do the same one after the other, when the second one leaves out the families of the
first. -/
theorem selection_written (c : Catalogue) (selected : List Family) (w : Writer)
    (h : w.sink.capacity = none) :
    (∃ (w' : Writer) (text : String),
      (declareFamilies c selected).run.run w = (.ok (c.classNames selected).length, w') ∧
      w'.sink.bytes = w.sink.bytes ++ text.toUTF8 ∧
      w'.declared = w.declared + (c.classNames selected).length ∧
      Text.lines text.toList =
        (c.classNames selected).map (fun name => ("template class " ++ name ++ " ;").toList) ++
          [[]]) ∧
    ∀ a b, selected = a ++ b →
      (declareFamilies c selected).run.run w = (do
        let m ← declareFamilies c a
        let n ← declareFamilies c (b.filter fun f => f ∉ a)
        return m + n : Emit Nat).run.run w := by
  constructor
  · refine ⟨w.extend (c.declarations selected) (c.familyEvents selected),
      declarationText (c.declarations selected), ?_, rfl, ?_, ?_⟩
    · rw [run_declareFamilies h, c.length_classNames]
    · rw [c.length_classNames]
      rfl
    · rw [lines_declarationText, c.map_line_declarations]
  · rintro a b rfl
    rw [declareFamilies_append]

/-- The mappings and push-forwards of a curve, the mappings selected twice, behind a text and three
declarations. -/
theorem selection_written_curve :
    let c := Catalogue.ofSeeds [⟨1, 0, 1, 1, .hGrad⟩] ⟨0⟩
    let w : Writer := { sink := { bytes := "before\n".toUTF8 }, declared := 3 }
    w.sink.capacity = none ∧
    (∃ (w' : Writer) (text : String),
      (declareFamilies c [.mapping, .pushForward, .mapping]).run.run w = (.ok 4, w') ∧
      w'.sink.bytes = "before\n".toUTF8 ++ text.toUTF8 ∧
      w'.declared = 7 ∧
      Text.lines text.toList =
        ["template class Mapping<1,0> ;".toList, "template class Mapping<0,1> ;".toList,
          "template class PushForward<Transformation::h_grad, 1, 0> ;".toList,
          "template class PushForward<Transformation::h_grad, 0, 1> ;".toList, []]) ∧
    (declareFamilies c [.mapping, .pushForward, .mapping]).run.run w = (do
      let m ← declareFamilies c [.mapping]
      let n ← declareFamilies c [.pushForward]
      return m + n : Emit Nat).run.run w := by
  intro c w
  have hpushForwards : c.splines.pushForwards = [⟨.hGrad, 1, 0⟩, ⟨.hGrad, 0, 1⟩] := by
    change pushForwardTable c.spaces.all = _
    rw [Catalogue.all_curve, pushForwardTable, distinct_eq_eraseDups]
    decide
  have hselected : [Family.mapping, .pushForward, .mapping].eraseDups =
      [.mapping, .pushForward] := by
    decide
  have hnames : c.classNames [.mapping, .pushForward, .mapping] =
      ["Mapping<1,0>", "Mapping<0,1>", "PushForward<Transformation::h_grad, 1, 0>",
        "PushForward<Transformation::h_grad, 0, 1>"] := by
    rw [Catalogue.classNames, hselected, List.flatMap_cons, List.flatMap_singleton,
      Family.classNames, Family.classNames, Catalogue.mappings_curve, hpushForwards]
    decide +kernel
  obtain ⟨⟨w', text, hrun, hbytes, hdeclared, hlines⟩, hsplit⟩ :=
    selection_written c [.mapping, .pushForward, .mapping] w rfl
  rw [hnames] at hrun hdeclared hlines
  exact ⟨rfl, ⟨w', text, hrun, hbytes, hdeclared, hlines⟩,
    hsplit [.mapping] [.pushForward, .mapping] rfl⟩

end Emit

end InstanceTables

import InstanceTables.Proofs.Closure
import InstanceTables.Proofs.Tensor.Enumeration
import InstanceTables.Proofs.Writer.Selection
import Mathlib.Algebra.GroupWithZero.Nat

/-!
# What is logged

Each stage of building a catalogue logs the lengths of the tables that it has made, and the stage
of the faces logs in addition every row of the user's that has none.  The log of the whole is
these events one after the other (`Catalogue.events_build`).  A writer logs how many declarations
of each family it has written.

So the log can be told from the tables.  The only event that may be missing is that about tensor
types: without a seed there is nothing to differentiate.
-/

namespace InstanceTables

variable {seeds : List Space} {n : MaxOrder}

/-- What a reader of the log sees of an event: its level, its text and its fields. -/
abbrev Event.Shown := Level × String × List (String × FieldValue)

def Event.shown (e : Event) : Event.Shown := (e.level, e.message, e.fields)

/-- The rows of the user's without a face are logged first, then the lengths of the tables. -/
theorem Closure.events_build (seeds : List Space) :
    (build seeds).events =
      ((build seeds).value.user.filter (·.dim = 0)).map (fun s => .faceless s.dim s.codim) ++
        [.closureBuilt ⟨(build seeds).value.user.length, (build seeds).value.face.length,
          (build seeds).value.all.length, (build seeds).value.extended.length⟩] :=
  rfl

theorem Projection.events_build (spaces : Closure) :
    (build spaces).events =
      [.projectionBuilt ⟨(build spaces).value.mappings.length,
        (build spaces).value.functions.length, (build spaces).value.refShapes.length⟩] :=
  rfl

theorem ContainerTable.events_build (rows : List Space) (tensors : TensorTable) :
    (build rows tensors).events =
      [.containersEnumerated ⟨(build rows tensors).value.dims.length,
        (build rows tensors).value.dynamicMultiArrays.length,
        (build rows tensors).value.cartesianProductArrays.length,
        (build rows tensors).value.valueVectors.length,
        (build rows tensors).value.valueTables.length⟩] :=
  rfl

namespace Catalogue

/-- The events of the stages follow one another. -/
theorem events_build_eq (seeds : List Space) (n : MaxOrder) :
    (build seeds n).events =
      [.started seeds.length n] ++ ((Closure.build seeds).events ++
        ((Projection.build (ofSeeds seeds n).spaces).events ++
          ((TensorTable.build (ofSeeds seeds n).shapes.functions (ofSeeds seeds n).shapes.mappings
              n).events ++
            (ContainerTable.build (ofSeeds seeds n).spaces.all
              (ofSeeds seeds n).tensors).events))) :=
  rfl

/-- Tensor types are listed, and that is logged, as soon as there is a seed. -/
theorem events_tensors (seeds : List Space) (n : MaxOrder) :
    (TensorTable.build (ofSeeds seeds n).shapes.functions (ofSeeds seeds n).shapes.mappings
        n).events =
      if seeds = [] then [] else
        [.tensorsEnumerated n (ofSeeds seeds n).tensors.derivatives.length
          (ofSeeds seeds n).tensors.values.length] := by
  have hne : ((ofSeeds seeds n).shapes.functions ≠ [] ∨
      (ofSeeds seeds n).shapes.mappings ≠ []) ↔ seeds ≠ [] :=
    functions_or_mappings_ne_nil_iff
  by_cases hseeds : seeds = []
  · obtain ⟨hfunctions, hmappings⟩ := not_or.1 (mt hne.1 (not_not.2 hseeds))
    rw [if_pos hseeds, not_not.1 hfunctions, not_not.1 hmappings]
    rfl
  · rw [if_neg hseeds]
    exact TensorTable.events_build (hne.2 hseeds)

/-- What building a catalogue logs. -/
theorem events_build (seeds : List Space) (n : MaxOrder) :
    (build seeds n).events =
      [.started seeds.length n] ++
      ((ofSeeds seeds n).spaces.user.filter (·.dim = 0)).map (fun s => .faceless s.dim s.codim) ++
      [.closureBuilt ⟨(ofSeeds seeds n).spaces.user.length, (ofSeeds seeds n).spaces.face.length,
          (ofSeeds seeds n).spaces.all.length, (ofSeeds seeds n).spaces.extended.length⟩,
        .projectionBuilt ⟨(ofSeeds seeds n).shapes.mappings.length,
          (ofSeeds seeds n).shapes.functions.length, (ofSeeds seeds n).shapes.refShapes.length⟩] ++
      (if seeds = [] then [] else
        [.tensorsEnumerated n (ofSeeds seeds n).tensors.derivatives.length
          (ofSeeds seeds n).tensors.values.length]) ++
      [.containersEnumerated ⟨(ofSeeds seeds n).containers.dims.length,
        (ofSeeds seeds n).containers.dynamicMultiArrays.length,
        (ofSeeds seeds n).containers.cartesianProductArrays.length,
        (ofSeeds seeds n).containers.valueVectors.length,
        (ofSeeds seeds n).containers.valueTables.length⟩] := by
  rw [events_build_eq, Closure.events_build, Projection.events_build, events_tensors,
    ContainerTable.events_build]
  simp only [List.append_assoc]
  rfl

/-- The points among the user's rows are those rows that have no face. -/
theorem length_points (seeds : List Space) (n : MaxOrder) :
    ((ofSeeds seeds n).spaces.user.filter (·.dim = 0)).length +
      (ofSeeds seeds n).spaces.face.length = (ofSeeds seeds n).spaces.user.length := by
  have hlength := length_faceRows (nodup_distinct seeds)
  rw [faceRows, List.length_map] at hlength
  exact hlength

/-- The warnings are about the points among the user's rows, in the order of these. -/
theorem warnings_build (seeds : List Space) (n : MaxOrder) :
    (build seeds n).warnings =
      ((ofSeeds seeds n).spaces.user.filter (·.dim = 0)).map fun s => .faceless s.dim s.codim := by
  rw [Logged.warnings, events_build]
  split <;> simp [List.filter_map, Event.isWarning, Event.level, Function.comp_def]

/-- There is one warning for each of the user's rows that has no face. -/
theorem length_warnings_build (seeds : List Space) (n : MaxOrder) :
    (build seeds n).warnings.length + (ofSeeds seeds n).spaces.face.length =
      (ofSeeds seeds n).spaces.user.length := by
  rw [warnings_build, List.length_map]
  exact length_points seeds n

/-- The log of a run.  First comes what building the catalogue reports: the span with the number of
seeds; a warning for each row of the user's that is a point, in the order of these rows; and the
lengths of the tables, stage by stage, where tensor types are reported if there is a seed.  Then
comes the number of declarations of each selected family, once and in the order of selection.
There are as many warnings as the user has rows without a face, and the declarations reported add
up to those that the writer has counted. -/
theorem log_exact (generator : String) (seeds : List Space) (n : MaxOrder)
    (selected : List Family) :
    let c := ofSeeds seeds n
    let points := c.spaces.user.filter (·.dim = 0)
    let started : Event.Shown := (.span, "instantiation_info",
      [("seeds", .count seeds.length), ("max_der_order", .text (toString n.max.toNat))])
    let faceless : List Event.Shown := points.map fun s =>
      (.warn, "zero-dimensional space has no face; skipping",
        [("dim", .count s.dim.toNat), ("codim", .count s.codim.toNat)])
    let spaces : Event.Shown := (.debug, "built space table",
      [("user", .count c.spaces.user.length), ("face", .count c.spaces.face.length),
        ("all", .count c.spaces.all.length), ("extended", .count c.spaces.extended.length)])
    let shapes : Event.Shown := (.debug, "built dimension tables",
      [("mappings", .count c.shapes.mappings.length),
        ("functions", .count c.shapes.functions.length),
        ("ref_spaces", .count c.shapes.refShapes.length)])
    let tensors : Event.Shown := (.debug, "enumerated tensor types",
      [("max_order", .text (toString n.max.toNat)),
        ("derivatives", .count c.tensors.derivatives.length),
        ("values", .count c.tensors.values.length)])
    let containers : Event.Shown := (.debug, "enumerated containers",
      [("dims", .count c.containers.dims.length),
        ("multi_arrays", .count c.containers.dynamicMultiArrays.length),
        ("product_arrays", .count c.containers.cartesianProductArrays.length),
        ("value_vectors", .count c.containers.valueVectors.length),
        ("value_tables", .count c.containers.valueTables.length)])
    let families : List Event.Shown := selected.eraseDups.map fun f => (.debug, "wrote family",
      [("family", .text f.name), ("written", .count (f.classNames c).length)])
    ∃ w w' : Writer,
      Writer.start generator {} = (.ok (), w) ∧
      (Emit.declareFamilies c selected).run.run w = (.ok w'.declared, w') ∧
      ((build seeds n).events ++ w'.log.toList).map Event.shown =
        [started] ++ faceless ++ [spaces, shapes] ++ (if seeds = [] then [] else [tensors]) ++
          [containers] ++ families ∧
      faceless.length + c.spaces.face.length = c.spaces.user.length ∧
      w'.declared = (selected.eraseDups.map fun f => (f.classNames c).length).sum := by
  intro c points started faceless spaces shapes tensors containers families
  obtain ⟨w, w', hstart, hrun, -, hdeclared, hlog⟩ :=
    Writer.exists_generated generator c selected
  refine ⟨w, w', hstart, hrun, ?_, ?_, ?_⟩
  · rw [hlog, c.familyEvents_eq, events_build]
    simp only [List.map_append, apply_ite (List.map Event.shown), List.map_map]
    rfl
  · rw [List.length_map]
    exact length_points seeds n
  · rw [hdeclared, Catalogue.classNames, List.length_flatMap]

end Catalogue

end InstanceTables

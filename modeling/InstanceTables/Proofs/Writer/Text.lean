import InstanceTables.Proofs.Declaration.Entry
import InstanceTables.Proofs.Text.Lines
import InstanceTables.Writer

/-!
# What is written

On a sink that is never full every action succeeds, and what it does to the writer can be
told in advance: `Writer.extend` appends the lines of some declarations to the sink and some
events to the log.  `run_declareFamilies` says which declarations and events these are for a
selection of families.  The text that is appended splits into the lines of the declarations
(`lines_declarationText`).
-/

namespace InstanceTables

/-- The line of a declaration, without the line feed. -/
def Declaration.line (d : Declaration) : List Char :=
  ("template class " ++ spell d ++ " ;").toList

/-- The text of declarations: the line of each. -/
def declarationText (ds : List Declaration) : String :=
  String.join (ds.map fun d => declarationLine (spell d))

@[simp] theorem declarationText_nil : declarationText [] = "" := rfl

theorem declarationText_append (ds es : List Declaration) :
    declarationText (ds ++ es) = declarationText ds ++ declarationText es := by
  simp [declarationText]

theorem toList_declarationText (ds : List Declaration) :
    (declarationText ds).toList = (ds.map Declaration.line).flatMap (· ++ ['\n']) := by
  -- unfolded, since the equations of `declarationLine` are slow to make
  unfold declarationText Declaration.line declarationLine
  simp [String.toList_join, List.flatMap_map]

/-- A declaration stands between its keywords and a semicolon. -/
theorem Declaration.affixes_line (d : Declaration) :
    "template class ".toList <+: d.line ∧ " ;".toList <:+ d.line := by
  rw [Declaration.line, String.toList_append, String.toList_append]
  refine ⟨?_, List.suffix_append _ _⟩
  rw [List.append_assoc]
  exact List.prefix_append _ _

theorem Declaration.newline_not_mem_line (d : Declaration) : '\n' ∉ d.line := by
  simp [Declaration.line, d.newline_not_mem_spell]

/-- Different declarations have different lines. -/
theorem Declaration.line_injective : Function.Injective Declaration.line := by
  intro d e h
  apply eq_of_spell_eq
  rw [← String.toList_inj]
  simpa [Declaration.line] using h

/-- The text of declarations has the line of each, and an empty piece behind the last. -/
theorem lines_declarationText (ds : List Declaration) :
    Text.lines (declarationText ds).toList = ds.map Declaration.line ++ [[]] := by
  rw [toList_declarationText, Text.lines_ended]
  intro l hl
  obtain ⟨d, -, rfl⟩ := List.mem_map.1 hl
  exact d.newline_not_mem_line

/-- The lines of a text of declarations show which declarations it is of. -/
theorem Declaration.line_mem_lines {d : Declaration} {ds : List Declaration} :
    d.line ∈ Text.lines (declarationText ds).toList ↔ d ∈ ds := by
  have hne : d.line ≠ [] := by simp [Declaration.line]
  rw [lines_declarationText, List.mem_append, List.mem_singleton, or_iff_left hne]
  exact List.mem_map_of_injective Declaration.line_injective

/-- What is logged about the families of a selection. -/
def Catalogue.familyEvents (c : Catalogue) (selected : List Family) : List Event :=
  (distinct selected).map fun f => .familyWritten f (f.declarations c).length

/-- None of it is a warning. -/
theorem Catalogue.filter_isWarning_familyEvents (c : Catalogue) (selected : List Family) :
    (c.familyEvents selected).filter Event.isWarning = [] := by
  rw [familyEvents, List.filter_map, List.map_eq_nil_iff, List.filter_eq_nil_iff]
  exact fun _ _ => Bool.false_ne_true

/-! ## Writers whose sink is never full -/

namespace Writer

/-- The writer after it has written the declarations and logged the events. -/
def extend (w : Writer) (ds : List Declaration) (events : List Event) : Writer where
  sink := { w.sink with bytes := w.sink.bytes ++ (declarationText ds).toUTF8 }
  declared := w.declared + ds.length
  log := w.log ++ events.toArray

@[simp] theorem extend_nil (w : Writer) : w.extend [] [] = w := by
  simp [extend]

theorem extend_extend (w : Writer) (ds es : List Declaration) (xs ys : List Event) :
    (w.extend ds xs).extend es ys = w.extend (ds ++ es) (xs ++ ys) := by
  simp [extend, declarationText_append, Nat.add_assoc, ByteArray.append_assoc]

end Writer

namespace Emit

variable {w : Writer} {c : Catalogue}

/-- An action that succeeds is followed by the next one. -/
theorem run_bind_of_ok {α β : Type} {x : Emit α} {k : α → Emit β} {a : α} {w' : Writer}
    (h : x.run.run w = (.ok a, w')) : (x >>= k).run.run w = (k a).run.run w' := by
  rw [ExceptT.run_bind, StateT.run_bind, h]
  rfl

theorem run_record (e : Event) : (record e).run.run w = (.ok (), w.extend [] [e]) := by
  simp [record, Writer.extend]
  rfl

theorem run_declare (h : w.sink.capacity = none) (d : Declaration) :
    (declare d).run.run w = (.ok (), w.extend [d] []) := by
  rw [declare, run_declareName, Sink.write_of_unlimited _ h]
  simp [Writer.extend, declarationText]

/-- Declarations are written in turn. -/
theorem run_declareAll (h : w.sink.capacity = none) (ds : List Declaration) :
    (declareAll ds).run.run w = (.ok (), w.extend ds []) := by
  induction ds generalizing w with
  | nil => rw [Writer.extend_nil]; rfl
  | cons d ds ih =>
    change (declare d >>= fun _ => declareAll ds).run.run w = _
    rw [run_bind_of_ok (run_declare h d), ih (w := w.extend [d] []) h, Writer.extend_extend]
    rfl

/-- The declarations of a family are written, counted and logged. -/
theorem run_declareFamily (h : w.sink.capacity = none) (f : Family) :
    (declareFamily c f).run.run w =
      (.ok (f.declarations c).length,
        w.extend (f.declarations c) [.familyWritten f (f.declarations c).length]) := by
  have hget : ∀ v : Writer, (get : Emit Writer).run.run v = (.ok v, v) := fun v => rfl
  have hcount : (w.extend (f.declarations c) []).declared - w.declared =
      (f.declarations c).length := by
    simp [Writer.extend]
  rw [declareFamily, run_bind_of_ok (hget w), run_bind_of_ok (run_declareAll h _),
    run_bind_of_ok (hget _), hcount, run_bind_of_ok (run_record _), Writer.extend_extend,
    List.append_nil, List.nil_append]
  rfl

/-- The families of a list are written one after the other, and their declarations are added
up. -/
theorem run_foldlM_declareFamily (h : w.sink.capacity = none) (fs : List Family) (n : Nat) :
    (fs.foldlM (fun n f => return n + (← declareFamily c f)) n : Emit Nat).run.run w =
      (.ok (n + (fs.flatMap (Family.declarations c)).length),
        w.extend (fs.flatMap (Family.declarations c))
          (fs.map fun f => .familyWritten f (f.declarations c).length)) := by
  induction fs generalizing w n with
  | nil =>
    rw [List.flatMap_nil, List.map_nil, Writer.extend_nil]
    rfl
  | cons f fs ih =>
    have hstep : (do return n + (← declareFamily c f) : Emit Nat).run.run w =
        (.ok (n + (f.declarations c).length),
          w.extend (f.declarations c) [.familyWritten f (f.declarations c).length]) := by
      rw [run_bind_of_ok (run_declareFamily h f)]
      rfl
    have hrest := ih (w := w.extend (f.declarations c)
      [.familyWritten f (f.declarations c).length]) h (n + (f.declarations c).length)
    rw [List.foldlM_cons, run_bind_of_ok hstep, hrest, Writer.extend_extend, List.flatMap_cons,
      List.length_append, Nat.add_assoc]
    rfl

/-- The declarations of a selection are written, counted and logged. -/
theorem run_declareFamilies (h : w.sink.capacity = none) (selected : List Family) :
    (declareFamilies c selected).run.run w =
      (.ok (c.declarations selected).length,
        w.extend (c.declarations selected) (c.familyEvents selected)) := by
  rw [declareFamilies, run_foldlM_declareFamily h, Nat.zero_add]
  rfl

end Emit

/-! ## Generated texts -/

/-- What a file generated from a catalogue says: the header and the declarations. -/
def Catalogue.generatedText (c : Catalogue) (generator : String) (selected : List Family) :
    String :=
  header generator ++ declarationText (c.declarations selected)

/-- The first line of a header, up to the name of the generator. -/
def banner : List Char :=
  "// This file was automatically generated from ".toList

/-- The second line of a header. -/
def notice : List Char :=
  "// DO NOT edit as it will be overwritten.".toList

theorem toList_header (generator : String) :
    (header generator).toList =
      banner ++ generator.toList ++ '\n' :: (notice ++ ['\n', '\n']) := by
  have hend : "\n// DO NOT edit as it will be overwritten.\n\n".toList =
      '\n' :: (notice ++ ['\n', '\n']) := by
    decide
  unfold header
  rw [String.toList_append, String.toList_append, hend]
  rfl

/-- A header has the lines of the name of its generator, the first one behind the banner. -/
theorem lines_header_append (generator : String) (text : List Char) :
    Text.lines ((header generator).toList ++ text) =
      (Text.lines generator.toList).modifyHead (banner ++ ·) ++
        notice :: [] :: Text.lines text := by
  have hbanner : '\n' ∉ banner := by decide
  have hnotice : '\n' ∉ notice := by decide
  have htext : (header generator).toList ++ text =
      banner ++ generator.toList ++ '\n' :: (notice ++ '\n' :: ([] ++ '\n' :: text)) := by
    simp [toList_header]
  rw [htext, Text.lines_append_newline, Text.lines_append_newline, Text.lines_append_newline,
    Text.lines_append_of_newline_not_mem hbanner, Text.lines_of_newline_not_mem hnotice]
  rfl

/-- The header ends its last line. -/
theorem exists_toList_header (generator : String) :
    ∃ h, (header generator).toList = h ++ ['\n'] := by
  refine ⟨banner ++ generator.toList ++ '\n' :: (notice ++ ['\n']), ?_⟩
  simp [toList_header]

/-- The lines of a generated text: those of the header, those of the declarations, and the
empty piece behind the last. -/
theorem Catalogue.exists_lines_generatedText (generator : String) :
    ∃ ls, ∀ (c : Catalogue) (selected : List Family),
      Text.lines (c.generatedText generator selected).toList =
        ls ++ ((c.declarations selected).map Declaration.line ++ [[]]) := by
  refine ⟨(Text.lines generator.toList).modifyHead (banner ++ ·) ++ [notice, []],
    fun c selected => ?_⟩
  rw [generatedText, String.toList_append, lines_header_append, lines_declarationText,
    List.append_assoc]
  rfl

namespace Writer

/-- A new writer on a sink that is never full has written the header. -/
theorem start_unlimited (generator : String) :
    start generator {} = (.ok (), { sink := { bytes := (header generator).toUTF8 } }) := by
  rw [start, Emit.run_send, Sink.write_of_unlimited _ rfl]
  simp

/-- A generated file is never cut short. -/
theorem generate_eq (generator : String) (c : Catalogue) (selected : List Family) :
    generate generator c selected =
      extend { sink := { bytes := (header generator).toUTF8 } } (c.declarations selected)
        (c.familyEvents selected) := by
  have hstart : (Emit.send (header generator)).run.run {} = _ := start_unlimited generator
  change ((Emit.send (header generator) >>= fun _ =>
    Emit.declareFamilies c selected).run.run {}).2 = _
  rw [Emit.run_bind_of_ok hstart, Emit.run_declareFamilies rfl]

theorem bytes_generate (generator : String) (c : Catalogue) (selected : List Family) :
    (generate generator c selected).sink.bytes =
      (c.generatedText generator selected).toUTF8 := by
  rw [generate_eq]
  simp [extend, Catalogue.generatedText]

/-- A generated file has the lines of the declarations behind its header, and no others. -/
theorem lines_eq_of_bytes_generate {generator : String} {c : Catalogue} {selected : List Family}
    {body : String} {lines : List (List Char)}
    (hbytes : (generate generator c selected).sink.bytes = (header generator ++ body).toUTF8)
    (hlines : Text.lines body.toList = lines ++ [[]]) :
    lines = (c.declarations selected).map Declaration.line := by
  rw [bytes_generate, Catalogue.generatedText] at hbytes
  have hbody : declarationText (c.declarations selected) = body :=
    (String.append_right_inj _).1 (String.toByteArray_inj.1 hbytes)
  rw [← hbody, lines_declarationText] at hlines
  exact (List.append_cancel_right hlines).symm

/-- Every declaration of the selection is counted. -/
theorem declared_generate (generator : String) (c : Catalogue) (selected : List Family) :
    (generate generator c selected).declared = (c.declarations selected).length := by
  rw [generate_eq]
  exact Nat.zero_add _

theorem log_generate (generator : String) (c : Catalogue) (selected : List Family) :
    (generate generator c selected).log.toList = c.familyEvents selected := by
  rw [generate_eq]
  simp [extend]

/-- A new writer appends to its header one line for each declaration of a selection, and no two
of these lines are equal. -/
theorem nodup_lines (generator : String) (seeds : List Space) (order : MaxOrder)
    (selected : List Family) :
    ∃ (w w' : Writer) (text : String) (lines : List (List Char)),
      start generator {} = (.ok (), w) ∧ w.sink.bytes = (header generator).toUTF8 ∧
      (Emit.declareFamilies (.ofSeeds seeds order) selected).run.run w =
        (.ok lines.length, w') ∧
      w'.sink.bytes = w.sink.bytes ++ text.toUTF8 ∧
      Text.lines text.toList = lines ++ [[]] ∧
      (∀ l ∈ lines, "template class ".toList <+: l ∧ " ;".toList <:+ l) ∧
      lines.Nodup := by
  have hds : ((Catalogue.ofSeeds seeds order).declarations selected).Nodup :=
    Catalogue.nodup_declarations selected
  generalize Catalogue.ofSeeds seeds order = c at hds ⊢
  refine ⟨_, extend _ (c.declarations selected) (c.familyEvents selected),
    declarationText (c.declarations selected), (c.declarations selected).map Declaration.line,
    start_unlimited generator, rfl, ?_, rfl, lines_declarationText _, ?_,
    hds.map Declaration.line_injective⟩
  · rw [List.length_map]
    exact Emit.run_declareFamilies rfl selected
  · intro l hl
    obtain ⟨d, -, rfl⟩ := List.mem_map.1 hl
    exact d.affixes_line

end Writer

end InstanceTables

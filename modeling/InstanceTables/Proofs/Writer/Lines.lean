import InstanceTables.Proofs.Writer.Selection

/-!
# Lines of generated texts

The first line of a generated text is a comment that says where the text comes from, and the name
of the generator is copied into it as it is.  A line feed in this name ends the comment, and what
follows is a line that the text is not meant to have (`plainLine_or_mem_tail`).  All other lines
are blank, comments or declarations.  So the text has only such lines, and as many as it should,
if and only if the name is on one line (`onlyDeclares_iff`).
-/

namespace InstanceTables

namespace Catalogue

variable {c : Catalogue} {generator : String} {selected : List Family} {l : List Char}

/-- A line that a generated text is meant to have. -/
inductive PlainLine (c : Catalogue) (selected : List Family) : List Char → Prop
  | blank : PlainLine c selected []
  | comment {l : List Char} (h : "//".toList <+: l) : PlainLine c selected l
  | declaration {f : Family} {name : String} (hf : f ∈ selected) (hname : name ∈ f.classNames c) :
      PlainLine c selected ("template class " ++ name ++ " ;").toList

/-- Lines of comments and declarations: the three lines of a header, and one line for each
declaration. -/
structure OnlyDeclares (c : Catalogue) (selected : List Family) (declared : Nat)
    (ls : List (List Char)) : Prop where
  plain : ∀ l ∈ ls, c.PlainLine selected l
  length_eq : ls.length = 3 + declared

/-- A line that is neither blank nor a comment begins with the keywords of a declaration. -/
theorem PlainLine.begins (h : c.PlainLine selected l) :
    l = [] ∨ "//".toList <+: l ∨ "template class ".toList <+: l := by
  cases h with
  | blank => exact .inl rfl
  | comment h => exact .inr (.inl h)
  | declaration =>
    rw [String.toList_append, String.toList_append, List.append_assoc]
    exact .inr (.inr (List.prefix_append _ _))

theorem PlainLine.of_mem_map
    (h : l ∈ (c.classNames selected).map fun name => ("template class " ++ name ++ " ;").toList) :
    c.PlainLine selected l := by
  obtain ⟨name, hname, rfl⟩ := List.mem_map.1 h
  obtain ⟨f, hf, hname⟩ := List.mem_flatMap.1 hname
  exact .declaration (List.mem_eraseDups.1 hf) hname

/-- The lines of a generated text, each of which it ends. -/
def generatedLines (c : Catalogue) (generator : String) (selected : List Family) :
    List (List Char) :=
  (Text.lines generator.toList).modifyHead (banner ++ ·) ++ notice :: [] ::
    (c.classNames selected).map fun name => ("template class " ++ name ++ " ;").toList

theorem lines_generatedText (c : Catalogue) (generator : String) (selected : List Family) :
    Text.lines (c.generatedText generator selected).toList =
      c.generatedLines generator selected ++ [[]] := by
  rw [generatedText, String.toList_append, lines_header_append, lines_declarationText,
    c.map_line_declarations, generatedLines, List.append_assoc]
  rfl

/-- A line feed in the name of the generator makes one more line. -/
theorem length_generatedLines (c : Catalogue) (generator : String) (selected : List Family) :
    (c.generatedLines generator selected).length =
      3 + generator.toList.count '\n' + (c.classNames selected).length := by
  simp only [generatedLines, List.length_append, List.length_modifyHead, Text.length_lines,
    List.length_cons, List.length_map]
  omega

/-- The later lines of the name of the generator are the only ones that may be something else. -/
theorem plainLine_or_mem_tail (hl : l ∈ c.generatedLines generator selected) :
    c.PlainLine selected l ∨ l ∈ (Text.lines generator.toList).tail := by
  obtain ⟨first, rest, hlines⟩ :=
    List.exists_cons_of_length_eq_add_one (Text.length_lines generator.toList)
  have hbanner : "//".toList <+: banner := by decide
  have hnotice : "//".toList <+: notice := by decide
  rw [generatedLines, hlines, List.modifyHead_cons, List.cons_append] at hl
  rcases List.mem_cons.1 hl with rfl | hl
  · exact .inl (.comment (hbanner.trans (List.prefix_append _ _)))
  rcases List.mem_append.1 hl with hl | hl
  · exact .inr (hlines ▸ hl)
  rcases List.mem_cons.1 hl with rfl | hl
  · exact .inl (.comment hnotice)
  rcases List.mem_cons.1 hl with rfl | hl
  · exact .inl .blank
  · exact .inl (.of_mem_map hl)

theorem onlyDeclares_generatedLines :
    c.OnlyDeclares selected (c.classNames selected).length (c.generatedLines generator selected) ↔
      '\n' ∉ generator.toList := by
  constructor
  · intro h
    have hlength := h.length_eq
    rw [length_generatedLines] at hlength
    exact List.count_eq_zero.1 (by omega)
  · intro h
    refine ⟨fun l hl => ?_, ?_⟩
    · rcases plainLine_or_mem_tail hl with hplain | htail
      · exact hplain
      · rw [Text.lines_of_newline_not_mem h] at htail
        exact absurd htail List.not_mem_nil
    · rw [length_generatedLines, List.count_eq_zero.2 h]

end Catalogue

namespace Writer

/-- A new writer on a sink that is never full sends it lines that it ends.  All of them are blank,
comments or declarations of classes of the selected families, but for those that begin inside the
name of the generator.  There are three of them in addition to the declarations, and one more for
each line feed in that name; so they are what they are meant to be if and only if it has none. -/
theorem onlyDeclares_iff (generator : String) (seeds : List Space) (order : MaxOrder)
    (selected : List Family) :
    ∃ (w w' : Writer) (text : String) (ls : List (List Char)),
      start generator {} = (.ok (), w) ∧
      (Emit.declareFamilies (.ofSeeds seeds order) selected).run.run w = (.ok w'.declared, w') ∧
      w'.sink.bytes = text.toUTF8 ∧
      Text.lines text.toList = ls ++ [[]] ∧
      (∀ l ∈ ls, (Catalogue.ofSeeds seeds order).PlainLine selected l ∨
        l ∈ (Text.lines generator.toList).tail) ∧
      ls.length = 3 + generator.toList.count '\n' + w'.declared ∧
      ((Catalogue.ofSeeds seeds order).OnlyDeclares selected w'.declared ls ↔
        '\n' ∉ generator.toList) := by
  generalize Catalogue.ofSeeds seeds order = c
  obtain ⟨w, w', hstart, hrun, hbytes, hdeclared, -⟩ := exists_generated generator c selected
  refine ⟨w, w', c.generatedText generator selected, c.generatedLines generator selected, hstart,
    hrun, hbytes, c.lines_generatedText generator selected,
    fun l hl => Catalogue.plainLine_or_mem_tail hl, ?_, ?_⟩
  · rw [hdeclared, c.length_generatedLines]
  · rw [hdeclared, Catalogue.onlyDeclares_generatedLines]

/-- The name of the generator is on two lines: the second one is neither blank nor a comment nor a
declaration, and the text has six lines where it should have five. -/
theorem not_onlyDeclares_two_lines :
    let c := Catalogue.ofSeeds [⟨1, 0, 1, 1, .hGrad⟩] ⟨0⟩
    ∃ (w w' : Writer) (text : String) (ls : List (List Char)),
      start "a\nb" {} = (.ok (), w) ∧
      (Emit.declareFamilies c [.mapping]).run.run w = (.ok 2, w') ∧ w'.declared = 2 ∧
      w'.sink.bytes = text.toUTF8 ∧
      Text.lines text.toList = ls ++ [[]] ∧
      ls = ["// This file was automatically generated from a".toList, "b".toList,
        "// DO NOT edit as it will be overwritten.".toList, [],
        "template class Mapping<1,0> ;".toList, "template class Mapping<0,1> ;".toList] ∧
      ¬ c.PlainLine [.mapping] "b".toList ∧ ls.length ≠ 3 + w'.declared ∧
      ¬ c.OnlyDeclares [.mapping] w'.declared ls := by
  intro c
  have hnames : c.classNames [.mapping] = ["Mapping<1,0>", "Mapping<0,1>"] := by
    have hselected : [Family.mapping].eraseDups = [.mapping] := by decide
    rw [Catalogue.classNames, hselected, List.flatMap_singleton, Family.classNames,
      Catalogue.mappings_curve]
    decide +kernel
  have hlines : c.generatedLines "a\nb" [.mapping] =
      ["// This file was automatically generated from a".toList, "b".toList,
        "// DO NOT edit as it will be overwritten.".toList, [],
        "template class Mapping<1,0> ;".toList, "template class Mapping<0,1> ;".toList] := by
    rw [Catalogue.generatedLines, hnames]
    decide +kernel
  have hplain : ¬ c.PlainLine [.mapping] "b".toList := by
    intro h
    have hbegins := h.begins
    revert hbegins
    decide
  obtain ⟨w, w', hstart, hrun, hbytes, hdeclared, -⟩ := exists_generated "a\nb" c [.mapping]
  rw [hnames] at hdeclared
  have htwo : w'.declared = 2 := hdeclared
  rw [htwo] at hrun
  refine ⟨w, w', c.generatedText "a\nb" [.mapping], _, hstart, hrun, htwo, hbytes,
    c.lines_generatedText "a\nb" [.mapping], hlines, hplain, ?_, fun h => hplain (h.plain _ ?_)⟩
  · rw [hlines, htwo]
    decide
  · rw [hlines]
    exact List.mem_cons_of_mem _ List.mem_cons_self

end Writer

end InstanceTables

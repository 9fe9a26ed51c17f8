import InstanceTables.Proofs.Catalogue.SeedWise
import InstanceTables.Proofs.Writer.Text

/-!
# Tables are unions over the seeds

As every table is made seed by seed, the tables of `a ++ b` hold what those of `a` and those of
`b` hold, and seeds that are put in another order or repeated permute each table.  The same is
true of the lines of a generated file.
-/

namespace InstanceTables

namespace Catalogue

variable (n : MaxOrder)

/-- What a selection declares comes seed by seed. -/
theorem seedWise_mem_declarations (selected : List Family) (d : Declaration) :
    SeedWise fun seeds => d ∈ (ofSeeds seeds n).declarations selected :=
  ((seedWise_mem_entries n d.family.table d.entry).and_const (d.family ∈ selected)).of_iff
    fun _ => mem_declarations.trans and_comm

/-- Tables of the same seeds are permutations of each other. -/
theorem perm_entries {a b : List Space} (h : ∀ s, s ∈ a ↔ s ∈ b) (t : TableName) :
    ((ofSeeds a n).entries t).Perm ((ofSeeds b n).entries t) :=
  (List.perm_ext_iff_of_nodup (nodup_entries a n t) (nodup_entries b n t)).2
    fun x => (seedWise_mem_entries n t x).congr h

variable {generator : String} {selected : List Family}

/-- The lines of the file for `a ++ b` are those of the file for `a` and of the file for `b`. -/
theorem mem_lines_generatedText_append (a b : List Space) (l : List Char) :
    l ∈ Text.lines ((ofSeeds (a ++ b) n).generatedText generator selected).toList ↔
      l ∈ Text.lines ((ofSeeds a n).generatedText generator selected).toList ∨
        l ∈ Text.lines ((ofSeeds b n).generatedText generator selected).toList := by
  obtain ⟨ls, hls⟩ := exists_lines_generatedText generator
  have hmem : ∀ c : Catalogue, l ∈ Text.lines (c.generatedText generator selected).toList ↔
      (∃ d ∈ c.declarations selected, d.line = l) ∨ l ∈ ls ∨ l ∈ [[]] := by
    intro c
    rw [hls, List.mem_append, List.mem_append, List.mem_map]
    exact or_left_comm
  have hdeclared := (SeedWise.exists_mem (seedWise_mem_declarations n selected)
    fun d => d.line = l).append a b
  rw [hmem, hmem, hmem, hdeclared]
  exact or_or_distrib_right

/-- The tables of `a ++ b` are the unions of those of `a` and of `b`; seeds in another order, or
repeated, permute each table; and the full file for `a ++ b` has the lines of the two files for
`a` and for `b`. -/
theorem tables_union (a b : List Space) :
    (∀ (t : TableName) (x : t.Entry),
      x ∈ (ofSeeds (a ++ b) n).entries t ↔
        x ∈ (ofSeeds a n).entries t ∨ x ∈ (ofSeeds b n).entries t) ∧
    ((∀ s, s ∈ a ↔ s ∈ b) →
      ∀ t, ((ofSeeds a n).entries t).Perm ((ofSeeds b n).entries t)) ∧
    ∀ generator, ∃ left right both : String,
      (Writer.generate generator (ofSeeds a n) Family.all).sink.bytes = left.toUTF8 ∧
      (Writer.generate generator (ofSeeds b n) Family.all).sink.bytes = right.toUTF8 ∧
      (Writer.generate generator (ofSeeds (a ++ b) n) Family.all).sink.bytes = both.toUTF8 ∧
      ∀ l, l ∈ Text.lines both.toList ↔
        l ∈ Text.lines left.toList ∨ l ∈ Text.lines right.toList := by
  refine ⟨fun t x => (seedWise_mem_entries n t x).append a b, perm_entries n, ?_⟩
  intro generator
  exact ⟨_, _, _, Writer.bytes_generate _ _ _, Writer.bytes_generate _ _ _,
    Writer.bytes_generate _ _ _, mem_lines_generatedText_append n a b⟩

/-- Two seeds in the other order, and one of them twice. -/
theorem tables_union_swap :
    (∀ s, s ∈ [(⟨2, 1, 1, 1, .hGrad⟩ : Space), ⟨1, 0, 2, 1, .hDiv⟩] ↔
      s ∈ [(⟨1, 0, 2, 1, .hDiv⟩ : Space), ⟨2, 1, 1, 1, .hGrad⟩, ⟨1, 0, 2, 1, .hDiv⟩]) ∧
    ∀ t, ((ofSeeds [⟨2, 1, 1, 1, .hGrad⟩, ⟨1, 0, 2, 1, .hDiv⟩] ⟨2⟩).entries t).Perm
      ((ofSeeds [⟨1, 0, 2, 1, .hDiv⟩, ⟨2, 1, 1, 1, .hGrad⟩, ⟨1, 0, 2, 1, .hDiv⟩] ⟨2⟩).entries
        t) := by
  have h : ∀ s, s ∈ [(⟨2, 1, 1, 1, .hGrad⟩ : Space), ⟨1, 0, 2, 1, .hDiv⟩] ↔
      s ∈ [(⟨1, 0, 2, 1, .hDiv⟩ : Space), ⟨2, 1, 1, 1, .hGrad⟩, ⟨1, 0, 2, 1, .hDiv⟩] := by
    intro s
    simp only [List.mem_cons, List.not_mem_nil, or_false]
    constructor
    · rintro (h | h)
      · exact .inr (.inl h)
      · exact .inl h
    · rintro (h | h | h)
      · exact .inr h
      · exact .inl h
      · exact .inr h
  exact ⟨h, (tables_union ⟨2⟩ _ _).2.1 h⟩

end Catalogue

end InstanceTables

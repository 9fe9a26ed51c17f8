import InstanceTables.Proofs.Seed.Line
import InstanceTables.Proofs.Text.Lines

/-!
# Seed texts line by line

A seed text is read one line after another, and the number of a line only matters for the error
that it has.  Texts that are put behind each other are therefore read for themselves, with the
errors of the second moved down by the lines of the first.

`readLines` reads lines from a number on.  `readLines_append` and `readLines_add` are what the
composition of texts comes from, `readLines_eq_ok_iff` and `readLines_eq_error_iff` say which
lines are accepted and which one is reported.
-/

namespace InstanceTables

namespace SeedError

def line : SeedError → Nat
  | malformedRow line _ _ => line
  | unknownTransformation line _ => line

/-- The same error `k` lines further down. -/
def shift (k : Nat) : SeedError → SeedError
  | malformedRow line row fault => malformedRow (line + k) row fault
  | unknownTransformation line kind => unknownTransformation (line + k) kind

@[simp] theorem line_shift (k : Nat) (e : SeedError) : (e.shift k).line = e.line + k := by
  cases e <;> rfl

end SeedError

namespace Seed

section Number

variable {n : Nat} {row : List Char} {fields : List (List Char)}

/-- The grammar is the same for every line. -/
theorem LineReads.shift {result : Except SeedError (Option Space)}
    (h : LineReads n row fields result) (k : Nat) :
    LineReads (n + k) row fields (result.mapError (·.shift k)) := by
  cases h with
  | skipped hrow => exact .skipped hrow
  | tooFewFields hrow hlength => exact .tooFewFields hrow hlength
  | notNumber hrow hlength hcolumns hbefore hfield =>
    exact .notNumber hrow hlength hcolumns hbefore hfield
  | unknownTransformation hrow hnumbers hkind hunknown =>
    exact .unknownTransformation hrow hnumbers hkind hunknown
  | dimensionOverflow hrow hnumbers hkind hsum => exact .dimensionOverflow hrow hnumbers hkind hsum
  | row hrow hnumbers hkind hsum => exact .row hrow hnumbers hkind hsum

/-- A line has the same row further down, or the same error there. -/
theorem parseLine_add (n k : Nat) (text : List Char) :
    parseLine (n + k) text = (parseLine n text).mapError (·.shift k) := by
  obtain ⟨row, fields, htrims, hfields, h⟩ := exists_lineReads n text
  exact (h.shift k).parseLine_eq htrims hfields

theorem LineReads.line_eq {e : SeedError} (h : LineReads n row fields (.error e)) : e.line = n := by
  cases h <;> rfl

/-- An error is in the line that has it. -/
theorem line_of_parseLine {text : List Char} {e : SeedError} (h : parseLine n text = .error e) :
    e.line = n := by
  obtain ⟨row, fields, -, -, hreads⟩ := exists_lineReads n text
  rw [h] at hreads
  exact hreads.line_eq

/-- Whether a line is accepted does not depend on its number. -/
theorem parseLine_ok_of_ok {text : List Char} {r : Option Space} (h : parseLine n text = .ok r)
    (m : Nat) : parseLine m text = .ok r := by
  have hzero : parseLine 0 text = .ok r := by
    rw [← Nat.zero_add n, parseLine_add] at h
    cases hz : parseLine 0 text <;> simp_all [Except.mapError]
  rw [← Nat.zero_add m, parseLine_add, hzero]
  rfl

end Number

/-! ## Lines from a number on -/

/-- What the lines hold, the first of them with the number `n`. -/
def readLines (n : Nat) (ls : List (List Char)) : Except SeedError (List (Option Space)) :=
  (ls.zipIdx n).mapM fun p => parseLine p.2 p.1

theorem parseTable_eq (text : String) :
    parseTable text = (readLines 1 (Text.lines text.toList)).map (·.filterMap id) := by
  unfold parseTable readLines
  cases ((Text.lines text.toList).zipIdx 1).mapM fun p => parseLine p.2 p.1 <;> rfl

theorem readLines_cons (n : Nat) (l : List Char) (ls : List (List Char)) :
    readLines n (l :: ls) = (do
      let r ← parseLine n l
      let rows ← readLines (n + 1) ls
      return r :: rows) := by
  rw [readLines, List.zipIdx_cons, List.mapM_cons]
  rfl

theorem readLines_append (n : Nat) (ls ls' : List (List Char)) :
    readLines n (ls ++ ls') = (do
      let rows ← readLines n ls
      let rows' ← readLines (n + ls.length) ls'
      return rows ++ rows') := by
  rw [readLines, List.zipIdx_append, List.mapM_append]
  rfl

/-- Further down, lines hold the same, or have the same error there. -/
theorem readLines_add (n k : Nat) (ls : List (List Char)) :
    readLines (n + k) ls = (readLines n ls).mapError (·.shift k) := by
  induction ls generalizing n with
  | nil => rfl
  | cons l ls ih =>
    rw [readLines_cons, readLines_cons, parseLine_add, Nat.add_right_comm, ih]
    cases parseLine n l with
    | error e => rfl
    | ok r => cases readLines (n + 1) ls <;> rfl

/-- Lines are accepted if each of them is, and hold the rows of each. -/
theorem readLines_eq_ok_iff {n : Nat} {ls : List (List Char)} {rows : List (Option Space)} :
    readLines n ls = .ok rows ↔
      List.Forall₂ (fun line r => ∀ m, parseLine m line = .ok r) ls rows := by
  induction ls generalizing n rows with
  | nil => cases rows <;> simp [readLines, pure, Except.pure]
  | cons l ls ih =>
    rw [readLines, mapM_eq_ok_iff, List.zipIdx_cons, List.forall₂_cons_left_iff,
      List.forall₂_cons_left_iff]
    refine exists₂_congr fun r rows => and_congr ?_ (and_congr ?_ Iff.rfl)
    · exact ⟨fun h => parseLine_ok_of_ok h, fun h => h n⟩
    · rw [← mapM_eq_ok_iff]
      exact ih

/-- The error of lines is that of the first which is not accepted. -/
theorem readLines_eq_error_iff {n : Nat} {ls : List (List Char)} {e : SeedError} :
    readLines n ls = .error e ↔
      ∃ before line after, ls = before ++ line :: after ∧ (∃ rows, readLines n before = .ok rows) ∧
        parseLine (n + before.length) line = .error e := by
  constructor
  · intro h
    obtain ⟨bs, p, as, hzip, hbs, hp⟩ := mapM_eq_error_iff.1 h
    obtain ⟨before, rest, rfl, rfl, hrest⟩ := List.zipIdx_eq_append_iff.1 hzip
    obtain ⟨line, after, rfl, rfl, rfl⟩ := List.zipIdx_eq_cons_iff.1 hrest.symm
    exact ⟨before, line, after, rfl, exists_mapM_eq_ok_iff.2 hbs, hp⟩
  · rintro ⟨before, line, after, rfl, ⟨rows, hbefore⟩, hline⟩
    rw [readLines_append, readLines_cons, hbefore, hline]
    rfl

/-! ## Texts -/

/-- A text behind another is read for itself, and its errors moved down by the lines in front. -/
theorem parseTable_append (a b : String) :
    parseTable (a ++ "\n" ++ b) = (do
      let rows ← parseTable a
      let rows' ← (parseTable b).mapError (·.shift (a.toList.count '\n' + 1))
      return rows ++ rows') := by
  have hlines : Text.lines (a ++ "\n" ++ b).toList =
      Text.lines a.toList ++ Text.lines b.toList := by
    rw [String.toList_append, String.toList_append, List.append_assoc]
    exact Text.lines_append_newline a.toList b.toList
  rw [parseTable_eq, parseTable_eq, parseTable_eq, hlines, readLines_append, readLines_add,
    Text.length_lines]
  cases readLines 1 (Text.lines a.toList) with
  | error e => rfl
  | ok rows =>
    cases readLines 1 (Text.lines b.toList) with
    | error e => rfl
    | ok rows' => exact congrArg Except.ok (List.filterMap_append ..)

/-- A text is accepted if each of its lines is, and its rows are those of its lines in turn. -/
theorem parseTable_eq_ok_iff {text : String} {rows : List Space} :
    parseTable text = .ok rows ↔
      ∃ results, List.Forall₂ (fun line r => ∀ m, parseLine m line = .ok r)
        (Text.lines text.toList) results ∧ rows = results.filterMap id := by
  rw [parseTable_eq]
  constructor
  · intro h
    cases hread : readLines 1 (Text.lines text.toList) with
    | error e =>
      rw [hread] at h
      cases h
    | ok results =>
      rw [hread] at h
      exact ⟨results, readLines_eq_ok_iff.1 hread, (Except.ok.inj h).symm⟩
  · rintro ⟨results, hresults, rfl⟩
    rw [readLines_eq_ok_iff.2 hresults]
    rfl

/-- The rows of a text that is accepted fit. -/
theorem fits_of_parseTable {text : String} {rows : List Space} (h : parseTable text = .ok rows) :
    ∀ s ∈ rows, s.Fits := by
  obtain ⟨results, hresults, rfl⟩ := parseTable_eq_ok_iff.1 h
  intro s hs
  obtain ⟨r, hr, rfl⟩ := List.mem_filterMap.1 hs
  obtain ⟨line, -, hread⟩ := exists_mem_of_forall₂ hresults.flip hr
  exact fits_of_parseLine (hread 0)

/-- A text is accepted if its lines are. -/
theorem exists_parseTable_iff {text : String} :
    (∃ rows, parseTable text = .ok rows) ↔
      ∃ results, readLines 1 (Text.lines text.toList) = .ok results := by
  rw [parseTable_eq]
  cases readLines 1 (Text.lines text.toList) <;> simp [Except.map]

/-- An empty line is no obstacle to the lines before it. -/
theorem exists_readLines_concat_nil {n : Nat} {ls : List (List Char)} :
    (∃ rows, readLines n (ls ++ [[]]) = .ok rows) ↔ ∃ rows, readLines n ls = .ok rows := by
  rw [readLines_append]
  have hnil : readLines (n + ls.length) [[]] = .ok [none] := rfl
  rw [hnil]
  cases readLines n ls <;> simp [bind, Except.bind, pure, Except.pure]

theorem parseTable_eq_error_iff_readLines {text : String} {e : SeedError} :
    parseTable text = .error e ↔ readLines 1 (Text.lines text.toList) = .error e := by
  rw [parseTable_eq]
  cases readLines 1 (Text.lines text.toList) <;> simp [Except.map]

/-- The error of a text is that of its first line which is not accepted. -/
theorem parseTable_eq_error_iff {text : String} {e : SeedError} :
    parseTable text = .error e ↔
      ∃ before line after, text.toList = before ++ line ++ after ∧
        Text.IsLine before line after ∧ (∃ rows, parseTable (.ofList before) = .ok rows) ∧
        parseLine (before.count '\n' + 1) line = .error e := by
  -- the text in front ends in an empty line, in the place of the one that is reported
  have hnumber {before : List Char} {ls : List (List Char)}
      (h : Text.lines before = ls ++ [[]]) : 1 + ls.length = before.count '\n' + 1 := by
    rw [← Text.length_lines, h, List.length_append, List.length_singleton, Nat.add_comm]
  rw [parseTable_eq_error_iff_readLines, readLines_eq_error_iff]
  constructor
  · rintro ⟨ls, line, ls', hlines, hls, hline⟩
    obtain ⟨before, after, htext, hisLine, hbefore⟩ := Text.exists_isLine hlines
    refine ⟨before, line, after, htext, hisLine, ?_, ?_⟩
    · rw [exists_parseTable_iff, String.toList_ofList, hbefore]
      exact exists_readLines_concat_nil.2 hls
    · rw [← hnumber hbefore]
      exact hline
  · rintro ⟨before, line, after, htext, hisLine, haccepted, hline⟩
    obtain ⟨ls, ls', hbefore, hlines⟩ := Text.lines_of_isLine hisLine
    refine ⟨ls, line, ls', ?_, ?_, ?_⟩
    · rw [htext, hlines]
    · rw [exists_parseTable_iff, String.toList_ofList, hbefore] at haccepted
      exact exists_readLines_concat_nil.1 haccepted
    · rw [hnumber hbefore]
      exact hline

/-- Seed texts are read line by line: texts that are joined by a line feed are read for
themselves, a text is accepted if its lines are, and the first that is not gives the error, with
its number in the text. -/
theorem parseTable_by_line :
    (∀ a b : String, parseTable (a ++ "\n" ++ b) = (do
      let rows ← parseTable a
      let rows' ← (parseTable b).mapError (·.shift (a.toList.count '\n' + 1))
      return rows ++ rows')) ∧
    (∀ (k : Nat) (e : SeedError), (e.shift k).line = e.line + k) ∧
    (∀ (text : String) (rows : List Space), parseTable text = .ok rows ↔
      ∃ results, List.Forall₂ (fun line r => ∀ m, parseLine m line = .ok r)
        (Text.lines text.toList) results ∧ rows = results.filterMap id) ∧
    ∀ (text : String) (e : SeedError), parseTable text = .error e ↔
      ∃ before line after, text.toList = before ++ line ++ after ∧
        Text.IsLine before line after ∧ (∃ rows, parseTable (.ofList before) = .ok rows) ∧
        parseLine (before.count '\n' + 1) line = .error e ∧
        e.line = before.count '\n' + 1 := by
  refine ⟨parseTable_append, fun k e => SeedError.line_shift k e,
    fun text rows => parseTable_eq_ok_iff, ?_⟩
  intro text e
  rw [parseTable_eq_error_iff]
  constructor
  · rintro ⟨before, line, after, htext, hisLine, haccepted, hline⟩
    exact ⟨before, line, after, htext, hisLine, haccepted, hline, line_of_parseLine hline⟩
  · rintro ⟨before, line, after, htext, hisLine, haccepted, hline, -⟩
    exact ⟨before, line, after, htext, hisLine, haccepted, hline⟩

/-- Comments and empty lines count as well. -/
example :
    parseTable "# seeds\n\n2 0 1 1 h_grad\r\n1 0 1 x h_div\n? ?" =
      .error (.malformedRow 4 "1 0 1 x h_div" (.notNumber .rank "x")) := by
  decide +kernel

end Seed

end InstanceTables

import InstanceTables.Proofs.Text.Fields
import InstanceTables.Proofs.Text.Numeral
import InstanceTables.Proofs.Traversal
import InstanceTables.Seed

/-!
# Lines of seed texts

`LineReads` is the grammar of a line: which texts hold no row, which hold which row, and which of
several faults is reported.
-/

namespace InstanceTables.Seed

/-- The columns that hold numbers, in the order of the fields of a row. -/
def columns : List Column := [.dim, .codim, .range, .rank]

/-- The line holds no row: it is empty, or a comment. -/
def NoRow (row : List Char) : Prop := row = [] ∨ ∃ comment, row = '#' :: comment

/-- There are enough fields, and the first four of them are numerals of the words. -/
def Numbers (fields : List (List Char)) (dim codim range rank : UInt32) : Prop :=
  5 ≤ fields.length ∧
    List.Forall₂ (fun field n => Text.IsNumeral field n.toNat) (fields.take 4)
      [dim, codim, range, rank]

/-- What is read from a line, of which `row` is left without white space at its ends and
`fields` are the fields. -/
inductive LineReads (line : Nat) (row : List Char) (fields : List (List Char)) :
    Except SeedError (Option Space) → Prop
  | skipped (hrow : NoRow row) : LineReads line row fields (.ok none)
  | tooFewFields (hrow : ¬ NoRow row) (hlength : fields.length < 5) :
    LineReads line row fields
      (.error (.malformedRow line (.ofList row) (.tooFewFields fields.length)))
  /-- The leftmost of the numeric columns that is no numeral is reported. -/
  | notNumber (hrow : ¬ NoRow row) (hlength : 5 ≤ fields.length)
    {before after : List (Column × List Char)} {column : Column} {field : List Char}
    (hcolumns : columns.zip fields = before ++ (column, field) :: after)
    (hbefore : ∀ p ∈ before, ∃ n : UInt32, Text.IsNumeral p.2 n.toNat)
    (hfield : ∀ n : UInt32, ¬ Text.IsNumeral field n.toNat) :
    LineReads line row fields
      (.error (.malformedRow line (.ofList row) (.notNumber column (.ofList field))))
  | unknownTransformation (hrow : ¬ NoRow row) {dim codim range rank : UInt32}
    (hnumbers : Numbers fields dim codim range rank) {kind : List Char}
    (hkind : fields.getLast? = some kind)
    (hunknown : ∀ t : Transformation, kind ≠ t.name.toList) :
    LineReads line row fields (.error (.unknownTransformation line (.ofList kind)))
  | dimensionOverflow (hrow : ¬ NoRow row) {dim codim range rank : UInt32}
    (hnumbers : Numbers fields dim codim range rank) {t : Transformation}
    (hkind : fields.getLast? = some t.name.toList)
    (hsum : UInt32.size ≤ dim.toNat + codim.toNat) :
    LineReads line row fields (.error (.malformedRow line (.ofList row) .dimensionOverflow))
  | row (hrow : ¬ NoRow row) {dim codim range rank : UInt32}
    (hnumbers : Numbers fields dim codim range rank) {t : Transformation}
    (hkind : fields.getLast? = some t.name.toList)
    (hsum : dim.toNat + codim.toNat < UInt32.size) :
    LineReads line row fields (.ok (some ⟨dim, codim, range, rank, t⟩))

/-- A field of a numeric column is read if it is a numeral of a word. -/
theorem number_eq_ok_iff {column : Column} {field : List Char} {n : UInt32} :
    number column field = .ok n ↔ Text.IsNumeral field n.toNat := by
  rw [number, ← Text.word?_eq_some_iff]
  cases Text.word? field <;> simp

theorem number_eq_error_iff {column : Column} {field : List Char} {fault : RowFault} :
    number column field = .error fault ↔
      (∀ n : UInt32, ¬ Text.IsNumeral field n.toNat) ∧
        fault = .notNumber column (.ofList field) := by
  rw [number, ← Text.word?_eq_none_iff]
  cases Text.word? field <;> simp [eq_comm]

theorem transformation_name (line : Nat) (t : Transformation) :
    transformation line t.name.toList = .ok t := by
  rw [transformation, String.ofList_toList, Transformation.parse_name]
  rfl

/-- A field that is no name of a transformation is reported. -/
theorem transformation_of_forall_ne (line : Nat) {kind : List Char}
    (h : ∀ t : Transformation, kind ≠ t.name.toList) :
    transformation line kind = .error (.unknownTransformation line (.ofList kind)) := by
  have hname : ∀ t : Transformation, t.name ≠ .ofList kind := fun t ht => h t (by simp [ht])
  rw [transformation, Transformation.parse_eq_error_iff.2 ⟨hname, rfl⟩]
  rfl

/-- The numbers in the fields of the numeric columns, or the first fault of these. -/
def readNumbers (fields : List (List Char)) : Except RowFault (List UInt32) :=
  (columns.zip fields).mapM fun p => number p.1 p.2

/-! ## Rows -/

variable {line : Nat} {row : List Char}

theorem isSkipped_iff : isSkipped row ↔ NoRow row := by
  simp [isSkipped, NoRow, List.head?_eq_some_iff]

theorem parseRow_of_length_lt (h : (Text.words row).length < 5) :
    parseRow line row =
      .error (.malformedRow line (.ofList row) (.tooFewFields (Text.words row).length)) := by
  unfold parseRow
  split
  · next hwords =>
    rw [hwords] at h
    simp only [List.length_cons] at h
    omega
  · rfl

theorem exists_fields_of_length {fields : List (List Char)} (h : 5 ≤ fields.length) :
    ∃ dim codim range rank field rest, fields = dim :: codim :: range :: rank :: field :: rest := by
  match fields, h with
  | dim :: codim :: range :: rank :: field :: rest, _ =>
    exact ⟨dim, codim, range, rank, field, rest, rfl⟩

/-- The first field that is no number decides the error. -/
theorem parseRow_of_error (hlength : 5 ≤ (Text.words row).length) {fault : RowFault}
    (h : readNumbers (Text.words row) = .error fault) :
    parseRow line row = .error (.malformedRow line (.ofList row) fault) := by
  obtain ⟨dim, codim, range, rank, field, rest, hwords⟩ := exists_fields_of_length hlength
  unfold parseRow
  rw [hwords] at h ⊢
  simp only [readNumbers, columns, List.zip_cons_cons, List.mapM_cons, List.zip_nil_left,
    List.mapM_nil] at h
  cases hdim : number .dim dim <;> cases hcodim : number .codim codim <;>
    cases hrange : number .range range <;> cases hrank : number .rank rank <;>
    simp_all [bind, Except.bind, Except.mapError, pure, Except.pure]

/-- Once the numbers are read, the last field and the sum of the dimensions are looked at. -/
theorem parseRow_of_numbers {dim codim range rank : UInt32}
    (h : Numbers (Text.words row) dim codim range rank) {kind : List Char}
    (hkind : (Text.words row).getLast? = some kind) :
    parseRow line row = (do
      let t ← transformation line kind
      let space : Space := ⟨dim, codim, range, rank, t⟩
      if space.Fits then return space
      else throw (.malformedRow line (.ofList row) .dimensionOverflow)) := by
  obtain ⟨hlength, hnumbers⟩ := h
  obtain ⟨dim', codim', range', rank', field, rest, hwords⟩ := exists_fields_of_length hlength
  rw [hwords] at hnumbers hkind
  obtain ⟨hdim, hcodim, hrange, hrank⟩ : Text.IsNumeral dim' dim.toNat ∧
      Text.IsNumeral codim' codim.toNat ∧ Text.IsNumeral range' range.toNat ∧
      Text.IsNumeral rank' rank.toNat := by
    simpa using hnumbers
  have hlast : rest.getLastD field = kind := by
    simpa [List.getLast?_cons, List.getLastD_eq_getLast?] using hkind
  unfold parseRow
  rw [hwords]
  simp only [number_eq_ok_iff.2 hdim, number_eq_ok_iff.2 hcodim, number_eq_ok_iff.2 hrange,
    number_eq_ok_iff.2 hrank, hlast]
  rfl

/-- A row whose numbers and transformation are read is accepted if the sum is a word. -/
theorem parseRow_of_name {dim codim range rank : UInt32}
    (h : Numbers (Text.words row) dim codim range rank) {t : Transformation}
    (hkind : (Text.words row).getLast? = some t.name.toList) :
    parseRow line row =
      if dim.toNat + codim.toNat < UInt32.size then .ok ⟨dim, codim, range, rank, t⟩
      else .error (.malformedRow line (.ofList row) .dimensionOverflow) := by
  rw [parseRow_of_numbers h hkind, transformation_name]
  rfl

/-- If no field of a numeric column is in error, there are four numbers. -/
theorem exists_numbers {fields : List (List Char)} (hlength : 5 ≤ fields.length)
    {ns : List UInt32} (h : readNumbers fields = .ok ns) :
    ∃ dim codim range rank, Numbers fields dim codim range rank := by
  obtain ⟨dim, codim, range, rank, field, rest, rfl⟩ := exists_fields_of_length hlength
  have hnumbers := mapM_eq_ok_iff.1 h
  simp only [columns, List.zip_cons_cons, List.zip_nil_left, List.forall₂_cons_left_iff,
    List.forall₂_nil_left_iff, number_eq_ok_iff] at hnumbers
  obtain ⟨dim, _, hdim, ⟨codim, _, hcodim, ⟨range, _, hrange, ⟨rank, _, hrank, -, -⟩, -⟩, -⟩, -⟩ :=
    hnumbers
  exact ⟨dim, codim, range, rank, hlength, by simp [hdim, hcodim, hrange, hrank]⟩

/-- A row is read in one of the ways that the grammar has for it. -/
theorem lineReads_parseRow (hrow : ¬ NoRow row) :
    LineReads line row (Text.words row) ((parseRow line row).map some) := by
  by_cases hlength : 5 ≤ (Text.words row).length
  · cases hns : readNumbers (Text.words row) with
    | error fault =>
      rw [parseRow_of_error hlength hns]
      obtain ⟨before, ⟨column, field⟩, after, hcolumns, hbefore, hfield⟩ :=
        mapM_eq_error_iff.1 hns
      obtain ⟨hnone, rfl⟩ := number_eq_error_iff.1 hfield
      refine .notNumber hrow hlength hcolumns (fun p hp => ?_) hnone
      obtain ⟨n, hn⟩ := hbefore p hp
      exact ⟨n, number_eq_ok_iff.1 hn⟩
    | ok ns =>
      obtain ⟨dim, codim, range, rank, hnumbers⟩ := exists_numbers hlength hns
      have hne : Text.words row ≠ [] := List.ne_nil_of_length_pos (by omega)
      have hkind := List.getLast?_eq_some_getLast hne
      generalize (Text.words row).getLast hne = kind at hkind
      by_cases hname : ∃ t : Transformation, kind = t.name.toList
      · obtain ⟨t, rfl⟩ := hname
        rw [parseRow_of_name hnumbers hkind]
        by_cases hsum : dim.toNat + codim.toNat < UInt32.size
        · rw [if_pos hsum]
          exact .row hrow hnumbers hkind hsum
        · rw [if_neg hsum]
          exact .dimensionOverflow hrow hnumbers hkind (Nat.not_lt.1 hsum)
      · rw [not_exists] at hname
        rw [parseRow_of_numbers hnumbers hkind, transformation_of_forall_ne line hname]
        exact .unknownTransformation hrow hnumbers hkind hname
  · rw [parseRow_of_length_lt (Nat.not_le.1 hlength)]
    exact .tooFewFields hrow (Nat.not_le.1 hlength)

/-- The grammar leaves no choice: what it allows for a row is what is read. -/
theorem LineReads.parseRow_eq {result : Except SeedError (Option Space)}
    (h : LineReads line row (Text.words row) result) (hrow : ¬ NoRow row) :
    (parseRow line row).map some = result := by
  cases h with
  | skipped hskipped => exact absurd hskipped hrow
  | tooFewFields _ hlength =>
    rw [parseRow_of_length_lt hlength]
    rfl
  | notNumber _ hlength hcolumns hbefore hfield =>
    have hns : readNumbers (Text.words row) = .error _ := mapM_eq_error_iff.2
      ⟨_, _, _, hcolumns, fun p hp => (hbefore p hp).imp fun n hn => number_eq_ok_iff.2 hn,
        number_eq_error_iff.2 ⟨hfield, rfl⟩⟩
    rw [parseRow_of_error hlength hns]
    rfl
  | unknownTransformation _ hnumbers hkind hunknown =>
    rw [parseRow_of_numbers hnumbers hkind, transformation_of_forall_ne line hunknown]
    rfl
  | dimensionOverflow _ hnumbers hkind hsum =>
    rw [parseRow_of_name hnumbers hkind, if_neg (Nat.not_lt.2 hsum)]
    rfl
  | row _ hnumbers hkind hsum =>
    rw [parseRow_of_name hnumbers hkind, if_pos hsum]
    rfl

/-! ## Lines -/

theorem parseLine_of_noRow {text : List Char} (h : NoRow (Text.trim text)) :
    parseLine line text = .ok none := by
  rw [parseLine, if_pos (isSkipped_iff.2 h)]

theorem parseLine_of_row {text : List Char} (h : ¬ NoRow (Text.trim text)) :
    parseLine line text = (parseRow line (Text.trim text)).map some := by
  rw [parseLine, if_neg (mt isSkipped_iff.1 h)]

/-- Every line is read in one of the ways that the grammar has for it. -/
theorem exists_lineReads (line : Nat) (text : List Char) :
    ∃ row fields, Text.Trims text row ∧ Text.Fields row fields ∧
      LineReads line row fields (parseLine line text) := by
  refine ⟨Text.trim text, Text.words (Text.trim text), Text.trims_trim text,
    Text.words_eq_iff.1 rfl, ?_⟩
  by_cases hrow : NoRow (Text.trim text)
  · rw [parseLine_of_noRow hrow]
    exact .skipped hrow
  · rw [parseLine_of_row hrow]
    exact lineReads_parseRow hrow

/-- What the grammar allows for a line is what is read. -/
theorem LineReads.parseLine_eq {text : List Char} {fields : List (List Char)}
    {result : Except SeedError (Option Space)} (h : LineReads line row fields result)
    (htrims : Text.Trims text row) (hfields : Text.Fields row fields) :
    parseLine line text = result := by
  obtain rfl := Text.trim_eq_iff.2 htrims
  obtain rfl := Text.words_eq_iff.2 hfields
  by_cases hrow : NoRow (Text.trim text)
  · rw [parseLine_of_noRow hrow]
    cases h with
    | skipped => rfl
    | _ => contradiction
  · rw [parseLine_of_row hrow]
    exact h.parseRow_eq hrow

/-- A row that is accepted fits. -/
theorem fits_of_parseLine {text : List Char} {s : Space} (h : parseLine line text = .ok (some s)) :
    s.Fits := by
  obtain ⟨row, fields, -, -, hreads⟩ := exists_lineReads line text
  rw [h] at hreads
  cases hreads with
  | row _ _ _ hsum => exact hsum

/-- A line that begins with a numeral holds a row. -/
theorem not_noRow_of_isNumeral {text dim : List Char} {fields : List (List Char)} {d : Nat}
    (htrims : Text.Trims text row) (hfields : Text.Fields row (dim :: fields))
    (hdim : Text.IsNumeral dim d) : ¬ NoRow row := by
  obtain ⟨left, right, -, -, -, hends, -⟩ := htrims
  have hhead := hfields.head?_eq hends
  rintro (rfl | ⟨comment, rfl⟩)
  · exact absurd (List.head?_eq_none_iff.1 hhead.symm) hdim.ne_nil
  · have hmem : '#' ∈ dim := List.mem_of_mem_head? hhead.symm
    rcases hdim.plus_or_isDigit _ hmem with h | h
    · exact absurd h (by decide)
    · exact absurd h (by decide)

/-- In a line that is accepted, two numerals in front have a sum that is a word. -/
theorem sum_lt_of_parseLine {text dim codim : List Char} {fields : List (List Char)} {d c : Nat}
    {r : Option Space} (h : parseLine line text = .ok r) (htrims : Text.Trims text row)
    (hfields : Text.Fields row (dim :: codim :: fields)) (hdim : Text.IsNumeral dim d)
    (hcodim : Text.IsNumeral codim c) : d + c < UInt32.size := by
  have hrow := not_noRow_of_isNumeral htrims hfields hdim
  obtain ⟨row', fields', htrims', hfields', hreads⟩ := exists_lineReads line text
  obtain rfl : row' = row := (Text.trim_eq_of_trims htrims').symm.trans
    (Text.trim_eq_of_trims htrims)
  obtain rfl : fields' = dim :: codim :: fields := hfields'.words_eq.symm.trans hfields.words_eq
  rw [h] at hreads
  cases hreads with
  | skipped hnone => exact absurd hnone hrow
  | row _ hnumbers _ hsum =>
    obtain ⟨hlength, hnumerals⟩ := hnumbers
    simp only [List.take_succ_cons, List.forall₂_cons] at hnumerals
    rwa [hdim.value_unique hnumerals.1, hcodim.value_unique hnumerals.2.1]

/-- The grammar decides every line, faults and their order included. -/
theorem parseLine_eq_iff (line : Nat) (text : List Char) :
    (∀ result, parseLine line text = result ↔
      ∃ row fields, Text.Trims text row ∧ Text.Fields row fields ∧
        LineReads line row fields result) ∧
    (∀ found, (RowFault.tooFewFields found).message =
      "expected at least 5 fields, found " ++ toString found) ∧
    (∀ column field, (RowFault.notNumber column field).message =
      column.name ++ " '" ++ field ++ "' is not a non-negative integer") ∧
    RowFault.dimensionOverflow.message = "dim + codim overflows" := by
  refine ⟨fun result => ⟨?_, ?_⟩, fun _ => rfl, fun _ _ => rfl, rfl⟩
  · rintro rfl
    exact exists_lineReads line text
  · rintro ⟨row, fields, htrims, hfields, h⟩
    exact h.parseLine_eq htrims hfields

/-- Of several faults, that of the leftmost number is reported. -/
example :
    parseLine 3 " +02 x 1\t-1 h_curl\r".toList =
      .error (.malformedRow 3 "+02 x 1\t-1 h_curl" (.notNumber .codim "x")) := by
  decide +kernel

end InstanceTables.Seed

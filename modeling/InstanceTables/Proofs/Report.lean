import InstanceTables.Proofs.Catalogue.Projection
import InstanceTables.Proofs.Container.Enumeration
import InstanceTables.Proofs.Writer.Text
import InstanceTables.Report
import Mathlib.Data.List.TakeWhile
import Mathlib.Tactic.Ring

/-!
# What the report accounts for

A report gives the length of each table on a line of its own, and these numbers can be read back
(`Report.read_report`): apart from these lines only that of the highest order has a colon in it.

The numbers account for the file that is generated from the same catalogue.  The first account
adds up the tables that are declared, and holds of any catalogue.  The second one goes back to the
few tables that the others are made from; it holds because nothing but copies is lost on the way,
so that for instance each dimension has three arrays and each tensor type has one.
-/

namespace InstanceTables

/-! ## Reading a report -/

namespace Text

/-- The number that the text stands for if it is one or more digits. -/
def number? (cs : List Char) : Option Nat :=
  if cs ≠ [] ∧ cs.all Char.isDigit then some (digitsValue cs) else none

theorem number?_toDigits (n : Nat) : number? (Nat.toDigits 10 n) = some n := by
  have hdigits : (Nat.toDigits 10 n).all Char.isDigit :=
    List.all_eq_true.2 fun _ => isDigit_of_mem_toDigits
  rw [number?, if_pos ⟨Nat.toDigits_ne_nil, hdigits⟩, digitsValue_toDigits]

theorem mem_intercalate {sep : List Char} {ls : List (List Char)} {c : Char}
    (h : c ∈ sep.intercalate ls) : c ∈ sep ∨ ∃ l ∈ ls, c ∈ l := by
  induction ls with
  | nil => simp at h
  | cons l ls ih =>
    cases ls with
    | nil => exact .inr ⟨l, List.mem_cons_self, by simpa using h⟩
    | cons l' ls =>
      rw [List.intercalate_cons_cons, List.mem_append, List.mem_append] at h
      rcases h with (h | h) | h
      · exact .inr ⟨l, List.mem_cons_self, h⟩
      · exact .inl h
      · rcases ih h with h | ⟨m, hm, h⟩
        · exact .inl h
        · exact .inr ⟨m, List.mem_cons_of_mem _ hm, h⟩

end Text

namespace Report

/-- The name and the number on a line of the form `name: number`. -/
def sizeOfLine? (line : List Char) : Option (String × Nat) :=
  match line.dropWhile (· ≠ ':') with
  | ':' :: ' ' :: digits =>
    (Text.number? digits).map fun n => (String.ofList (line.takeWhile (· ≠ ':')), n)
  | _ => none

def read (text : String) : List (String × Nat) :=
  (Text.lines text.toList).filterMap sizeOfLine?

/-- The number that a text gives for a name. -/
def size? (text name : String) : Option Nat := (read text).lookup name

/-- The line of a name and a number, without the line feed. -/
def lineOf (size : String × Nat) : List Char :=
  size.1.toList ++ ':' :: ' ' :: Nat.toDigits 10 size.2

theorem sizeOfLine?_of_not_mem {line : List Char} (h : ':' ∉ line) : sizeOfLine? line = none := by
  have hdrop : line.dropWhile (· ≠ ':') = [] := by
    rw [List.dropWhile_eq_nil_iff]
    intro c hc
    simpa using ne_of_mem_of_not_mem hc h
  rw [sizeOfLine?, hdrop]

theorem sizeOfLine?_lineOf {size : String × Nat} (h : ':' ∉ size.1.toList) :
    sizeOfLine? (lineOf size) = some size := by
  have hname : ∀ c ∈ size.1.toList, decide (c ≠ ':') := by
    intro c hc
    simpa using ne_of_mem_of_not_mem hc h
  have hdrop : (lineOf size).dropWhile (· ≠ ':') = ':' :: ' ' :: Nat.toDigits 10 size.2 := by
    rw [lineOf, List.dropWhile_append_of_pos hname]
    rfl
  have htake : (lineOf size).takeWhile (· ≠ ':') = size.1.toList := by
    rw [lineOf, List.takeWhile_append_of_pos hname]
    simp
  rw [sizeOfLine?, hdrop, htake, String.ofList_toList]
  simp only [Text.number?_toDigits, Option.map_some]

theorem newline_not_mem_lineOf {size : String × Nat} (h : '\n' ∉ size.1.toList) :
    '\n' ∉ lineOf size := by
  have hdigits : '\n' ∉ Nat.toDigits 10 size.2 := fun hmem =>
    absurd (Text.isDigit_of_mem_toDigits hmem) (by decide)
  simp [lineOf, h, hdigits]

/-- The names of the tables whose lengths are reported. -/
def names : List String :=
  ["user", "face", "all", "extended", "domain_dims", "mapping_dims", "function_dims",
    "derivatives", "values", "dynamic_multi_arrays", "cartesian_product_arrays", "value_vectors",
    "value_tables", "ref_spaces", "push_forwards", "physical_spaces"]

end Report

namespace Catalogue

variable (c : Catalogue)

/-- The lines of a report in front of the sizes: a heading, the rows and a blank line. -/
def headLines : List (List Char) :=
  "dim codim range rank space_dim".toList ::
    c.spaces.all.map (fun s => [' '].intercalate
      ([s.dim, s.codim, s.range, s.rank, s.spaceDim].map fun d => (Text.decimal d).toList)) ++ [[]]

/-- The names and numbers of a report: the highest order and the sizes. -/
def reported : List (String × Nat) := ("max_der_order", c.maxOrder.max.toNat) :: c.sizes

/-- Neither a colon nor a line feed occurs in the heading, in a row or in a blank line. -/
theorem not_mem_of_mem_headLines {line : List Char} (h : line ∈ c.headLines) :
    ':' ∉ line ∧ '\n' ∉ line := by
  simp only [headLines, List.cons_append, List.mem_cons, List.mem_append, List.mem_map,
    List.not_mem_nil, or_false] at h
  rcases h with rfl | ⟨s, -, rfl⟩ | rfl
  · decide
  · have hrow : ∀ d ∈ [' '].intercalate ([s.dim, s.codim, s.range, s.rank, s.spaceDim].map
        fun d => (Text.decimal d).toList), d = ' ' ∨ d.isDigit := by
      intro d hd
      rcases Text.mem_intercalate hd with hd | ⟨l, hl, hd⟩
      · exact .inl (List.mem_singleton.1 hd)
      · obtain ⟨k, -, rfl⟩ := List.mem_map.1 hl
        exact .inr (Text.isDigit_of_mem_decimal hd)
    exact ⟨fun h => absurd (hrow _ h) (by decide), fun h => absurd (hrow _ h) (by decide)⟩
  · exact ⟨List.not_mem_nil, List.not_mem_nil⟩

/-- No name has a colon or a line feed in it. -/
theorem not_mem_of_mem_reported {size : String × Nat} (h : size ∈ c.reported) :
    ':' ∉ size.1.toList ∧ '\n' ∉ size.1.toList := by
  have hnames : ∀ name ∈ "max_der_order" :: Report.names,
      ':' ∉ name.toList ∧ '\n' ∉ name.toList := by decide
  exact hnames _ (List.mem_map_of_mem (f := Prod.fst) h)

/-- The report line by line. -/
theorem toList_report :
    c.report.toList = (c.headLines ++ c.reported.map Report.lineOf).flatMap (· ++ ['\n']) := by
  have horder : "\nmax_der_order: " = "\n" ++ "max_der_order" ++ ": " := by decide
  have hheading : "dim codim range rank space_dim\n" =
    "dim codim range rank space_dim" ++ "\n" := by decide
  unfold report rowLine sizeLine headLines reported Report.lineOf MaxOrder.text
  rw [horder, hheading]
  simp [String.toList_join, List.flatMap_map]

/-- A report can be read back. -/
theorem read_report : Report.read c.report = c.reported := by
  have hended : ∀ line ∈ c.headLines ++ c.reported.map Report.lineOf, '\n' ∉ line := by
    intro line hline
    rcases List.mem_append.1 hline with hline | hline
    · exact (c.not_mem_of_mem_headLines hline).2
    · obtain ⟨size, hsize, rfl⟩ := List.mem_map.1 hline
      exact Report.newline_not_mem_lineOf (c.not_mem_of_mem_reported hsize).2
  have hhead : c.headLines.filterMap Report.sizeOfLine? = [] :=
    List.filterMap_eq_nil_iff.2 fun line hline =>
      Report.sizeOfLine?_of_not_mem (c.not_mem_of_mem_headLines hline).1
  have hsizes : (c.reported.map Report.lineOf).filterMap Report.sizeOfLine? = c.reported := by
    rw [List.filterMap_map, List.filterMap_congr (g := some), List.filterMap_some]
    exact fun size hsize => Report.sizeOfLine?_lineOf (c.not_mem_of_mem_reported hsize).1
  rw [Report.read, toList_report, Text.lines_ended hended, List.filterMap_append,
    List.filterMap_append, hhead, hsizes]
  rfl

/-- The number that the report gives for a table is its length. -/
theorem size?_report {name : String} (h : name ∈ Report.names) :
    Report.size? c.report name = some ((c.sizes.lookup name).getD 0) := by
  have horder : (name == "max_der_order") = false := by
    have hnames : "max_der_order" ∉ Report.names := by decide
    exact beq_false_of_ne (ne_of_mem_of_not_mem h hnames)
  have hsome : (c.sizes.lookup name).isSome := by
    obtain ⟨size, hsize, rfl⟩ := List.mem_map.1 (show name ∈ c.sizes.map Prod.fst from h)
    exact List.lookup_isSome_iff.2 ⟨size, hsize, beq_self_eq_true _⟩
  rw [Report.size?, read_report, reported, List.lookup_cons, horder]
  exact (Option.some_get hsome).symm.trans (by rw [Option.get_eq_getD])

/-! ## Accounts of the declarations -/

/-- The declarations of all families are the entries of their tables. -/
theorem length_declarations_all :
    (c.declarations Family.all).length =
      c.tensors.derivatives.length + c.tensors.values.length + 7 * c.containers.dims.length +
        c.containers.dynamicMultiArrays.length + c.containers.cartesianProductArrays.length +
        c.containers.valueVectors.length + c.containers.valueTables.length +
        c.shapes.mappings.length + c.splines.refSpaces.length + c.splines.pushForwards.length +
        c.splines.physicalSpaces.length := by
  have hall : distinct Family.all = Family.all := distinct_of_nodup (by decide)
  rw [declarations, hall]
  simp only [Family.all, DimClass.all, Family.declarations, ContainerTable.perDim,
    List.map_cons, List.map_nil, List.cons_append, List.nil_append, List.flatMap_cons,
    List.flatMap_nil, List.length_append, List.length_map, List.length_nil,
    TensorTable.length_tensors]
  ring

variable (seeds : List Space) (n : MaxOrder)

theorem hasLengths_containers :
    (ofSeeds seeds n).containers.HasLengths (ofSeeds seeds n).spaces.dims.length
      (ofSeeds seeds n).tensors.tensors.length := by
  rw [containers_ofSeeds]
  exact (ContainerTable.enumerates_build _ (nodup_tensors seeds n)).hasLengths

/-- Each reference row stands for a reference space of either kind. -/
theorem length_refSpaces :
    (ofSeeds seeds n).splines.refSpaces.length = 2 * (ofSeeds seeds n).spaces.extended.length := by
  have hnodup : (ofSeeds seeds n).shapes.refShapes.Nodup := nodup_entries seeds n .refShapes
  rw [splines_ofSeeds, extended_eq, List.length_map]
  exact (length_refSpaceTable _).trans (by rw [distinct_of_nodup hnodup])

theorem length_user_eq_zero_iff : (ofSeeds seeds n).spaces.user.length = 0 ↔ seeds = [] := by
  rw [List.length_eq_zero_iff]
  exact distinct_eq_nil_iff

theorem length_tensors_eq_zero_iff :
    (ofSeeds seeds n).tensors.tensors.length = 0 ↔ seeds = [] := by
  rw [List.length_eq_zero_iff]
  refine not_iff_not.1 (Iff.trans ?_ (exists_mem_tensors_iff (n := n)))
  exact ⟨List.exists_mem_of_ne_nil _, fun ⟨_, ht⟩ => List.ne_nil_of_mem ht⟩

/-- The declarations in terms of the tables that the others are made from: four for each tensor
type, seventeen for each dimension, and two for each reference row and each row of the closure. -/
theorem length_declarations_all_ofSeeds :
    ((ofSeeds seeds n).declarations Family.all).length =
      4 * ((ofSeeds seeds n).tensors.derivatives.length +
          (ofSeeds seeds n).tensors.values.length) +
        17 * (ofSeeds seeds n).spaces.dims.length + (ofSeeds seeds n).shapes.mappings.length +
        2 * (ofSeeds seeds n).spaces.extended.length +
        (ofSeeds seeds n).splines.pushForwards.length +
        2 * (ofSeeds seeds n).spaces.all.length +
        if (ofSeeds seeds n).spaces.user.length = 0 then 0 else 1 := by
  have h := hasLengths_containers seeds n
  have hvectors : (ofSeeds seeds n).containers.valueVectors.length =
      (ofSeeds seeds n).tensors.tensors.length +
        if (ofSeeds seeds n).spaces.user.length = 0 then 0 else 1 := by
    simp only [h.length_valueVectors, length_tensors_eq_zero_iff, length_user_eq_zero_iff]
    split
    · next hnil => rw [(length_tensors_eq_zero_iff seeds n).2 hnil]
    · rw [Nat.add_comm]
  rw [length_declarations_all, h.length_dims, h.length_dynamicMultiArrays,
    h.length_cartesianProductArrays, h.length_valueTables, hvectors, length_refSpaces,
    length_physicalSpaces, TensorTable.length_tensors]
  omega

/-- Only without seeds there is nothing to declare. -/
theorem length_declarations_all_eq_zero_iff :
    ((ofSeeds seeds n).declarations Family.all).length = 0 ↔
      (ofSeeds seeds n).spaces.user.length = 0 := by
  constructor
  · intro h
    by_contra huser
    rw [length_declarations_all_ofSeeds, if_neg huser] at h
    omega
  · intro h
    obtain rfl := (length_user_eq_zero_iff seeds n).1 h
    rw [length_declarations_all]
    rfl

/-- The numbers that are read from the report account for the declarations of all families, as a
new writer appends them, one line for each, to a sink that is never full.  They are the sum of the
tables of the families, and can be told from the tensor types, the dimensions and the rows alone;
and there are none only if there is no row of the user. -/
theorem report_accounts (generator : String) (seeds : List Space) (n : MaxOrder) :
    ∃ (size : String → Nat) (w w' : Writer) (text : String) (lines : List (List Char)),
      (∀ name ∈ Report.names, Report.size? (ofSeeds seeds n).report name = some (size name)) ∧
      Writer.start generator {} = (.ok (), w) ∧
      (Emit.declareFamilies (ofSeeds seeds n) Family.all).run.run w = (.ok lines.length, w') ∧
      w'.declared = lines.length ∧ w'.sink.bytes = w.sink.bytes ++ text.toUTF8 ∧
      Text.lines text.toList = lines ++ [[]] ∧
      (∀ l ∈ lines, "template class ".toList <+: l ∧ " ;".toList <:+ l) ∧
      lines.length = size "derivatives" + size "values" + 7 * size "domain_dims" +
        size "dynamic_multi_arrays" + size "cartesian_product_arrays" + size "value_vectors" +
        size "value_tables" + size "mapping_dims" + size "ref_spaces" + size "push_forwards" +
        size "physical_spaces" ∧
      lines.length = 4 * (size "derivatives" + size "values") + 17 * size "domain_dims" +
        size "mapping_dims" + 2 * size "extended" + size "push_forwards" + 2 * size "all" +
        (if size "user" = 0 then 0 else 1) ∧
      (lines.length = 0 ↔ size "user" = 0) := by
  have hsum := (ofSeeds seeds n).length_declarations_all
  rw [(hasLengths_containers seeds n).length_dims] at hsum
  have hrows := length_declarations_all_ofSeeds seeds n
  have hzero := length_declarations_all_eq_zero_iff seeds n
  generalize ofSeeds seeds n = c at hsum hrows hzero ⊢
  refine ⟨fun name => (c.sizes.lookup name).getD 0, _,
    Writer.extend _ (c.declarations Family.all) (c.familyEvents Family.all),
    declarationText (c.declarations Family.all), (c.declarations Family.all).map Declaration.line,
    fun _ => c.size?_report, Writer.start_unlimited generator, ?_, ?_, rfl, lines_declarationText _,
    ?_, ?_⟩
  · rw [List.length_map]
    exact Emit.run_declareFamilies rfl _
  · rw [List.length_map]
    exact Nat.zero_add _
  · intro l hl
    obtain ⟨d, -, rfl⟩ := List.mem_map.1 hl
    exact d.affixes_line
  · simp only [List.length_map, sizes, List.lookup_cons, String.reduceBEq, Option.getD_some]
    exact ⟨hsum, hrows, hzero⟩

end Catalogue

end InstanceTables

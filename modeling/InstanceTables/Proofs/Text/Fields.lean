import InstanceTables.Text.Split
import Mathlib.Data.List.DropRight

/-!
# Trimmed texts and fields

What trimming a text and taking its words come to, said without going through the text:
`Trims` and `Fields` are the relations between a text and what is left of it, and `trim_eq_iff`
and `words_eq_iff` say that the functions decide them.
-/

namespace InstanceTables.Text

/-- The text has no character but white space. -/
def Blank (cs : List Char) : Prop := ∀ c ∈ cs, isBlank c

theorem Blank.nil : Blank [] := List.forall_mem_nil _

theorem Blank.append {cs ds : List Char} (h : Blank cs) (h' : Blank ds) : Blank (cs ++ ds) :=
  List.forall_mem_append.2 ⟨h, h'⟩

theorem Blank.cons {c : Char} {cs : List Char} (hc : isBlank c) (h : Blank cs) : Blank (c :: cs) :=
  List.forall_mem_cons.2 ⟨hc, h⟩

theorem not_isBlank_of_isDigit {c : Char} (h : c.isDigit) : ¬ isBlank c := by
  obtain ⟨hlow, hhigh⟩ : 48 ≤ c.toNat ∧ c.toNat ≤ 57 := Char.isDigit_iff_toNat.1 h
  simp [isBlank, blankRanges]
  omega

/-- The text is `row` between white space, and `row` neither begins nor ends in white space. -/
def Trims (cs row : List Char) : Prop :=
  ∃ left right, cs = left ++ row ++ right ∧ Blank left ∧ Blank right ∧
    (∀ c ∈ row.head?, ¬ isBlank c) ∧ ∀ c ∈ row.getLast?, ¬ isBlank c

/-- Trimming takes away the white space at the ends. -/
theorem trims_trim (cs : List Char) : Trims cs (trim cs) := by
  change Trims cs ((cs.dropWhile isBlank).rdropWhile isBlank)
  refine ⟨cs.takeWhile isBlank, (cs.dropWhile isBlank).rtakeWhile isBlank, ?_,
    fun c => List.mem_takeWhile_imp, fun c => List.mem_rtakeWhile_imp, ?_, ?_⟩
  · rw [List.append_assoc, List.rdropWhile_append_rtakeWhile, List.takeWhile_append_dropWhile]
  · intro c hc
    obtain ⟨row, hrow⟩ := List.head?_eq_some_iff.1 hc
    obtain ⟨right, hright⟩ := List.rdropWhile_prefix isBlank (cs.dropWhile isBlank)
    have hhead := List.head?_dropWhile_not isBlank cs
    rw [← hright, hrow, List.cons_append, List.head?_cons] at hhead
    simpa using hhead
  · intro c hc
    obtain ⟨hne, rfl⟩ := List.mem_getLast?_eq_getLast hc
    exact List.rdropWhile_last_not isBlank (cs.dropWhile isBlank) hne

/-- White space at the end of a text is not part of what is left of it. -/
theorem rdropWhile_append_of_blank {right : List Char} (h : Blank right) (row : List Char) :
    (row ++ right).rdropWhile isBlank = row.rdropWhile isBlank := by
  have hright : ∀ c ∈ right.reverse, isBlank c := fun c hc => h c (List.mem_reverse.1 hc)
  rw [List.rdropWhile, List.reverse_append, List.dropWhile_append_of_pos hright]
  rfl

/-- Only one text is left when the white space at the ends is taken away. -/
theorem trim_eq_of_trims {cs row : List Char} (h : Trims cs row) : trim cs = row := by
  obtain ⟨left, right, rfl, hleft, hright, hhead, hlast⟩ := h
  change ((left ++ row ++ right).dropWhile isBlank).rdropWhile isBlank = row
  rw [List.append_assoc, List.dropWhile_append_of_pos hleft]
  cases row with
  | nil => rw [List.nil_append, List.dropWhile_eq_nil_iff.2 hright, List.rdropWhile_nil]
  | cons c row =>
    rw [List.cons_append, List.dropWhile_cons_of_neg (hhead c rfl), ← List.cons_append,
      rdropWhile_append_of_blank hright, List.rdropWhile_eq_self_iff]
    exact fun hne => hlast _ (List.getLast?_eq_some_getLast hne)

/-- A text that begins with no white space keeps its beginning. -/
theorem exists_trims_cons {c : Char} (hc : ¬ isBlank c) (cs : List Char) :
    ∃ rest, Trims (c :: cs) (c :: rest) := by
  obtain ⟨left, right, hcs, hleft, hright, hhead, hlast⟩ := trims_trim (c :: cs)
  generalize trim (c :: cs) = row at hcs hhead hlast
  cases left with
  | cons d left =>
    obtain rfl := (List.cons.inj hcs).1
    exact absurd (hleft c List.mem_cons_self) hc
  | nil =>
    cases row with
    | nil =>
      obtain rfl : c :: cs = right := hcs
      exact absurd (hright c List.mem_cons_self) hc
    | cons d row =>
      obtain rfl := (List.cons.inj hcs).1
      exact ⟨row, [], right, hcs, .nil, hright, hhead, hlast⟩

/-- White space in front is not part of what is left of a text. -/
theorem Trims.blank_append {gap cs row : List Char} (hgap : Blank gap) (h : Trims cs row) :
    Trims (gap ++ cs) row := by
  obtain ⟨left, right, rfl, hleft, hright, hends⟩ := h
  refine ⟨gap ++ left, right, ?_, hgap.append hleft, hright, hends⟩
  simp only [List.append_assoc]

theorem trim_eq_iff {cs row : List Char} : trim cs = row ↔ Trims cs row :=
  ⟨fun h => h ▸ trims_trim cs, trim_eq_of_trims⟩

/-! ## Fields -/

/-- The fields of a text are its maximal runs of characters that are no white space: each goes
on until white space or the end of the text. -/
inductive Fields : List Char → List (List Char) → Prop
  | blank {gap : List Char} (hgap : Blank gap) : Fields gap []
  | field {gap w rest : List Char} {ws : List (List Char)} (hgap : Blank gap) (hw : w ≠ [])
    (hmem : ∀ c ∈ w, ¬ isBlank c) (hend : ∀ c ∈ rest.head?, isBlank c) (hrest : Fields rest ws) :
    Fields (gap ++ w ++ rest) (w :: ws)

/-- White space in front makes no difference. -/
theorem Fields.cons_blank {c : Char} {cs : List Char} {ws : List (List Char)} (hc : isBlank c)
    (h : Fields cs ws) : Fields (c :: cs) ws := by
  cases h with
  | blank hgap => exact .blank (hgap.cons hc)
  | field hgap hw hmem hend hrest => exact .field (hgap.cons hc) hw hmem hend hrest

theorem Fields.blank_append {gap cs : List Char} {ws : List (List Char)} (hgap : Blank gap)
    (h : Fields cs ws) : Fields (gap ++ cs) ws := by
  induction gap with
  | nil => exact h
  | cons c gap ih =>
    obtain ⟨hc, hgap⟩ := List.forall_mem_cons.1 hgap
    exact (ih hgap).cons_blank hc

/-- A text that begins with no white space begins as its first field does. -/
theorem Fields.head?_eq {w cs : List Char} {ws : List (List Char)} (h : Fields cs (w :: ws))
    (hhead : ∀ c ∈ cs.head?, ¬ isBlank c) : cs.head? = w.head? := by
  cases h with
  | @field gap _ rest _ hgap hw =>
    cases gap with
    | nil => rw [List.nil_append, List.head?_append_of_ne_nil _ hw]
    | cons c gap => exact absurd (hgap c List.mem_cons_self) (hhead c rfl)

theorem words_of_blank {gap : List Char} (h : Blank gap) : words gap = [] := by
  induction gap with
  | nil => rfl
  | cons c gap ih =>
    have hc := List.forall_mem_cons.1 h
    exact (words_append_cons hc.1 [] gap).trans (ih hc.2)

theorem words_append_of_blank {gap : List Char} (h : Blank gap) (cs : List Char) :
    words (gap ++ cs) = words cs := by
  induction gap with
  | nil => rfl
  | cons c gap ih =>
    have hc := List.forall_mem_cons.1 h
    exact (words_append_cons hc.1 [] (gap ++ cs)).trans (ih hc.2)

/-- A text without white space is one word. -/
theorem words_of_field {w : List Char} (hw : w ≠ []) (hmem : ∀ c ∈ w, ¬ isBlank c) :
    words w = [w] := by
  have hsplit : w.splitOnP isBlank = [w] :=
    List.splitOnP_eq_singleton fun c hc => Bool.eq_false_iff.2 (hmem c hc)
  rw [words, hsplit, List.filter_cons_of_pos (by simpa using hw), List.filter_nil]

/-- The fields of a text are its words. -/
theorem Fields.words_eq {cs : List Char} {ws : List (List Char)} (h : Fields cs ws) :
    words cs = ws := by
  induction h with
  | blank hgap => exact words_of_blank hgap
  | @field gap w rest ws hgap hw hmem hend hrest ih =>
    rw [List.append_assoc, words_append_of_blank hgap]
    cases rest with
    | nil =>
      rw [List.append_nil, words_of_field hw hmem, ← ih]
      rfl
    | cons c rest =>
      have hc : isBlank c := hend c rfl
      have hrest' : words (c :: rest) = words rest := words_append_cons hc [] rest
      rw [words_append_cons hc, words_of_field hw hmem, ← ih, hrest', List.singleton_append]

/-- Every text has fields. -/
theorem exists_fields (cs : List Char) : ∃ ws, Fields cs ws := by
  induction cs with
  | nil => exact ⟨[], .blank .nil⟩
  | cons c cs ih =>
    obtain ⟨ws, h⟩ := ih
    by_cases hc : isBlank c
    · exact ⟨ws, h.cons_blank hc⟩
    · by_cases hend : ∀ d ∈ cs.head?, isBlank d
      · exact ⟨[c] :: ws, .field .nil (List.cons_ne_nil c []) (by simpa using hc) hend h⟩
      · -- `cs` begins with a field, which begins with `c` instead
        obtain ⟨d, hd, hblank⟩ : ∃ d ∈ cs.head?, ¬ isBlank d := by simpa using hend
        cases h with
        | blank hgap => exact absurd (hgap d (List.mem_of_mem_head? hd)) hblank
        | @field gap w rest ws hgap hw hmem hrestEnd hrest =>
          cases gap with
          | nil =>
            exact ⟨(c :: w) :: ws, .field .nil (List.cons_ne_nil c w)
              (List.forall_mem_cons.2 ⟨hc, hmem⟩) hrestEnd hrest⟩
          | cons g gap =>
            obtain rfl : g = d := by simpa using hd
            exact absurd (hgap g List.mem_cons_self) hblank

theorem words_eq_iff {cs : List Char} {ws : List (List Char)} : words cs = ws ↔ Fields cs ws := by
  constructor
  · rintro rfl
    obtain ⟨ws, h⟩ := exists_fields cs
    exact h.words_eq ▸ h
  · exact Fields.words_eq

end InstanceTables.Text

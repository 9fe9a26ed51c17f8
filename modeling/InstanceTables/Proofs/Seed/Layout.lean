import InstanceTables.Proofs.Seed.Table

/-!
# Layouts of seed texts

Rows can be written down in many ways.  A layout of a list of rows puts each of them on a line of
its own, as fields with white space around them, and adds comments and blank lines as it likes.
It is described from the inside out: `Spaced` puts white space between fields, `LineLayout` makes
a line of them, and `Layout` ends the lines and makes a text.

Reading undoes every layout.  For the fields this is `Spaced.fields`, for a line
`LineLayout.parseLine_eq`; the text follows by induction, since a line end of either kind leaves
the lines behind it as they are (`LineLayout.append_return`).
-/

namespace InstanceTables

namespace Text

/-- White space that does not end the line. -/
def Gap (cs : List Char) : Prop := Blank cs ∧ '\n' ∉ cs

instance (cs : List Char) : Decidable (Gap cs) :=
  decidable_of_iff (cs.all isBlank ∧ '\n' ∉ cs) (and_congr_left fun _ => List.all_eq_true)

theorem Gap.append {cs ds : List Char} (h : Gap cs) (h' : Gap ds) : Gap (cs ++ ds) :=
  ⟨h.1.append h'.1, by simpa using ⟨h.2, h'.2⟩⟩

/-- A carriage return is white space, and does not end a line by itself. -/
theorem gap_return : Gap ['\r'] := by decide

/-- The text can be a field: it is not empty and has no white space. -/
def IsField (w : List Char) : Prop := w ≠ [] ∧ ∀ c ∈ w, ¬ isBlank c

instance (w : List Char) : Decidable (IsField w) :=
  decidable_of_iff (w ≠ [] ∧ w.all fun c => !isBlank c) (by simp [IsField])

theorem IsNumeral.isField {cs : List Char} {n : Nat} (h : IsNumeral cs n) : IsField cs := by
  refine ⟨h.ne_nil, fun c hc => ?_⟩
  rcases h.plus_or_isDigit c hc with rfl | hdigit
  · decide
  · exact not_isBlank_of_isDigit hdigit

theorem IsField.newline_not_mem {w : List Char} (h : IsField w) : '\n' ∉ w :=
  fun hmem => h.2 _ hmem (by decide)

/-- The text consists of the fields, with white space between each of them and the next. -/
inductive Spaced : List (List Char) → List Char → Prop
  | last (w : List Char) : Spaced [w] w
  | next (w : List Char) {gap rest : List Char} {ws : List (List Char)} (hgap : Gap gap)
    (hne : gap ≠ []) (hrest : Spaced ws rest) : Spaced (w :: ws) (w ++ gap ++ rest)

namespace Spaced

variable {ws : List (List Char)} {cs : List Char}

theorem newline_not_mem (h : Spaced ws cs) (hws : ∀ w ∈ ws, IsField w) : '\n' ∉ cs := by
  induction h with
  | last w => exact (hws w List.mem_cons_self).newline_not_mem
  | next w hgap _ _ ih =>
    obtain ⟨hw, hws⟩ := List.forall_mem_cons.1 hws
    simpa using ⟨hw.newline_not_mem, hgap.2, ih hws⟩

/-- The text begins as its first field does. -/
theorem head?_eq {w : List Char} (h : Spaced (w :: ws) cs) (hw : IsField w) :
    cs.head? = w.head? := by
  cases h with
  | last => rfl
  | next _ _ _ _ => rw [List.append_assoc, List.head?_append_of_ne_nil _ hw.1]

/-- The text ends as its last field does. -/
theorem getLast?_not_blank (h : Spaced ws cs) (hws : ∀ w ∈ ws, IsField w) :
    cs ≠ [] ∧ ∀ c ∈ cs.getLast?, ¬ isBlank c := by
  induction h with
  | last w =>
    have hw := hws w List.mem_cons_self
    exact ⟨hw.1, fun c hc => hw.2 c (List.mem_of_mem_getLast? hc)⟩
  | next w _ _ _ ih =>
    obtain ⟨hne, hlast⟩ := ih (List.forall_mem_cons.1 hws).2
    rw [List.getLast?_append_of_ne_nil _ hne]
    exact ⟨List.append_ne_nil_of_right_ne_nil _ hne, hlast⟩

/-- The fields can be read off the text. -/
theorem fields (h : Spaced ws cs) (hws : ∀ w ∈ ws, IsField w) : Fields cs ws := by
  induction h with
  | last w =>
    have hw := hws w List.mem_cons_self
    have hfield := Fields.field .nil hw.1 hw.2 (by simp) (Fields.blank .nil)
    rwa [List.nil_append, List.append_nil] at hfield
  | @next w gap rest ws hgap hne _ ih =>
    obtain ⟨hw, hws⟩ := List.forall_mem_cons.1 hws
    have hend : ∀ c ∈ (gap ++ rest).head?, isBlank c := by
      rw [List.head?_append_of_ne_nil _ hne]
      exact fun c hc => hgap.1 c (List.mem_of_mem_head? hc)
    have hfield := Fields.field .nil hw.1 hw.2 hend ((ih hws).blank_append hgap.1)
    rwa [List.nil_append, ← List.append_assoc] at hfield

end Spaced

namespace Fields

variable {ws : List (List Char)} {cs : List Char}

theorem isField_of_mem (h : Fields cs ws) {w : List Char} (hw : w ∈ ws) : IsField w := by
  induction h with
  | blank hgap => simp at hw
  | field hgap hne hmem hend hrest ih =>
    rcases List.mem_cons.1 hw with rfl | hw
    · exact ⟨hne, hmem⟩
    · exact ih hw

/-- Behind white space in front of it, a text with fields consists of these and of what is
between them. -/
theorem exists_spaced (h : Fields cs ws) (hne : ws ≠ []) (hlast : ∀ c ∈ cs.getLast?, ¬ isBlank c)
    (hline : '\n' ∉ cs) : ∃ gap body, cs = gap ++ body ∧ Gap gap ∧ Spaced ws body := by
  induction h with
  | blank hgap => exact absurd rfl hne
  | @field gap w rest ws hgap hw hmem hend hrest ih =>
    obtain ⟨⟨hlineGap, hlineW⟩, hlineRest⟩ : ('\n' ∉ gap ∧ '\n' ∉ w) ∧ '\n' ∉ rest := by
      simpa [and_assoc] using hline
    have hlastRest : ∀ c ∈ rest.getLast?, ¬ isBlank c := by
      intro c hc
      refine hlast c ?_
      obtain ⟨hrestNe, -⟩ := List.mem_getLast?_eq_getLast hc
      rwa [List.getLast?_append_of_ne_nil _ hrestNe]
    cases hrest with
    | blank hblank =>
      obtain rfl : rest = [] := by
        by_contra hrestNe
        have hmemLast := List.getLast?_eq_some_getLast hrestNe
        exact hlastRest _ hmemLast (hblank _ (List.getLast_mem hrestNe))
      exact ⟨gap, w, by simp, ⟨hgap, hlineGap⟩, .last w⟩
    | @field gap' w' rest' ws' hgap' hw' hmem' hend' hrest' =>
      obtain ⟨gap'', body, hcs, hgap'', hspaced⟩ := ih (List.cons_ne_nil _ _) hlastRest hlineRest
      have hgapNe : gap'' ≠ [] := by
        rintro rfl
        rw [hcs, List.nil_append, hspaced.head?_eq ⟨hw', hmem'⟩] at hend
        have hheadMem := List.head?_eq_some_head hw'
        exact hmem' _ (List.head_mem hw') (hend _ hheadMem)
      refine ⟨gap, w ++ gap'' ++ body, ?_, ⟨hgap, hlineGap⟩, .next w hgap'' hgapNe hspaced⟩
      rw [hcs]
      simp only [List.append_assoc]

/-- A text that neither begins nor ends in white space consists of its fields and of what is
between them. -/
theorem spaced (h : Fields cs ws) (hne : ws ≠ []) (hhead : ∀ c ∈ cs.head?, ¬ isBlank c)
    (hlast : ∀ c ∈ cs.getLast?, ¬ isBlank c) (hline : '\n' ∉ cs) : Spaced ws cs := by
  obtain ⟨gap, body, rfl, hgap, hspaced⟩ := h.exists_spaced hne hlast hline
  cases gap with
  | nil => exact hspaced
  | cons c gap => exact absurd (hgap.1 c List.mem_cons_self) (hhead c rfl)

end Fields

end Text

namespace Seed

open Text (Gap IsField Spaced Writes)

/-- The line is a layout of what it holds, a row or nothing. -/
inductive LineLayout : Option Space → List Char → Prop
  | blank {gap : List Char} (hgap : Gap gap) : LineLayout none gap
  | comment {indent text : List Char} (hindent : Gap indent) (htext : '\n' ∉ text) :
    LineLayout none (indent ++ '#' :: text)
  /-- The fields of a row are its numbers, any others, and its transformation. -/
  | row {s : Space} {indent dim codim range rank body trailing : List Char}
    {ignored : List (List Char)} (hindent : Gap indent) (hdim : Writes s.dim dim)
    (hcodim : Writes s.codim codim) (hrange : Writes s.range range) (hrank : Writes s.rank rank)
    (hignored : ∀ w ∈ ignored, IsField w)
    (hbody : Spaced
      (dim :: codim :: range :: rank :: (ignored ++ [s.transformation.name.toList])) body)
    (htrailing : Gap trailing) : LineLayout (some s) (indent ++ body ++ trailing)

/-- The text is a layout of the rows: lines that hold them in turn, and others that hold nothing.
Each line is ended in one of two ways, and the last may go without. -/
inductive Layout : List Space → List Char → Prop
  | done : Layout [] []
  | unended {r : Option Space} {line : List Char} (hline : LineLayout r line) :
    Layout r.toList line
  | ended {r : Option Space} {line stop rest : List Char} {rows : List Space}
    (hline : LineLayout r line) (hstop : stop = ['\n'] ∨ stop = ['\r', '\n'])
    (hrest : Layout rows rest) : Layout (r.toList ++ rows) (line ++ stop ++ rest)

/-! ## Lines -/

/-- The name of a transformation can be a field. -/
theorem isField_name (t : Transformation) : IsField t.name.toList := by
  cases t <;> decide

namespace LineLayout

variable {r : Option Space} {line : List Char}

/-- The fields of a row, as they are laid out. -/
theorem isField_of_mem {s : Space} {dim codim range rank w : List Char}
    {ignored : List (List Char)} (hdim : Writes s.dim dim) (hcodim : Writes s.codim codim)
    (hrange : Writes s.range range) (hrank : Writes s.rank rank)
    (hignored : ∀ w ∈ ignored, IsField w)
    (hw : w ∈ dim :: codim :: range :: rank :: (ignored ++ [s.transformation.name.toList])) :
    IsField w := by
  simp only [List.mem_cons, List.mem_append, List.not_mem_nil, or_false] at hw
  rcases hw with rfl | rfl | rfl | rfl | hw | rfl
  · exact hdim.isNumeral.isField
  · exact hcodim.isNumeral.isField
  · exact hrange.isNumeral.isField
  · exact hrank.isNumeral.isField
  · exact hignored w hw
  · exact isField_name _

theorem newline_not_mem (h : LineLayout r line) : '\n' ∉ line := by
  cases h with
  | blank hgap => exact hgap.2
  | comment hindent htext => simpa using ⟨hindent.2, htext⟩
  | row hindent hdim hcodim hrange hrank hignored hbody htrailing =>
    have hmid := hbody.newline_not_mem fun w =>
      isField_of_mem hdim hcodim hrange hrank hignored
    simpa using ⟨hindent.2, hmid, htrailing.2⟩

/-- A carriage return at the end of a line belongs to the white space or to the comment there. -/
theorem append_return (h : LineLayout r line) : LineLayout r (line ++ ['\r']) := by
  cases h with
  | blank hgap => exact .blank (hgap.append Text.gap_return)
  | comment hindent htext =>
    rw [List.append_assoc, List.cons_append]
    exact .comment hindent (by simpa using htext)
  | row hindent hdim hcodim hrange hrank hignored hbody htrailing =>
    rw [List.append_assoc]
    exact .row hindent hdim hcodim hrange hrank hignored hbody
      (htrailing.append Text.gap_return)

/-- A line is read as what it was laid out for. -/
theorem parseLine_eq (h : LineLayout r line) (hfits : ∀ s ∈ r, s.Fits) (n : Nat) :
    parseLine n line = .ok r := by
  cases h with
  | blank hgap =>
    have htrims : Text.Trims line [] := ⟨line, [], by simp, hgap.1, .nil, by simp, by simp⟩
    exact LineReads.parseLine_eq (.skipped (Or.inl rfl)) htrims (.blank .nil)
  | @comment indent text hindent htext =>
    obtain ⟨rest, hrest⟩ := Text.exists_trims_cons (c := '#') (by decide) text
    have htrims := hrest.blank_append hindent.1
    refine parseLine_of_noRow (Or.inr ⟨rest, ?_⟩)
    exact Text.trim_eq_of_trims htrims
  | @row s indent dim codim range rank body trailing ignored hindent hdim hcodim hrange hrank
      hignored hbody htrailing =>
    have hws (w : List Char) := isField_of_mem (w := w) hdim hcodim hrange hrank hignored
    have htrims : Text.Trims (indent ++ body ++ trailing) body := by
      refine ⟨indent, trailing, rfl, hindent.1, htrailing.1, ?_, (hbody.getLast?_not_blank hws).2⟩
      rw [hbody.head?_eq hdim.isNumeral.isField]
      exact fun c hc => hdim.isNumeral.isField.2 c (List.mem_of_mem_head? hc)
    have hfields := hbody.fields hws
    have hrow := not_noRow_of_isNumeral htrims hfields hdim.isNumeral
    have hnumbers : Numbers (dim :: codim :: range :: rank ::
        (ignored ++ [s.transformation.name.toList])) s.dim s.codim s.range s.rank := by
      refine ⟨by simp, ?_⟩
      simp [hdim.isNumeral, hcodim.isNumeral, hrange.isNumeral, hrank.isNumeral]
    have hkind : (dim :: codim :: range :: rank ::
        (ignored ++ [s.transformation.name.toList])).getLast? =
          some s.transformation.name.toList := by
      simp [List.getLast?_cons]
    exact (LineReads.row hrow hnumbers hkind (hfits s rfl)).parseLine_eq htrims hfields

/-- A row without white space at its ends is laid out by its fields. -/
theorem row_of_reads {n : Nat} {row : List Char} {fields : List (List Char)} {s : Space}
    (h : LineReads n row fields (.ok (some s))) (hfields : Text.Fields row fields)
    (hhead : ∀ c ∈ row.head?, ¬ Text.isBlank c) (hlast : ∀ c ∈ row.getLast?, ¬ Text.isBlank c)
    (hline : '\n' ∉ row) {left right : List Char} (hleft : Gap left) (hright : Gap right) :
    LineLayout (some s) (left ++ row ++ right) := by
  cases h with
  | @row _ dim codim range rank hnumbers t hkind hsum =>
    obtain ⟨hlength, hnumerals⟩ := hnumbers
    obtain ⟨dim', codim', range', rank', field, rest, rfl⟩ := exists_fields_of_length hlength
    obtain ⟨hdim, hcodim, hrange, hrank⟩ : Text.IsNumeral dim' dim.toNat ∧
        Text.IsNumeral codim' codim.toNat ∧ Text.IsNumeral range' range.toNat ∧
        Text.IsNumeral rank' rank.toNat := by
      simpa using hnumerals
    have hspaced := hfields.spaced (List.cons_ne_nil _ _) hhead hlast hline
    have hname : (field :: rest).getLast? = some t.name.toList := by
      simpa [List.getLast?_cons] using hkind
    have hsplit : (field :: rest).dropLast ++ [t.name.toList] = field :: rest :=
      List.dropLast_append_getLast? _ hname
    rw [← hsplit] at hspaced
    refine .row hleft (Text.writes_iff.2 hdim) (Text.writes_iff.2 hcodim)
      (Text.writes_iff.2 hrange) (Text.writes_iff.2 hrank) (fun w hw => ?_) hspaced hright
    have hmem : w ∈ field :: rest := List.dropLast_subset _ hw
    exact hfields.isField_of_mem (by simp [List.mem_cons.1 hmem])

/-- A line that is accepted is a layout of what is read from it. -/
theorem of_parseLine {n : Nat} (h : parseLine n line = .ok r) (hline : '\n' ∉ line) :
    LineLayout r line := by
  obtain ⟨row, fields, ⟨left, right, rfl, hleft, hright, hhead, hlast⟩, hfields, hreads⟩ :=
    exists_lineReads n line
  rw [h] at hreads
  obtain ⟨⟨hlineLeft, hlineRow⟩, hlineRight⟩ : ('\n' ∉ left ∧ '\n' ∉ row) ∧ '\n' ∉ right := by
    simpa [and_assoc] using hline
  cases r with
  | none =>
    cases hreads with
    | skipped hrow =>
      rcases hrow with rfl | ⟨comment, rfl⟩
      · rw [List.append_nil]
        exact .blank (Gap.append ⟨hleft, hlineLeft⟩ ⟨hright, hlineRight⟩)
      · rw [List.append_assoc, List.cons_append]
        refine .comment ⟨hleft, hlineLeft⟩ ?_
        simpa using ⟨fun hmem => hlineRow (List.mem_cons_of_mem _ hmem), hlineRight⟩
  | some s =>
    exact row_of_reads hreads hfields hhead hlast hlineRow ⟨hleft, hlineLeft⟩
      ⟨hright, hlineRight⟩

end LineLayout

/-! ## Texts -/

/-- The lines of a layout hold its rows. -/
theorem Layout.exists_results {rows : List Space} {cs : List Char} (h : Layout rows cs)
    (hfits : ∀ s ∈ rows, s.Fits) :
    ∃ results, List.Forall₂ (fun line r => ∀ n, parseLine n line = .ok r) (Text.lines cs) results ∧
      rows = results.filterMap id := by
  induction h with
  | done => exact ⟨[none], by simp [Text.lines]; exact fun _ => rfl, rfl⟩
  | @unended r line hline =>
    have hread := hline.parseLine_eq fun s hs => hfits s (by simpa using hs)
    rw [Text.lines_of_newline_not_mem hline.newline_not_mem]
    refine ⟨[r], .cons hread .nil, ?_⟩
    cases r <;> rfl
  | @ended r line stop rest rows hline hstop _ ih =>
    obtain ⟨hr, hrows⟩ := List.forall_mem_append.1 hfits
    obtain ⟨results, hresults, rfl⟩ := ih hrows
    -- the carriage return is counted to the line, which is a layout with it as well
    obtain ⟨line', hlayout, hlines⟩ : ∃ line', LineLayout r line' ∧
        Text.lines (line ++ stop ++ rest) = line' :: Text.lines rest := by
      rcases hstop with rfl | rfl
      · refine ⟨line, hline, ?_⟩
        rw [List.append_assoc, List.singleton_append, Text.lines_append_newline,
          Text.lines_of_newline_not_mem hline.newline_not_mem]
        rfl
      · refine ⟨line ++ ['\r'], hline.append_return, ?_⟩
        have hsplit : line ++ ['\r', '\n'] ++ rest = (line ++ ['\r']) ++ '\n' :: rest := by simp
        rw [hsplit, Text.lines_append_newline,
          Text.lines_of_newline_not_mem hline.append_return.newline_not_mem]
        rfl
    rw [hlines]
    have hread := hlayout.parseLine_eq fun s hs => hr s (by simpa using hs)
    refine ⟨r :: results, .cons hread hresults, ?_⟩
    cases r <;> rfl

/-- Lines that are laid out one by one are a layout when they are joined. -/
theorem layout_intercalate {results : List (Option Space)} {ls : List (List Char)}
    (h : List.Forall₂ LineLayout results ls) (hne : ls ≠ []) :
    Layout (results.filterMap id) (['\n'].intercalate ls) := by
  induction h with
  | nil => exact absurd rfl hne
  | @cons r line results ls hline hrest ih =>
    have hrows : (r :: results).filterMap id = r.toList ++ results.filterMap id := by
      cases r <;> rfl
    rw [hrows]
    cases hrest with
    | nil =>
      rw [List.filterMap_nil, List.append_nil, List.intercalate_singleton]
      exact .unended hline
    | cons hline' hrest' =>
      rw [List.intercalate_cons_cons]
      exact .ended hline (Or.inl rfl) (ih (List.cons_ne_nil _ _))

/-- Reading undoes every layout, and reads nothing else: a text is accepted with some rows if and
only if it is a layout of them and their sums of dimensions are words. -/
theorem parseTable_eq_ok_iff_layout {rows : List Space} {text : String} :
    parseTable text = .ok rows ↔ (∀ s ∈ rows, s.Fits) ∧ Layout rows text.toList := by
  constructor
  · intro h
    refine ⟨fits_of_parseTable h, ?_⟩
    obtain ⟨results, hresults, rfl⟩ := parseTable_eq_ok_iff.1 h
    have hls (l : List Char) (hl : l ∈ Text.lines text.toList) : '\n' ∉ l :=
      Text.newline_not_mem_of_mem_lines hl
    have hlayouts : List.Forall₂ (fun line r => LineLayout r line) (Text.lines text.toList)
        results :=
      ((List.forall₂_and_left _ _).2 ⟨hls, hresults⟩).imp
        fun line r ⟨hline, hread⟩ => .of_parseLine (hread 0) hline
    rw [← Text.intercalate_lines text.toList]
    exact layout_intercalate hlayouts.flip (List.splitOn_ne_nil _ _)
  · rintro ⟨hfits, h⟩
    exact parseTable_eq_ok_iff.2 (h.exists_results hfits)

/-- A layout with a comment, an empty line and line ends of both kinds, and with a sum of
dimensions that is just a word.  The last line is not ended. -/
theorem parseTable_mixed_layout :
    Layout [⟨7, 4, 2, 1, .hDiv⟩, ⟨0, 4294967295, 1, 1, .hGrad⟩]
      "\u00a0# seeds\r\n\t+007 4 2 01 x #1 h_div \n\n0 4294967295\u2003+1 1 h_grad".toList ∧
    parseTable
      "\u00a0# seeds\r\n\t+007 4 2 01 x #1 h_div \n\n0 4294967295\u2003+1 1 h_grad" =
        .ok [⟨7, 4, 2, 1, .hDiv⟩, ⟨0, 4294967295, 1, 1, .hGrad⟩] := by
  have hblank : Gap [' '] := by decide
  have hcomment : LineLayout none (['\u00a0'] ++ '#' :: " seeds".toList) :=
    .comment (by decide) (by decide)
  have hempty : LineLayout none [] := .blank (by decide)
  have hdivFields :=
    Spaced.next "+007".toList hblank (by simp) <| .next ['4'] hblank (by simp) <|
      .next ['2'] hblank (by simp) <| .next ['0', '1'] hblank (by simp) <|
      .next ['x'] hblank (by simp) <| .next ['#', '1'] hblank (by simp) <|
      .last Transformation.hDiv.name.toList
  have hdiv := @LineLayout.row ⟨7, 4, 2, 1, .hDiv⟩ ['\t'] _ _ _ _ _ _ [['x'], ['#', '1']]
    (by decide) (.signed 2) (.unsigned 0) (.unsigned 0) (.unsigned 1) (by decide) hdivFields hblank
  have hgradFields :=
    Spaced.next ['0'] hblank (by simp) <|
      @Spaced.next "4294967295".toList ['\u2003'] _ _ (by decide) (by simp) <|
      .next ['+', '1'] hblank (by simp) <| .next ['1'] hblank (by simp) <|
      .last Transformation.hGrad.name.toList
  have hgrad := @LineLayout.row ⟨0, 4294967295, 1, 1, .hGrad⟩ [] _ _ _ _ _ [] []
    (by decide) (.unsigned 0) (.unsigned 0) (.signed 0) (.unsigned 0) (by decide) hgradFields
    (by decide)
  have hlayout : Layout [⟨7, 4, 2, 1, .hDiv⟩, ⟨0, 4294967295, 1, 1, .hGrad⟩]
      "\u00a0# seeds\r\n\t+007 4 2 01 x #1 h_div \n\n0 4294967295\u2003+1 1 h_grad".toList := by
    convert Layout.ended hcomment (Or.inr rfl) (.ended hdiv (Or.inl rfl)
      (.ended hempty (Or.inl rfl) (.unended hgrad))) using 1
    · rfl
    · decide
  exact ⟨hlayout, parseTable_eq_ok_iff_layout.2 ⟨by decide, hlayout⟩⟩

end Seed

end InstanceTables

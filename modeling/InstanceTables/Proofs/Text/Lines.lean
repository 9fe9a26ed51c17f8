import InstanceTables.Text.Split
import Mathlib.Data.List.Basic

/-!
# Lines

A text that is made of lines, each ended by a line feed, splits into these lines and an empty
piece behind the last.  `IsLine` says of a part of a text that it is one of its lines, without
going through the lines before it; `lines_of_isLine` and `exists_isLine` say where it stands
among them.
-/

namespace InstanceTables.Text

/-- A line feed separates the lines before it from those behind it. -/
theorem lines_append_newline (a b : List Char) : lines (a ++ '\n' :: b) = lines a ++ lines b :=
  List.splitOn_append_cons_self a b

/-- A text without a line feed is one line. -/
theorem lines_of_newline_not_mem {l : List Char} (h : '\n' ∉ l) : lines l = [l] :=
  List.splitOn_eq_singleton h

/-- The lines of a text that ends each of its lines. -/
theorem lines_ended {ls : List (List Char)} (h : ∀ l ∈ ls, '\n' ∉ l) :
    lines (ls.flatMap (· ++ ['\n'])) = ls ++ [[]] := by
  induction ls with
  | nil => rfl
  | cons l ls ih =>
    rw [List.flatMap_cons, List.append_assoc, List.singleton_append, lines_append_newline,
      lines_of_newline_not_mem (h l List.mem_cons_self),
      ih fun l' hl' => h l' (List.mem_cons_of_mem l hl')]
    rfl

theorem lines_cons (c : Char) (cs : List Char) :
    lines (c :: cs) = if c = '\n' then [] :: lines cs else (lines cs).modifyHead (c :: ·) := by
  rw [lines, List.splitOn_cons_eq_if_modifyHead]
  simp [lines]

/-- What stands before a text goes to its first line. -/
theorem lines_append_of_newline_not_mem {l : List Char} (h : '\n' ∉ l) (cs : List Char) :
    lines (l ++ cs) = (lines cs).modifyHead (l ++ ·) := by
  induction l with
  | nil => exact (congrFun List.modifyHead_id (lines cs)).symm
  | cons c l ih =>
    obtain ⟨hc, hl⟩ := List.ne_and_not_mem_of_not_mem_cons h
    rw [List.cons_append, lines_cons, if_neg (Ne.symm hc), ih hl, List.modifyHead_modifyHead]
    rfl

/-- There is one more line than there are line feeds. -/
theorem length_lines (cs : List Char) : (lines cs).length = cs.count '\n' + 1 := by
  induction cs with
  | nil => rfl
  | cons c cs ih =>
    rw [lines_cons, List.count_cons]
    by_cases hc : c = '\n' <;> simp [hc, ih]

/-- Lines end where the first line feed is. -/
theorem newline_not_mem_of_mem_lines {cs l : List Char} (h : l ∈ lines cs) : '\n' ∉ l := by
  induction cs generalizing l with
  | nil =>
    obtain rfl := List.mem_singleton.1 h
    exact List.not_mem_nil
  | cons c cs ih =>
    rw [lines_cons] at h
    split at h
    · rcases List.mem_cons.1 h with rfl | h
      · exact List.not_mem_nil
      · exact ih h
    · next hc =>
      cases hcs : lines cs with
      | nil => simp [hcs] at h
      | cons l' ls =>
        rw [hcs] at h ih
        rcases List.mem_cons.1 h with rfl | h
        · exact List.not_mem_cons_of_ne_of_not_mem (Ne.symm hc) (ih List.mem_cons_self)
        · exact ih (List.mem_cons_of_mem l' h)

/-- The text is joined from its lines. -/
theorem intercalate_lines (cs : List Char) : ['\n'].intercalate (lines cs) = cs :=
  List.intercalate_splitOn '\n'

/-- What stands between `before` and `after` in a text is a line of it. -/
structure IsLine (before line after : List Char) : Prop where
  before_ended : before = [] ∨ ∃ b, before = b ++ ['\n']
  newline_not_mem : '\n' ∉ line
  after_begun : after = [] ∨ ∃ a, after = '\n' :: a

/-- Lines behind the first are begun by line feeds. -/
theorem intercalate_cons (line : List Char) (ls : List (List Char)) :
    ['\n'].intercalate (line :: ls) = line ++ ls.flatMap ('\n' :: ·) := by
  induction ls generalizing line with
  | nil => simp
  | cons l ls ih =>
    rw [List.intercalate_cons_cons, ih, List.flatMap_cons, List.append_assoc]
    rfl

/-- Lines in front of another are ended by line feeds. -/
theorem intercalate_append_cons (ls ls' : List (List Char)) (line : List Char) :
    ['\n'].intercalate (ls ++ line :: ls') =
      ls.flatMap (· ++ ['\n']) ++ ['\n'].intercalate (line :: ls') := by
  induction ls with
  | nil => rfl
  | cons l ls ih =>
    rw [List.cons_append, List.intercalate_cons_of_ne_nil (by simp), ih, List.flatMap_cons,
      List.append_assoc, List.append_assoc, List.append_assoc]

/-- Ended lines are no text or one that ends in a line feed. -/
theorem flatMap_ended (ls : List (List Char)) :
    ls.flatMap (· ++ ['\n']) = [] ∨ ∃ b, ls.flatMap (· ++ ['\n']) = b ++ ['\n'] := by
  rcases List.eq_nil_or_concat ls with rfl | ⟨ls, l, rfl⟩
  · exact Or.inl rfl
  · exact Or.inr ⟨ls.flatMap (· ++ ['\n']) ++ l, by simp⟩

/-- Where a line stands among the lines of the text. -/
theorem lines_of_isLine {before line after : List Char} (h : IsLine before line after) :
    ∃ ls ls', lines before = ls ++ [[]] ∧ lines (before ++ line ++ after) = ls ++ line :: ls' := by
  obtain ⟨ls', hafter⟩ : ∃ ls', lines (line ++ after) = line :: ls' := by
    rcases h.after_begun with rfl | ⟨a, rfl⟩
    · rw [List.append_nil, lines_of_newline_not_mem h.newline_not_mem]
      exact ⟨[], rfl⟩
    · rw [lines_append_newline, lines_of_newline_not_mem h.newline_not_mem]
      exact ⟨lines a, rfl⟩
  rcases h.before_ended with rfl | ⟨b, rfl⟩
  · exact ⟨[], ls', rfl, hafter⟩
  · refine ⟨lines b, ls', lines_append_newline b [], ?_⟩
    rw [List.append_assoc, List.append_assoc, List.singleton_append, lines_append_newline, hafter]

/-- Each of the lines of a text stands somewhere in it. -/
theorem exists_isLine {cs line : List Char} {ls ls' : List (List Char)}
    (h : lines cs = ls ++ line :: ls') :
    ∃ before after, cs = before ++ line ++ after ∧ IsLine before line after ∧
      lines before = ls ++ [[]] := by
  have hmem : ∀ l ∈ ls ++ line :: ls', '\n' ∉ l := fun l hl =>
    newline_not_mem_of_mem_lines (h ▸ hl)
  refine ⟨ls.flatMap (· ++ ['\n']), ls'.flatMap ('\n' :: ·), ?_, ⟨?_, ?_, ?_⟩, ?_⟩
  · rw [← intercalate_lines cs, h, intercalate_append_cons, intercalate_cons, List.append_assoc]
  · exact flatMap_ended ls
  · exact hmem line (List.mem_append_right ls List.mem_cons_self)
  · cases ls' with
    | nil => exact Or.inl rfl
    | cons l ls' => exact Or.inr ⟨_, List.flatMap_cons⟩
  · exact lines_ended fun l hl => hmem l (List.mem_append_left _ hl)

end InstanceTables.Text

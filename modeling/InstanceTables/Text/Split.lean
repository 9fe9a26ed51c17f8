import InstanceTables.Text.Blank

/-!
# Lines and words

The lines of a text are the pieces between its line feeds, one more than there are line
feeds.  Its words are the pieces between white space that are not empty.
-/

namespace InstanceTables.Text

/-- The lines of the text; a carriage return stays with its line. -/
def lines (cs : List Char) : List (List Char) := cs.splitOn '\n'

/-- The maximal runs of characters that are no white space. -/
def words (cs : List Char) : List (List Char) :=
  (cs.splitOnP isBlank).filter fun w => !w.isEmpty

/-- White space ends the words of what stands before it. -/
theorem words_append_cons {c : Char} (h : isBlank c) (a b : List Char) :
    words (a ++ c :: b) = words a ++ words b := by
  simp [words, List.splitOnP_append_cons, h]

end InstanceTables.Text

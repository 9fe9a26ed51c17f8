/-!
# Decimal numbers

A numeral is a sign that may be missing and one or more ASCII digits, of which any number
may be leading zeros.  A word takes no minus sign; what lies outside of its range is no
numeral of it.

A numeral may be far longer than any number that is accepted.  Its value is therefore
counted only as far as the limit: `foldl_countDigit` says that nothing is lost by it.
-/

namespace InstanceTables.Text

def digitValue (c : Char) : Nat := c.toNat - '0'.toNat

/-- The number that the digits stand for, the leftmost the most significant. -/
def digitsValue (cs : List Char) : Nat := cs.foldl (fun n c => 10 * n + digitValue c) 0

/-- Reads one more digit, but counts no further than the limit. -/
def countDigit (limit n : Nat) (c : Char) : Nat := min limit (10 * n + digitValue c)

/-- The number below the limit that the digits stand for; `none` for an empty text or one
with another character in it. -/
def digitsBelow? (limit : Nat) (cs : List Char) : Option Nat :=
  if cs.isEmpty || !cs.all Char.isDigit then none
  else
    let n := cs.foldl (countDigit limit) 0
    if n < limit then some n else none

/-- The unsigned 32-bit word that the text is a numeral of. -/
def word? (cs : List Char) : Option UInt32 :=
  let digits := match cs with
    | '+' :: rest => rest
    | _ => cs
  (digitsBelow? UInt32.size digits).map UInt32.ofNat

/-- The least integer of 64 bits is the negative of this. -/
def integerLimit : Nat := 9223372036854775808

/-- The integer of 64 bits that the text is a numeral of. -/
def integer64? : List Char → Option Int
  | '-' :: rest => (digitsBelow? (integerLimit + 1) rest).map fun n => -n
  | '+' :: rest => (digitsBelow? integerLimit rest).map Int.ofNat
  | cs => (digitsBelow? integerLimit cs).map Int.ofNat

/-- The word in decimal, without leading zeros. -/
def decimal (n : UInt32) : String := toString n.toNat

/-- Counting up to the limit gives the lesser of the value and the limit. -/
theorem foldl_countDigit (limit : Nat) (cs : List Char) (n : Nat) :
    cs.foldl (countDigit limit) (min limit n) =
      min limit (cs.foldl (fun n c => 10 * n + digitValue c) n) := by
  induction cs generalizing n with
  | nil => rfl
  | cons c cs ih =>
    rw [List.foldl_cons, List.foldl_cons, ← ih]
    congr 1
    simp only [countDigit]
    omega

/-- A text of digits is a numeral of its value if that is below the limit, and else of
nothing. -/
theorem digitsBelow?_eq (limit : Nat) (cs : List Char) :
    digitsBelow? limit cs =
      if cs ≠ [] ∧ cs.all Char.isDigit ∧ digitsValue cs < limit then some (digitsValue cs)
      else none := by
  have h := foldl_countDigit limit cs 0
  rw [Nat.min_zero] at h
  simp only [digitsBelow?, h, digitsValue]
  grind

end InstanceTables.Text

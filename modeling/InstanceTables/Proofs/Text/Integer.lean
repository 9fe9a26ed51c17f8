import InstanceTables.Proofs.Text.Decimal

/-!
# Integers in decimal

An integer is written with its digits, behind a minus sign if it is negative.  What is written so
is read back as long as the integer has 64 bits (`integer64?_toString`).
-/

namespace InstanceTables.Text

theorem toList_toString_ofNat (m : Nat) : (toString (Int.ofNat m)).toList = Nat.toDigits 10 m := by
  change (Nat.repr m).toList = _
  rw [Nat.toList_repr]

theorem toList_toString_negSucc (m : Nat) :
    (toString (Int.negSucc m)).toList = '-' :: Nat.toDigits 10 (m + 1) := by
  change ("-" ++ Nat.repr (m + 1)).toList = _
  rw [String.toList_append, Nat.toList_repr]
  rfl

/-- A text of digits begins with no sign. -/
theorem head?_toDigits_ne {c : Char} (hc : c.isDigit = false) (m : Nat) :
    (Nat.toDigits 10 m).head? ≠ some c := by
  intro h
  have hdigit := isDigit_of_mem_toDigits (List.mem_of_mem_head? h)
  rw [hc] at hdigit
  exact Bool.false_ne_true hdigit

/-- The digits of a number are read as the number, if that is below the limit. -/
theorem digitsBelow?_toDigits {limit m : Nat} (h : m < limit) :
    digitsBelow? limit (Nat.toDigits 10 m) = some m := by
  have hdigits : (Nat.toDigits 10 m).all Char.isDigit :=
    List.all_eq_true.2 fun _ => isDigit_of_mem_toDigits
  rw [digitsBelow?_eq, digitsValue_toDigits, if_pos ⟨Nat.toDigits_ne_nil, hdigits, h⟩]

/-- Without a sign in front, the whole text has to be digits. -/
theorem integer64?_of_unsigned {cs : List Char} (hminus : cs.head? ≠ some '-')
    (hplus : cs.head? ≠ some '+') :
    integer64? cs = (digitsBelow? integerLimit cs).map Int.ofNat := by
  unfold integer64?
  split
  · exact absurd rfl hminus
  · exact absurd rfl hplus
  · rfl

/-- Integers of 64 bits are read back. -/
theorem integer64?_toString {n : Int} (hlow : -integerLimit ≤ n) (hhigh : n < integerLimit) :
    integer64? (toString n).toList = some n := by
  cases n with
  | ofNat m =>
    have hm : m < integerLimit := Int.ofNat_lt.1 hhigh
    rw [toList_toString_ofNat, integer64?_of_unsigned (head?_toDigits_ne (by decide) m)
      (head?_toDigits_ne (by decide) m), digitsBelow?_toDigits hm, Option.map_some]
  | negSucc m =>
    have hm : m + 1 < integerLimit + 1 := by omega
    rw [toList_toString_negSucc, integer64?, digitsBelow?_toDigits hm]
    rfl

end InstanceTables.Text

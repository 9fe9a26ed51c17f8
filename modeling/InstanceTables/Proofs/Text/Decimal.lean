import InstanceTables.Text.Decimal
import Mathlib.Data.List.Basic

/-!
# Decimal words inside a text

A word in decimal consists of digits, so it ends where the next character is no digit.  The
main statement, `decimal_append_cons_inj`, reads a word and what stands behind it off a text.
-/

namespace InstanceTables.Text

/-- What stands in front of the first character that ends it can be read off a text. -/
theorem takeWhile_append_cons {p : Char → Bool} {w : List Char} (hw : ∀ c ∈ w, p c) {c : Char}
    (hc : p c = false) (r : List Char) : (w ++ c :: r).takeWhile p = w := by
  rw [List.takeWhile_append_of_pos hw, List.takeWhile_cons_of_neg (by simp [hc]),
    List.append_nil]

theorem isDigit_of_mem_toDigits {m : Nat} {c : Char} (h : c ∈ Nat.toDigits 10 m) : c.isDigit :=
  Nat.isDigit_of_mem_toDigits (by decide) (by decide) h

/-- The digits of a number stand for it. -/
theorem digitsValue_toDigits (m : Nat) : digitsValue (Nat.toDigits 10 m) = m :=
  Nat.ofDigitChars_ten_toDigits

theorem toList_decimal (n : UInt32) : (decimal n).toList = Nat.toDigits 10 n.toNat := by
  rw [decimal, Nat.toString_eq_repr, Nat.toList_repr]

theorem isDigit_of_mem_decimal {n : UInt32} {c : Char} (h : c ∈ (decimal n).toList) :
    c.isDigit := by
  rw [toList_decimal] at h
  exact isDigit_of_mem_toDigits h

/-- A line feed is no digit. -/
theorem newline_not_mem_decimal (n : UInt32) : '\n' ∉ (decimal n).toList :=
  fun h => absurd (isDigit_of_mem_decimal h) (by decide)

/-- Different words have different digits. -/
theorem toList_decimal_injective {m n : UInt32} (h : (decimal m).toList = (decimal n).toList) :
    m = n := by
  rw [toList_decimal, toList_decimal] at h
  apply UInt32.toNat_inj.1
  calc
    m.toNat = Nat.ofDigitChars 10 (Nat.toDigits 10 m.toNat) 0 := Nat.ofDigitChars_ten_toDigits.symm
    _ = Nat.ofDigitChars 10 (Nat.toDigits 10 n.toNat) 0 := by rw [h]
    _ = n.toNat := Nat.ofDigitChars_ten_toDigits

/-- The digits in front of a character that is no digit are those of the word. -/
theorem takeWhile_decimal_append (n : UInt32) {c : Char} (hc : c.isDigit = false)
    (r : List Char) :
    ((decimal n).toList ++ c :: r).takeWhile Char.isDigit = (decimal n).toList :=
  takeWhile_append_cons (fun _ => isDigit_of_mem_decimal) hc r

/-- A text that begins with a word and goes on with no digit determines the word. -/
theorem decimal_append_cons_inj {m n : UInt32} {c d : Char} (hc : c.isDigit = false)
    (hd : d.isDigit = false) {r s : List Char} :
    (decimal m).toList ++ c :: r = (decimal n).toList ++ d :: s ↔ m = n ∧ c = d ∧ r = s := by
  constructor
  · intro h
    have hdigits := congrArg (List.takeWhile Char.isDigit) h
    rw [takeWhile_decimal_append m hc, takeWhile_decimal_append n hd] at hdigits
    rw [hdigits, List.append_cancel_left_eq, List.cons.injEq] at h
    exact ⟨toList_decimal_injective hdigits, h⟩
  · rintro ⟨rfl, rfl, rfl⟩
    rfl

end InstanceTables.Text

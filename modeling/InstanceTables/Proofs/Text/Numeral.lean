import InstanceTables.Proofs.Text.Decimal
import Mathlib.Data.List.Induction

/-!
# Numerals

A numeral is a sequence of ASCII digits, of any length but not empty, perhaps with a plus sign in
front.  `word?` reads the numerals of words and refuses everything else.  A word is written as a
numeral by putting zeros, and perhaps a plus sign, in front of its decimal digits (`Writes`).
-/

namespace InstanceTables.Text

/-- The text is a numeral of the number: one or more digits that stand for it, and no sign or a
plus sign. -/
def IsNumeral (cs : List Char) (n : Nat) : Prop :=
  ∃ digits, (cs = digits ∨ cs = '+' :: digits) ∧ digits ≠ [] ∧ digits.all Char.isDigit ∧
    digitsValue digits = n

namespace IsNumeral

variable {cs : List Char} {n : Nat}

theorem ne_nil (h : IsNumeral cs n) : cs ≠ [] := by
  obtain ⟨digits, rfl | rfl, hne, -⟩ := h
  · exact hne
  · exact List.cons_ne_nil _ _

/-- Apart from its sign, a numeral has digits only. -/
theorem plus_or_isDigit (h : IsNumeral cs n) : ∀ c ∈ cs, c = '+' ∨ c.isDigit := by
  obtain ⟨digits, hcs, -, hall, -⟩ := h
  have hdigits := List.all_eq_true.1 hall
  intro c hc
  rcases hcs with rfl | rfl
  · exact Or.inr (hdigits c hc)
  · rcases List.mem_cons.1 hc with rfl | hc
    · exact Or.inl rfl
    · exact Or.inr (hdigits c hc)

/-- A numeral stands for one number only. -/
theorem value_unique {m : Nat} (h : IsNumeral cs n) (h' : IsNumeral cs m) : n = m := by
  obtain ⟨digits, hcs, -, hall, rfl⟩ := h
  obtain ⟨digits', hcs', -, hall', rfl⟩ := h'
  rcases hcs with rfl | rfl <;> rcases hcs' with hcs' | hcs'
  · rw [hcs']
  · simp [hcs'] at hall
  · simp [← hcs'] at hall'
  · rw [(List.cons.inj hcs').2]

end IsNumeral

/-! ## Reading -/

theorem word?_plus (digits : List Char) :
    word? ('+' :: digits) = (digitsBelow? UInt32.size digits).map UInt32.ofNat := rfl

/-- Without a plus sign in front, the whole text has to be digits. -/
theorem word?_of_not_plus {cs : List Char} (h : ∀ digits, cs ≠ '+' :: digits) :
    word? cs = (digitsBelow? UInt32.size cs).map UInt32.ofNat := by
  unfold word?
  split
  · exact absurd rfl (h _)
  · rfl

/-- Digits are read as the word that they stand for. -/
theorem map_digitsBelow?_eq_some_iff {digits : List Char} {n : UInt32} :
    (digitsBelow? UInt32.size digits).map UInt32.ofNat = some n ↔
      digits ≠ [] ∧ digits.all Char.isDigit ∧ digitsValue digits = n.toNat := by
  have hn : n.toNat < UInt32.size := n.toNat_lt
  rw [digitsBelow?_eq]
  constructor
  · intro h
    split at h
    · next hdigits =>
      obtain ⟨hne, hall, hlt⟩ := hdigits
      obtain rfl := Option.some.inj h
      exact ⟨hne, hall, (UInt32.toNat_ofNat_of_lt' hlt).symm⟩
    · simp at h
  · rintro ⟨hne, hall, hvalue⟩
    rw [if_pos ⟨hne, hall, hvalue ▸ hn⟩, hvalue, Option.map_some, UInt32.ofNat_toNat]

/-- A word is read from its numerals. -/
theorem word?_eq_some_iff {cs : List Char} {n : UInt32} :
    word? cs = some n ↔ IsNumeral cs n.toNat := by
  by_cases hplus : ∃ digits, cs = '+' :: digits
  · obtain ⟨digits, rfl⟩ := hplus
    rw [word?_plus, map_digitsBelow?_eq_some_iff]
    constructor
    · rintro ⟨hne, hall, hvalue⟩
      exact ⟨digits, Or.inr rfl, hne, hall, hvalue⟩
    · rintro ⟨digits', rfl | h, hne, hall, hvalue⟩
      · simp at hall
      · obtain rfl := (List.cons.inj h).2
        exact ⟨hne, hall, hvalue⟩
  · rw [not_exists] at hplus
    rw [word?_of_not_plus hplus, map_digitsBelow?_eq_some_iff]
    constructor
    · rintro ⟨hne, hall, hvalue⟩
      exact ⟨cs, Or.inl rfl, hne, hall, hvalue⟩
    · rintro ⟨digits, rfl | h, hne, hall, hvalue⟩
      · exact ⟨hne, hall, hvalue⟩
      · exact absurd h (hplus digits)

/-- What is no numeral of a word is refused. -/
theorem word?_eq_none_iff {cs : List Char} :
    word? cs = none ↔ ∀ n : UInt32, ¬ IsNumeral cs n.toNat := by
  rw [Option.eq_none_iff_forall_ne_some]
  exact forall_congr' fun n => not_congr word?_eq_some_iff

/-! ## Writing -/

/-- The text is the word in decimal, behind any number of zeros and perhaps a plus sign. -/
inductive Writes (n : UInt32) : List Char → Prop
  | unsigned (zeros : Nat) : Writes n (List.replicate zeros '0' ++ (decimal n).toList)
  | signed (zeros : Nat) : Writes n ('+' :: (List.replicate zeros '0' ++ (decimal n).toList))

/-- Leading zeros make no difference. -/
theorem digitsValue_zeros_append (zeros : Nat) (cs : List Char) :
    digitsValue (List.replicate zeros '0' ++ cs) = digitsValue cs := by
  change Nat.ofDigitChars 10 _ 0 = Nat.ofDigitChars 10 cs 0
  rw [Nat.ofDigitChars_append, Nat.ofDigitChars_replicate_zero, Nat.mul_zero]

theorem digitsValue_concat (digits : List Char) (c : Char) :
    digitsValue (digits ++ [c]) = 10 * digitsValue digits + digitValue c := by
  simp [digitsValue]

theorem digitsValue_decimal (n : UInt32) : digitsValue (decimal n).toList = n.toNat := by
  rw [toList_decimal, digitsValue_toDigits]

/-- However a word is written, the text is a numeral of it. -/
theorem Writes.isNumeral {n : UInt32} {cs : List Char} (h : Writes n cs) :
    IsNumeral cs n.toNat := by
  have hne (zeros : Nat) : List.replicate zeros '0' ++ (decimal n).toList ≠ [] := by
    rw [toList_decimal]
    exact List.append_ne_nil_of_right_ne_nil _ Nat.toDigits_ne_nil
  have hall (zeros : Nat) : (List.replicate zeros '0' ++ (decimal n).toList).all Char.isDigit := by
    rw [List.all_eq_true]
    intro c hc
    rcases List.mem_append.1 hc with hc | hc
    · rw [List.eq_of_mem_replicate hc]
      rfl
    · exact isDigit_of_mem_decimal hc
  have hvalue (zeros : Nat) :
      digitsValue (List.replicate zeros '0' ++ (decimal n).toList) = n.toNat := by
    rw [digitsValue_zeros_append, digitsValue_decimal]
  cases h with
  | unsigned zeros => exact ⟨_, Or.inl rfl, hne zeros, hall zeros, hvalue zeros⟩
  | signed zeros => exact ⟨_, Or.inr rfl, hne zeros, hall zeros, hvalue zeros⟩

/-- A digit is the one that its value is written with. -/
theorem toDigits_digitValue {c : Char} (h : c.isDigit) :
    digitValue c < 10 ∧ Nat.toDigits 10 (digitValue c) = [c] := by
  obtain ⟨hlow, hhigh⟩ : 48 ≤ c.toNat ∧ c.toNat ≤ 57 := Char.isDigit_iff_toNat.1 h
  have hlt : digitValue c < 10 := by
    change c.toNat - 48 < 10
    omega
  have hc : (digitValue c).digitChar = c := by
    apply Char.toNat_inj.1
    rw [Nat.toNat_digitChar_of_lt_ten hlt]
    change 48 + (c.toNat - 48) = c.toNat
    omega
  refine ⟨hlt, ?_⟩
  rw [Nat.toDigits_of_lt_base hlt, hc]

/-- Digits are the decimal digits of their value, but for leading zeros. -/
theorem exists_zeros_append {digits : List Char} (hne : digits ≠ [])
    (hall : ∀ c ∈ digits, c.isDigit) :
    ∃ zeros, digits = List.replicate zeros '0' ++ Nat.toDigits 10 (digitsValue digits) := by
  induction digits using List.reverseRecOn with
  | nil => exact absurd rfl hne
  | append_singleton ds c ih =>
    obtain ⟨hds, hc⟩ := List.forall_mem_append.1 hall
    obtain ⟨hlt, hdigit⟩ := toDigits_digitValue (hc c List.mem_cons_self)
    rw [digitsValue_concat]
    by_cases hnil : ds = []
    · subst hnil
      refine ⟨0, ?_⟩
      simp [digitsValue, hdigit]
    · obtain ⟨zeros, hzeros⟩ := ih hnil hds
      rcases Nat.eq_zero_or_pos (digitsValue ds) with hzero | hpos
      · refine ⟨zeros + 1, ?_⟩
        rw [hzero] at hzeros ⊢
        rw [Nat.mul_zero, Nat.zero_add, hdigit, List.replicate_succ', hzeros]
        rfl
      · refine ⟨zeros, ?_⟩
        rw [← Nat.toDigits_append_toDigits (by decide) hpos hlt, hdigit, ← List.append_assoc,
          ← hzeros]

/-- The numerals of a word are the ways to write it. -/
theorem writes_iff {n : UInt32} {cs : List Char} : Writes n cs ↔ IsNumeral cs n.toNat := by
  refine ⟨Writes.isNumeral, ?_⟩
  rintro ⟨digits, hcs, hne, hall, hvalue⟩
  obtain ⟨zeros, hzeros⟩ := exists_zeros_append hne (List.all_eq_true.1 hall)
  rw [hvalue, ← toList_decimal] at hzeros
  rcases hcs with rfl | rfl
  · exact hzeros ▸ .unsigned zeros
  · exact hzeros ▸ .signed zeros

end InstanceTables.Text

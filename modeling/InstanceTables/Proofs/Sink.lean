import InstanceTables.Sink

/-!
# What a sink holds

A sink that has been sent a text holds the first bytes of it, as many as it has room for: the
`cut` of the text.  It does not matter in how many pieces the text was sent, so `write_of_cut`
says all about one more piece.
-/

namespace InstanceTables.Sink

/-- There is room for so many bytes. -/
def fits (capacity : Option Nat) (size : Nat) : Bool := capacity.all fun c => size ≤ c

/-- What a sink of the capacity holds of the bytes that it has been sent. -/
def cut (capacity : Option Nat) (bytes : ByteArray) : ByteArray :=
  match capacity with
  | none => bytes
  | some c => bytes.extract 0 c

variable {capacity : Option Nat} {a b : ByteArray}

@[simp] theorem fits_none (size : Nat) : fits none size = true := rfl

@[simp] theorem fits_some (c size : Nat) : fits (some c) size = decide (size ≤ c) := rfl

/-- A new sink holds the cut of the empty text. -/
theorem cut_empty (capacity : Option Nat) : cut capacity ByteArray.empty = ByteArray.empty := by
  cases capacity with
  | none => rfl
  | some c => exact ByteArray.extract_eq_empty_iff.2 (Nat.min_le_right _ _)

/-- Where there is room for more bytes, there is room for fewer. -/
theorem fits_of_le {m n : Nat} (h : m ≤ n) (hn : fits capacity n) : fits capacity m := by
  cases capacity with
  | none => rfl
  | some c =>
    rw [fits_some, decide_eq_true_eq] at hn ⊢
    exact Nat.le_trans h hn

/-- A full sink takes nothing more. -/
theorem cut_append_of_not_fits (h : ¬ fits capacity a.size) :
    cut capacity (a ++ b) = cut capacity a := by
  cases capacity with
  | none => simp at h
  | some c =>
    have hc : c < a.size := by simpa using h
    change (a ++ b).extract 0 c = a.extract 0 c
    rw [ByteArray.extract_append, Nat.sub_eq_zero_of_le (Nat.le_of_lt hc), Nat.zero_sub,
      ByteArray.extract_same, ByteArray.append_empty]

/-- The cut of a text is the beginning of every longer text, of the length of the text or of
the capacity. -/
theorem extract_append_min (c : Nat) : (a ++ b).extract 0 (min c a.size) = cut (some c) a := by
  have hb : b.extract (0 - a.size) (min c a.size - a.size) = ByteArray.empty :=
    ByteArray.extract_eq_empty_iff.2 (by omega)
  have ha : (a.extract 0 a.size).extract 0 c = a.extract 0 (min c a.size) := by
    rw [ByteArray.extract_extract, Nat.zero_add, Nat.zero_add]
  rw [ByteArray.extract_append, hb, ByteArray.append_empty, ← ha, ByteArray.extract_zero_size]
  rfl

/-- A sink that holds the cut of a text holds the cut of the longer text after one more piece,
which is taken whole if and only if the longer text fits. -/
theorem write_of_cut {s : Sink} {text piece : String} (hs : s.bytes = cut s.capacity text.toUTF8)
    (hpiece : piece ≠ "") :
    s.write piece =
      (if fits s.capacity (text ++ piece).utf8ByteSize then .ok () else .error .full,
        { s with bytes := cut s.capacity (text ++ piece).toUTF8 }) := by
  have hpos : 0 < piece.utf8ByteSize := by
    rw [Nat.pos_iff_ne_zero, ne_eq, String.utf8ByteSize_eq_zero_iff]
    exact hpiece
  obtain ⟨capacity, bytes, flushes⟩ := s
  cases capacity with
  | none =>
    obtain rfl : bytes = text.toUTF8 := hs
    simp [write, fitting, cut]
  | some c =>
    obtain rfl : bytes = text.toUTF8.extract 0 c := hs
    have hsize (t : String) : t.toUTF8.size = t.utf8ByteSize := rfl
    have hroom : c - (min c text.utf8ByteSize - 0) = c - text.utf8ByteSize := by omega
    have hkept : min (c - text.utf8ByteSize) piece.utf8ByteSize - 0 < piece.utf8ByteSize ↔
        ¬ (text ++ piece).utf8ByteSize ≤ c := by
      rw [String.utf8ByteSize_append]
      omega
    have hbytes : text.toUTF8.extract 0 c ++ piece.toUTF8.extract 0 (c - text.utf8ByteSize) =
        (text ++ piece).toUTF8.extract 0 c := by
      simp [ByteArray.extract_append]
    simp only [write, fitting, cut, fits_some, ByteArray.size_extract, hsize, hroom, hkept, hbytes,
      ite_not, decide_eq_true_eq]

end InstanceTables.Sink

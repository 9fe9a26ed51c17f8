import InstanceTables.Catalogue

/-!
# Where a catalogue comes from

A catalogue is built from seed rows, from a text that lists them, or from a file that holds such
a text.  The order is checked first in each case, so that a number that is none is reported
whatever the seeds are.  Then a text gives the catalogue of its rows, and a file that of its
text: all that a file adds is that reading it is logged.
-/

namespace InstanceTables

variable {value : Int} {n : MaxOrder} {text path : String} {rows : List Space}

/-- The numbers that are no orders are those that are no words. -/
theorem MaxOrder.ofInt?_eq_none_iff : ofInt? value = none ↔ value < 0 ∨ 4294967295 < value := by
  have hrange : (0 ≤ value ∧ value < UInt32.size) ↔ ¬ (value < 0 ∨ 4294967295 < value) := by
    change (0 ≤ value ∧ value < 4294967296) ↔ _
    omega
  simp only [ofInt?, hrange, ite_eq_right_iff, reduceCtorEq, imp_false, Decidable.not_not]

namespace Catalogue

theorem order_of_eq (hn : value = n.max.toNat) : order value = .ok n := by
  rw [order, MaxOrder.ofInt?_eq_some_iff.2 hn]

theorem order_of_lt (h : value < 0 ∨ 4294967295 < value) :
    order value = .error (.invalidOrder value) := by
  rw [order, MaxOrder.ofInt?_eq_none_iff.2 h]

theorem seeds_of_rows (h : Seed.parseTable text = .ok rows) : seeds text = .ok rows := by
  rw [seeds, h]
  rfl

theorem seeds_of_error {e : SeedError} (h : Seed.parseTable text = .error e) :
    seeds text = .error (.seed e) := by
  rw [seeds, h]
  rfl

/-- Seed rows always have a catalogue. -/
theorem ofRows_of_eq (hn : value = n.max.toNat) (rows : List Space) :
    ofRows rows value = .ok (build rows n) := by
  rw [ofRows, order_of_eq hn]
  rfl

/-- A text has the catalogue of the rows that it lists. -/
theorem ofText_of_rows (h : Seed.parseTable text = .ok rows) (value : Int) :
    ofText text value = ofRows rows value := by
  rw [ofText, ofRows, seeds_of_rows h]
  cases order value <;> rfl

theorem ofText_of_error (hn : value = n.max.toNat) {e : SeedError}
    (h : Seed.parseTable text = .error e) : ofText text value = .error (.seed e) := by
  rw [ofText, order_of_eq hn, seeds_of_error h]
  rfl

/-- Without a valid order there is no catalogue, whatever was read. -/
theorem ofFile_of_order (h : value < 0 ∨ 4294967295 < value) (contents : Except FileFault String) :
    ofFile path contents value = .error (.invalidOrder value) := by
  rw [ofFile, order_of_lt h]
  rfl

variable {contents : Except FileFault String}

theorem ofFile_of_unreadable (hn : value = n.max.toNat) {fault : FileFault}
    (hread : contents = .error fault) :
    ofFile path contents value = .error (.unreadable path fault) := by
  rw [ofFile, order_of_eq hn, hread]
  rfl

/-- A file that is read has the catalogue of its text, or the error of that. -/
theorem value_ofFile (hread : contents = .ok text) (path : String) (value : Int) :
    (ofFile path contents value).map Logged.value = (ofText text value).map Logged.value := by
  have hseeds : seedsOfFile path contents = seeds text := by rw [hread]; rfl
  rw [ofFile, ofText, hseeds]
  cases order value with
  | error => rfl
  | ok n => cases seeds text <;> rfl

theorem ofFile_of_error (hn : value = n.max.toNat) (hread : contents = .ok text) {e : SeedError}
    (h : Seed.parseTable text = .error e) : ofFile path contents value = .error (.seed e) := by
  have hvalue := value_ofFile hread path value
  rw [ofText_of_error hn h] at hvalue
  cases hfile : ofFile path contents value with
  | ok tables => rw [hfile] at hvalue; nomatch hvalue
  | error e' => rw [hfile] at hvalue; exact congrArg _ (Except.error.inj hvalue)

/-- What a file adds is that reading it is logged. -/
theorem ofFile_of_rows (path : String) (hn : value = n.max.toNat) (hread : contents = .ok text)
    (h : Seed.parseTable text = .ok rows) :
    ofFile path contents value =
      .ok ⟨ofSeeds rows n, .seedsRead path rows.length :: (build rows n).events⟩ := by
  have hseeds : seedsOfFile path contents = .ok rows := by rw [hread]; exact seeds_of_rows h
  rw [ofFile, order_of_eq hn, hseeds]
  rfl

end Catalogue

end InstanceTables

import InstanceTables.Space
import InstanceTables.Tensor

/-!
# Sorting by the declared order

A type that derives `Ord` is ordered by its constructors as they are declared, then by its
fields from first to last.  So its elements are compared as lists of words are, and `Keyed`
says which lists these are.  It follows that there is one way only to sort a list
(`eq_sorted_iff`).
-/

namespace InstanceTables

open Std

/-- The elements of `l` in ascending order; equal ones keep their places. -/
def sorted {α : Type} [Ord α] (l : List α) : List α := l.mergeSort fun a b => (compare a b).isLE

/-- Elements are compared by their keys, which tell them apart. -/
class Keyed (α : Type) [Ord α] where
  key : α → List UInt32
  key_injective : Function.Injective key
  compare_key (a b : α) : compare a b = compare (key a) (key b)

namespace Keyed

theorem compare_cons (a b : UInt32) (l m : List UInt32) :
    compare (a :: l) (b :: m) = (compare a b).then (compare l m) :=
  List.compareLex_cons_cons

theorem compare_nil : compare ([] : List UInt32) [] = .eq := List.compareLex_nil_nil

instance : Keyed Transformation where
  key
    | .hGrad => [0]
    | .hDiv => [1]
  key_injective t u h := by cases t <;> cases u <;> simp_all
  compare_key t u := by cases t <;> cases u <;> simp only [compare_cons, compare_nil] <;> rfl

instance : Keyed Mapping where
  key m := [m.dim, m.codim]
  key_injective m m' h := by cases m; cases m'; simpa using h
  compare_key m m' := by simp only [compare_cons, compare_nil]; rfl

instance : Keyed Shape where
  key f := [f.dim, f.range, f.rank]
  key_injective f g h := by cases f; cases g; simpa using h
  compare_key f g := by simp only [compare_cons, compare_nil]; rfl

instance : Keyed Value where
  key v := [v.range, v.rank]
  key_injective v w h := by cases v; cases w; simpa using h
  compare_key v w := by simp only [compare_cons, compare_nil]; rfl

instance : Keyed Derivative where
  key d := d.order :: d.dim :: key d.value
  key_injective := by
    intro ⟨o, d, v⟩ ⟨o', d', v'⟩ h
    obtain ⟨rfl, rfl, hv⟩ : o = o' ∧ d = d' ∧ key v = key v' := by simpa using h
    rw [key_injective hv]
  compare_key d e := by
    rw [compare_cons, compare_cons, ← compare_key,
      ← Ordering.then_eq (o := compare d.value e.value)]
    rfl

instance : Keyed Tensor where
  key
    | .derivative d => 0 :: key d
    | .value v => 1 :: key v
  key_injective t u h := by
    cases t <;> cases u
    case derivative.derivative => rw [key_injective (List.cons.inj h).2]
    case value.value => rw [key_injective (List.cons.inj h).2]
    all_goals exact absurd (List.cons.inj h).1 (by decide)
  compare_key t u := by
    cases t <;> cases u <;> simp only [compare_cons, ← compare_key]
    · exact Ordering.then_eq
    · rfl
    · rfl
    · exact Ordering.then_eq

variable {α : Type} [Ord α] [Keyed α]

instance : TransOrd α where
  eq_swap {a b} := by
    rw [compare_key, compare_key b a]
    exact OrientedCmp.eq_swap
  isLE_trans {a b c} hab hbc := by
    rw [compare_key] at hab hbc ⊢
    exact TransCmp.isLE_trans hab hbc

instance : LawfulEqOrd α where
  eq_of_compare {a b} h := by
    rw [compare_key] at h
    exact key_injective (LawfulEqOrd.eq_of_compare h)

end Keyed

section

variable {α : Type} [Ord α]

theorem sorted_perm (l : List α) : (sorted l).Perm l := List.mergeSort_perm l _

variable [Keyed α]

theorem pairwise_sorted (l : List α) : (sorted l).Pairwise fun a b => (compare a b).isLE := by
  refine List.pairwise_mergeSort (fun a b c => TransCmp.isLE_trans) (fun a b => ?_) l
  have hswap : compare b a = (compare a b).swap := OrientedCmp.eq_swap
  rw [hswap]
  cases compare a b <;> rfl

/-- Sorting has one result only, for elements that compare as equal are equal. -/
theorem eq_sorted_iff {l m : List α} :
    m = sorted l ↔ m.Perm l ∧ m.Pairwise fun a b => (compare a b).isLE := by
  constructor
  · rintro rfl
    exact ⟨sorted_perm l, pairwise_sorted l⟩
  · rintro ⟨hperm, hpairwise⟩
    refine List.Perm.eq_of_pairwise (fun a b _ _ hab hba => ?_) hpairwise (pairwise_sorted l)
      (hperm.trans (sorted_perm l).symm)
    exact LawfulEqOrd.eq_of_compare (OrientedCmp.isLE_antisymm hab hba)

/-- Lists are sorted alike if one is the other in another order. -/
theorem sorted_eq_sorted_iff {l m : List α} : sorted l = sorted m ↔ l.Perm m := by
  rw [eq_sorted_iff, and_iff_left (pairwise_sorted l)]
  exact ⟨(sorted_perm l).symm.trans, (sorted_perm l).trans⟩

end

end InstanceTables

import Std.Data.HashSet

/-!
# First occurrences

Every table of this library lists its entries without repetition, in the order in
which they first came up.  `distinct` is that one operation.  It goes through the list once
and keeps the elements it has met in a hash set; `distinct_eq_eraseDups` says that this
comes to removing every later copy of an element.
-/

namespace InstanceTables

variable {α : Type} [DecidableEq α] [Hashable α]

/-- The elements met so far, as a set and in order of their first occurrence. -/
structure Met (α : Type) [DecidableEq α] [Hashable α] where
  seen : Std.HashSet α := {}
  order : Array α := #[]

/-- Meets one more element. -/
def Met.meet (m : Met α) (a : α) : Met α :=
  if m.seen.contains a then m else ⟨m.seen.insert a, m.order.push a⟩

/-- The elements of `l` in order of their first occurrence, each once. -/
def distinct (l : List α) : List α := (l.foldl Met.meet {}).order.toList

/-- What is met for the first time is added behind the rest. -/
theorem Met.order_foldl_meet (l : List α) (m : Met α) :
    (l.foldl Met.meet m).order.toList =
      m.order.toList ++ (l.filter fun a => !m.seen.contains a).eraseDups := by
  induction l generalizing m with
  | nil => simp
  | cons a l ih =>
    rw [List.foldl_cons, ih, Met.meet]
    split
    · next ha => simp [ha]
    · next ha =>
      have hf : (l.filter fun b => !(m.seen.insert a).contains b) =
          (l.filter fun b => !m.seen.contains b).filter fun b => !b == a := by
        rw [List.filter_filter]
        refine List.filter_congr fun b _ => ?_
        rw [Std.HashSet.contains_insert, Bool.not_or, Bool.beq_comm (a := a)]
      rw [List.filter_cons_of_pos (by simp [ha]), List.eraseDups_cons, hf]
      simp

/-- Later copies go, and nothing else does. -/
theorem distinct_eq_eraseDups (l : List α) : distinct l = l.eraseDups := by
  rw [distinct, Met.order_foldl_meet, List.nil_append]
  congr 1
  simp

@[simp] theorem distinct_nil : distinct ([] : List α) = [] := rfl

/-- The head stays; its later copies go. -/
theorem distinct_cons (a : α) (l : List α) :
    distinct (a :: l) = a :: distinct (l.filter fun b => !b == a) := by
  simp only [distinct_eq_eraseDups, List.eraseDups_cons]

/-- Deduplication loses no element and adds none. -/
@[simp] theorem mem_distinct {a : α} {l : List α} : a ∈ distinct l ↔ a ∈ l := by
  rw [distinct_eq_eraseDups, List.mem_eraseDups]

end InstanceTables

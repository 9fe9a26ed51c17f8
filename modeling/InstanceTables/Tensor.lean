import InstanceTables.Shape

/-!
# Tensor types

The values of a function of a shape, and its derivatives of some order, are tensors.
The order-zero derivative of a function is a tensor on a line: it does not depend on
the domain, and so neither on the order nor on the dimension of the function.
-/

namespace InstanceTables

/-- The tensor type of a function's values. -/
structure Value where
  range : UInt32
  rank : UInt32
deriving DecidableEq, Hashable, Ord, Repr

def Value.ofShape (f : Shape) : Value := ⟨f.range, f.rank⟩

/-- The tensor type of a derivative: `order` times linear in `dim` directions, with
values of type `value`. -/
structure Derivative where
  order : UInt32
  dim : UInt32
  value : Value
deriving DecidableEq, Hashable, Ord, Repr

namespace Derivative

/-- The derivative of the given order of functions of shape `f`, just as it stands. -/
def ofShape (order : UInt32) (f : Shape) : Derivative := ⟨order, f.dim, .ofShape f⟩

/-- The type that stands for the derivative of order zero. -/
def zeroth (f : Shape) : Derivative := ⟨1, 1, .ofShape f⟩

/-- The derivative type of the given order, with order zero replaced by `zeroth`. -/
def ofOrder (order : UInt32) (f : Shape) : Derivative :=
  if order = 0 then zeroth f else ofShape order f

end Derivative

/-- A tensor type: that of a derivative or that of a value. -/
inductive Tensor where
  | derivative (d : Derivative)
  | value (v : Value)
deriving DecidableEq, Hashable, Ord, Repr

/-- The highest derivative order that is instantiated. -/
structure MaxOrder where
  max : UInt32
deriving DecidableEq, Repr

namespace MaxOrder

variable (n : MaxOrder)

/-- A number is an order if it is a word. -/
def ofInt? (value : Int) : Option MaxOrder :=
  if 0 ≤ value ∧ value < UInt32.size then some ⟨.ofNat value.toNat⟩ else none

/-- The first `count` of the orders from zero up to the highest, or all of them if
there are fewer. -/
def firstOrders (count : Nat) : List UInt32 :=
  (List.range (min count (n.max.toNat + 1))).map UInt32.ofNat

/-- The orders from zero up to the highest. -/
def orders : List UInt32 := n.firstOrders (n.max.toNat + 1)

def text : String := toString n.max.toNat

/-- The orders are the words, each as the number it stands for. -/
theorem ofInt?_eq_some_iff {value : Int} {n : MaxOrder} :
    ofInt? value = some n ↔ value = n.max.toNat := by
  have hn : n.max.toNat < UInt32.size := n.max.toNat_lt
  unfold ofInt?
  constructor
  · intro h
    split at h
    · next hv =>
      obtain rfl := Option.some.inj h
      rw [UInt32.toNat_ofNat_of_lt' (by omega)]
      omega
    · simp at h
  · rintro rfl
    rw [if_pos ⟨by omega, by omega⟩, Int.toNat_natCast, UInt32.ofNat_toNat]

/-- The orders listed are those up to the highest. -/
theorem mem_orders {o : UInt32} : o ∈ n.orders ↔ o ≤ n.max := by
  have hn : n.max.toNat < UInt32.size := n.max.toNat_lt
  simp only [orders, firstOrders, Nat.min_self, List.mem_map, List.mem_range,
    UInt32.le_iff_toNat_le]
  constructor
  · rintro ⟨k, hk, rfl⟩
    rw [UInt32.toNat_ofNat_of_lt' (by omega)]
    omega
  · exact fun h => ⟨o.toNat, by omega, UInt32.ofNat_toNat⟩

theorem orders_ne_nil : n.orders ≠ [] :=
  List.ne_nil_of_mem (n.mem_orders.2 UInt32.zero_le)

end MaxOrder

end InstanceTables

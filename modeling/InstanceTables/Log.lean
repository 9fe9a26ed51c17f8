import InstanceTables.Family
import InstanceTables.Tensor

/-!
# The log

Building the tables and writing declarations leaves a trace of events.  An `Event` is
one fact about the run; its level, text and fields are read off it.  A `Logged` result
comes with the events of the computation that led to it, first to last.
-/

namespace InstanceTables

/-- How important an event is; a span marks the start of a larger task. -/
inductive Level where
  | debug
  | warn
  | span
deriving DecidableEq, Repr

/-- What is recorded under a field's name: a number, or a text. -/
inductive FieldValue where
  | count (n : Nat)
  | text (s : String)
deriving DecidableEq, Repr

structure ClosureSizes where
  user : Nat
  face : Nat
  all : Nat
  extended : Nat
deriving DecidableEq, Repr

structure ProjectionSizes where
  mappings : Nat
  functions : Nat
  refSpaces : Nat
deriving DecidableEq, Repr

structure ContainerSizes where
  dims : Nat
  multiArrays : Nat
  productArrays : Nat
  valueVectors : Nat
  valueTables : Nat
deriving DecidableEq, Repr

/-- A fact about a run. -/
inductive Event where
  | seedsRead (path : String) (rows : Nat)
  /-- The tables of so many seed rows are about to be built. -/
  | started (seeds : Nat) (order : MaxOrder)
  /-- A user row of dimension zero has no face. -/
  | faceless (dim codim : UInt32)
  | closureBuilt (sizes : ClosureSizes)
  | projectionBuilt (sizes : ProjectionSizes)
  | tensorsEnumerated (order : MaxOrder) (derivatives values : Nat)
  | containersEnumerated (sizes : ContainerSizes)
  /-- A family has been written in so many declarations. -/
  | familyWritten (family : Family) (written : Nat)
deriving DecidableEq, Repr

namespace Event

def level : Event → Level
  | started .. => .span
  | faceless .. => .warn
  | _ => .debug

def message : Event → String
  | started .. => "instantiation_info"
  | seedsRead .. => "read seed file"
  | faceless .. => "zero-dimensional space has no face; skipping"
  | closureBuilt .. => "built space table"
  | projectionBuilt .. => "built dimension tables"
  | tensorsEnumerated .. => "enumerated tensor types"
  | containersEnumerated .. => "enumerated containers"
  | familyWritten .. => "wrote family"

/-- What is recorded with the event, by field name. -/
def fields : Event → List (String × FieldValue)
  | seedsRead path rows => [("path", .text path), ("rows", .count rows)]
  | started seeds order => [("seeds", .count seeds), ("max_der_order", .text order.text)]
  | faceless dim codim => [("dim", .count dim.toNat), ("codim", .count codim.toNat)]
  | closureBuilt s =>
    [("user", .count s.user), ("face", .count s.face), ("all", .count s.all),
      ("extended", .count s.extended)]
  | projectionBuilt s =>
    [("mappings", .count s.mappings), ("functions", .count s.functions),
      ("ref_spaces", .count s.refSpaces)]
  | tensorsEnumerated order derivatives values =>
    [("max_order", .text order.text), ("derivatives", .count derivatives),
      ("values", .count values)]
  | containersEnumerated s =>
    [("dims", .count s.dims), ("multi_arrays", .count s.multiArrays),
      ("product_arrays", .count s.productArrays),
      ("value_vectors", .count s.valueVectors), ("value_tables", .count s.valueTables)]
  | familyWritten family written =>
    [("family", .text family.name), ("written", .count written)]

def isWarning (e : Event) : Bool := e.level = .warn

end Event

/-- What the program itself logs once an output is complete.  It is logged for information: it
ranks between the events that are warnings and those that are not. -/
structure Completion where
  path : String
  declarations : Nat
deriving DecidableEq, Repr

namespace Completion

def message (_ : Completion) : String := "wrote instantiations"

def fields (c : Completion) : List (String × FieldValue) :=
  [("path", .text c.path), ("declarations", .count c.declarations)]

end Completion

/-- A result together with the events of the computation that led to it. -/
structure Logged (α : Type) where
  value : α
  events : List Event
deriving DecidableEq, Repr

namespace Logged

variable {α β : Type}

/-- Steps that follow one another log one after the other. -/
instance : Monad Logged where
  pure a := ⟨a, []⟩
  bind x k := ⟨(k x.value).value, x.events ++ (k x.value).events⟩

def log (e : Event) : Logged Unit := ⟨(), [e]⟩

/-- The warnings among the events. -/
def warnings (x : Logged α) : List Event := x.events.filter Event.isWarning

@[simp] theorem value_pure (a : α) : (pure a : Logged α).value = a := rfl

@[simp] theorem events_pure (a : α) : (pure a : Logged α).events = [] := rfl

@[simp] theorem value_bind (x : Logged α) (k : α → Logged β) :
    (x >>= k).value = (k x.value).value := rfl

@[simp] theorem events_bind (x : Logged α) (k : α → Logged β) :
    (x >>= k).events = x.events ++ (k x.value).events := rfl

@[simp] theorem value_log (e : Event) : (log e).value = () := rfl

@[simp] theorem events_log (e : Event) : (log e).events = [e] := rfl

end Logged

end InstanceTables

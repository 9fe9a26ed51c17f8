import InstanceTables.Writer

/-!
# Sessions

A session is a sequence of steps on one writer.  A step that fails does not end it; every
step leaves an item that says what came of it.
-/

namespace InstanceTables.Session

/-- A step of a session. -/
inductive Step where
  /-- Declares one class by name. -/
  | declare (className : String)
  /-- Declares classes by name, in turn. -/
  | declareAll (classNames : List String)
  /-- Declares a family of a catalogue. -/
  | family (c : Catalogue) (f : Family)
  /-- Declares the selected families of a catalogue. -/
  | families (c : Catalogue) (selected : List Family)
  | flush
deriving DecidableEq, Repr

/-- What a step returns. -/
inductive Result where
  | done
  /-- So many declarations were written. -/
  | written (count : Nat)
  /-- The sink has been flushed so many times. -/
  | flushed (times : Nat)
deriving DecidableEq, Repr

def Step.run : Step → Emit Result
  | declare className => do
    Emit.declareName className
    return .done
  | declareAll classNames => do
    classNames.forM Emit.declareName
    return .done
  | family c f => return .written (← Emit.declareFamily c f)
  | families c selected => return .written (← Emit.declareFamilies c selected)
  | flush => return .flushed (← Emit.flush)

/-- What came of a step: its result, the bytes that the sink took during it, and the count
of declarations after it. -/
structure Item where
  result : Except SinkFault Result
  received : ByteArray
  declared : Nat

/-- Carries out the step and tells what came of it. -/
def Step.act (step : Step) : StateM Writer Item := fun w =>
  let before := w.sink.bytes.size
  let (result, after) := step.run.run.run w
  let received := after.sink.bytes.extract before after.sink.bytes.size
  ({ result, received, declared := after.declared }, after)

/-- Carries out the steps in turn; gives an item for each of them. -/
def run (steps : List Step) : StateM Writer (List Item) := steps.mapM Step.act

end InstanceTables.Session

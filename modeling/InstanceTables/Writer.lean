import InstanceTables.Declaration
import InstanceTables.Sink

/-!
# Writing declarations

A writer sends declarations to a sink, one line each, and counts those whose whole line
was taken.  An action that fails keeps what it did before the failure: the bytes that were
taken, the count and the log.
-/

namespace InstanceTables

/-- A sink, the number of declarations it has taken in full, and the log so far. -/
structure Writer where
  sink : Sink := {}
  declared : Nat := 0
  log : Array Event := #[]

/-- Actions on a writer, which may fail half-way. -/
abbrev Emit := ExceptT SinkFault (StateM Writer)

namespace Emit

def send (text : String) : Emit Unit :=
  .mk fun w =>
    let (outcome, sink) := w.sink.write text
    (outcome, { w with sink })

theorem run_send (text : String) (w : Writer) :
    (send text).run.run w =
      ((w.sink.write text).1, { w with sink := (w.sink.write text).2 }) := rfl

def record (e : Event) : Emit Unit := modify fun w => { w with log := w.log.push e }

def declareName (className : String) : Emit Unit := do
  send (declarationLine className)
  modify fun w => { w with declared := w.declared + 1 }

/-- A declaration is counted if the sink took its line whole. -/
theorem run_declareName (className : String) (w : Writer) :
    (declareName className).run.run w =
      match w.sink.write (declarationLine className) with
      | (.ok (), sink) => (.ok (), { w with sink, declared := w.declared + 1 })
      | (.error e, sink) => (.error e, { w with sink }) := by
  unfold declareName
  cases h : w.sink.write (declarationLine className) with
  | mk outcome sink => cases outcome <;> simp [run_send, h, ExceptT.run_bind] <;> rfl

def declare {α : Type} [Spelled α] (a : α) : Emit Unit := declareName (spell a)

def declareAll {α : Type} [Spelled α] (as : List α) : Emit Unit := as.forM declare

/-- Declares the entries of a family and returns how many there are. -/
def declareFamily (c : Catalogue) (f : Family) : Emit Nat := do
  let before := (← get).declared
  declareAll (f.declarations c)
  let written := (← get).declared - before
  record (.familyWritten f written)
  return written

/-- Declares the entries of each selected family, once and in the order of selection, and
returns how many there are. -/
def declareFamilies (c : Catalogue) (selected : List Family) : Emit Nat :=
  (distinct selected).foldlM (fun n f => return n + (← declareFamily c f)) 0

/-- Flushes the sink and returns how often that has been done. -/
def flush : Emit Nat := do
  modify fun w => { w with sink := w.sink.flush }
  return (← get).sink.flushes

end Emit

namespace Writer

/-- A new writer on the sink, which is sent the header first. -/
def start (generator : String) (sink : Sink) : Except SinkFault Unit × Writer :=
  (Emit.send (header generator)).run.run { sink }

/-- Sends the header and the declarations of the selected families to the sink. -/
def generateTo (sink : Sink) (generator : String) (c : Catalogue) (selected : List Family) :
    Writer :=
  ((Emit.send (header generator) *> Emit.declareFamilies c selected).run.run { sink }).2

/-- What a file generated from the catalogue holds: the header and the declarations of the
selected families. -/
def generate (generator : String) (c : Catalogue) (selected : List Family) : Writer :=
  generateTo {} generator c selected

end Writer

end InstanceTables

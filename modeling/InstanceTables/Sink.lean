/-!
# Sinks

A sink takes the bytes of a text.  It may have room for so many bytes only: of a text that
does not fit it keeps what does, and reports that it is full.
-/

namespace InstanceTables

inductive SinkFault where
  | full
deriving DecidableEq, Repr

def SinkFault.message : SinkFault → String
  | full => "sink full"

/-- The bytes taken so far, and how many can be taken in total. -/
structure Sink where
  /-- The room in total; `none` for a sink that is never full. -/
  capacity : Option Nat := none
  bytes : ByteArray := .empty
  /-- How often the sink has been flushed. -/
  flushes : Nat := 0

namespace Sink

variable (s : Sink)

/-- The first bytes of the chunk, as many as there is room for. -/
def fitting (chunk : ByteArray) : ByteArray :=
  match s.capacity with
  | none => chunk
  | some c => chunk.extract 0 (c - s.bytes.size)

/-- Takes as much of the text as there is room for; it is a fault if that is not all. -/
def write (text : String) : Except SinkFault Unit × Sink :=
  let chunk := text.toUTF8
  let kept := s.fitting chunk
  (if kept.size < chunk.size then .error .full else .ok (),
    { s with bytes := s.bytes ++ kept })

/-- A sink that is never full takes every text whole. -/
theorem write_of_unlimited (h : s.capacity = none) (text : String) :
    s.write text = (.ok (), { s with bytes := s.bytes ++ text.toUTF8 }) := by
  simp [write, fitting, h]

def flush : Sink := { s with flushes := s.flushes + 1 }

end Sink

end InstanceTables

import BoundedPrintf.Log.Entry

/-! An emitter numbers the entries of one run. A trace id is the scope, the run and the number,
joined by pairs of colons. -/
namespace BoundedPrintf.Log

structure Emitter where
  scope : String
  run : String
  /-- How many trace ids have been given out. -/
  count : Nat := 0
  /-- The lines written so far. -/
  lines : List String := []

/-- The trace id of a number, which has at least three digits. -/
def traceId (scope run : String) (number : Nat) : String := scope ++ "::" ++ run ++ "::" ++ padded 3 number

namespace Emitter

def nextId (emitter : Emitter) : String × Emitter :=
  let number := emitter.count + 1
  (traceId emitter.scope emitter.run number, { emitter with count := number })

/-- Starts an entry with the next trace id. -/
def entry (emitter : Emitter) (now : Instant) (level : Level) (event : String) : Entry × Emitter :=
  let (id, emitter) := emitter.nextId
  (Entry.make now id level event, emitter)

def write (emitter : Emitter) (entry : Entry) : Emitter := { emitter with lines := emitter.lines ++ [entry.line] }

/-- Writes an entry. One without a trace id gets the next. -/
def send (emitter : Emitter) (entry : Entry) : Emitter :=
  if entry.traceId.isEmpty then
    let (id, emitter) := emitter.nextId
    emitter.write { entry with traceId := id }
  else emitter.write entry

/-- Writes an entry that has nothing but a level and an event. -/
def emit (emitter : Emitter) (now : Instant) (level : Level) (event : String) : Entry × Emitter :=
  let (entry, emitter) := emitter.entry now level event
  (entry, emitter.write entry)

/-- All that has been written, each line with its end. -/
def text (emitter : Emitter) : String := String.join (emitter.lines.map (· ++ "\n"))

end Emitter

end BoundedPrintf.Log

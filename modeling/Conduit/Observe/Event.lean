/-
  Conduit/Observe/Event.lean
  ==========================
  **Events worth counting, and who is told of them.**

  Components report an event to the observer they were built with.  An observer
  decides two things only: the line it writes for an event, if any, and whether it
  counts the event.
-/
import Conduit.Text.Quoted

namespace Conduit

inductive Side
  | writer
  | reader
deriving DecidableEq, Repr

def Side.name : Side → String
  | .writer => "writer"
  | .reader => "reader"

def Side.debug : Side → String
  | .writer => "Writer"
  | .reader => "Reader"

/-- What components report: a borrow that found the pool empty, a release that found it full, a
    completion that came too late, a future whose completers all went away, a wait that was
    withdrawn, and a ring side that had to suspend. -/
inductive Event
  | poolMiss (pool : String)
  | poolOverflow (pool : String)
  | doubleCompletion
  | futureAbandoned
  | waitCancelled
  | stalled (side : Side)
deriving DecidableEq, Repr

/-- An event as a recorder notes it. -/
def Event.name : Event → String
  | .poolMiss pool => "pool_miss:" ++ pool
  | .poolOverflow pool => "pool_overflow:" ++ pool
  | .doubleCompletion => "double_completion"
  | .futureAbandoned => "future_abandoned"
  | .waitCancelled => "wait_cancelled"
  | .stalled side => "ring_stalled:" ++ side.name

/-- An event as a trace line: level, sentence, and the fields that go with it. -/
def Event.trace : Event → String
  | .poolMiss pool =>
    "TRACE pool exhausted, allocating transient instance pool=" ++ Text.quote pool
  | .poolOverflow pool =>
    "TRACE pool full, dropping released instance pool=" ++ Text.quote pool
  | .doubleCompletion =>
    "WARN recyclable future completed more than once; extra completion rejected"
  | .futureAbandoned => "DEBUG recyclable future abandoned by all completers"
  | .waitCancelled => "TRACE signal wait cancelled"
  | .stalled side => "TRACE ring buffer stalled side=" ++ side.name

/-- Who is told of events: nobody, a trace, a counter, or a recorder that notes and counts. -/
inductive Observer
  | quiet
  | tracing
  | counting
  | recorder
deriving DecidableEq, Repr

/-- The line an observer writes for an event. -/
def Observer.line? : Observer → Event → Option String
  | .tracing, e => some e.trace
  | .recorder, e => some e.name
  | _, _ => none

/-- Whether an observer counts what it is told. -/
def Observer.counts : Observer → Bool
  | .counting | .recorder => true
  | _ => false

end Conduit

/-
  Conduit/Observe/Tally.lean
  ==========================
  **Counts of events.**

  One 64-bit counter per kind of event; pools are counted together, ring sides apart.
-/
import Conduit.Observe.Event
import Conduit.Text.Record

namespace Conduit

structure Tally where
  poolMisses : UInt64
  poolOverflows : UInt64
  doubleCompletions : UInt64
  futuresAbandoned : UInt64
  waitsCancelled : UInt64
  writerStalls : UInt64
  readerStalls : UInt64
deriving DecidableEq, Repr

namespace Tally

def zero : Tally := ⟨0, 0, 0, 0, 0, 0, 0⟩

def add (t : Tally) : Event → Tally
  | .poolMiss _ => { t with poolMisses := t.poolMisses + 1 }
  | .poolOverflow _ => { t with poolOverflows := t.poolOverflows + 1 }
  | .doubleCompletion => { t with doubleCompletions := t.doubleCompletions + 1 }
  | .futureAbandoned => { t with futuresAbandoned := t.futuresAbandoned + 1 }
  | .waitCancelled => { t with waitsCancelled := t.waitsCancelled + 1 }
  | .stalled .writer => { t with writerStalls := t.writerStalls + 1 }
  | .stalled .reader => { t with readerStalls := t.readerStalls + 1 }

/-- The counters with their names, in their fixed order. -/
def entries (t : Tally) : List (String × UInt64) :=
  [("pool_misses", t.poolMisses), ("pool_overflows", t.poolOverflows),
   ("double_completions", t.doubleCompletions), ("futures_abandoned", t.futuresAbandoned),
   ("waits_cancelled", t.waitsCancelled), ("writer_stalls", t.writerStalls),
   ("reader_stalls", t.readerStalls)]

def debug (t : Tally) : String :=
  Text.record "ObserverSnapshot" (t.entries.map fun e => (e.1, toString e.2))

end Tally

end Conduit

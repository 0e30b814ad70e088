/-
  Conduit/Fault.lean
  ==================
  **What can go wrong, by cause.**

  Four kinds of trouble are kept apart.  A *refusal* is an error that a call returns
  (a capacity of zero, a cancelled wait, a closed ring, a timeout, a second
  completion).  A *failure* is an outcome that a future carries to its consumer.  A
  *panic* ends a call because its contract was broken.  A *misuse* is a request that
  makes no sense for the handle it names, and has no effect at all.

  Each cause is a constructor; its wording stands in one function beside it.
-/
import Conduit.Text.Quoted
import Conduit.Text.Record

namespace Conduit

open Text

/-! ### Refusals -/

inductive BuildError
  | zeroCapacity
deriving DecidableEq, Repr

def BuildError.message : BuildError → String
  | .zeroCapacity => "capacity cannot be zero"

def BuildError.debug : BuildError → String
  | .zeroCapacity => "ZeroCapacity"

inductive WaitError
  | cancelled
deriving DecidableEq, Repr

def WaitError.message : WaitError → String
  | .cancelled => "wait was cancelled"

def WaitError.debug : WaitError → String
  | .cancelled => "Cancelled"

inductive ReadTimeout
  | timeout
deriving DecidableEq, Repr

def ReadTimeout.message : ReadTimeout → String
  | .timeout => "read operation timed out"

def ReadTimeout.debug : ReadTimeout → String
  | .timeout => "Timeout"

/-- A write that met a closed ring, and how many of its bytes were committed before. -/
structure RingClosed where
  written : Nat
deriving DecidableEq, Repr

def RingClosed.message (e : RingClosed) : String :=
  "ring buffer reader closed after " ++ toString e.written
    ++ " bytes of this write were committed"

def RingClosed.debug (e : RingClosed) : String :=
  record "RingClosed" [("written", toString e.written)]

/-! ### Failures -/

/-- The failed outcome of a future: a cause given by the completer in words, another failure
    taken as the cause, or that every completer went away. -/
inductive Failure
  | failed (cause : String)
  | wrapped (inner : Failure)
  | abandoned
deriving DecidableEq, Repr

def Failure.message : Failure → String
  | .failed cause => "operation failed: " ++ cause
  | .wrapped inner => "operation failed: " ++ inner.message
  | .abandoned => "operation abandoned: all completers dropped"

def Failure.debug : Failure → String
  | .failed cause => "Failed(OpError(" ++ quote cause ++ "))"
  | .wrapped inner => "Failed(" ++ inner.debug ++ ")"
  | .abandoned => "Abandoned"

/-- Only the outermost failure counts: one that wraps an abandonment is not one. -/
def Failure.isAbandoned : Failure → Bool
  | .abandoned => true
  | _ => false

/-- A failure taken `depth` times as the cause of another. -/
def Failure.wrap (f : Failure) : Nat → Failure
  | 0 => f
  | depth + 1 => .wrapped (f.wrap depth)

/-- What a future is completed with. -/
abbrev Verdict (α : Type) := Except Failure α

/-- A completion that came too late, with the outcome it carried. -/
structure DoubleCompletion (α : Type) where
  rejected : Verdict α

def DoubleCompletion.message {α : Type} (_ : DoubleCompletion α) : String :=
  "future already completed"

def DoubleCompletion.debug {α : Type} (e : DoubleCompletion α) : String :=
  match e.rejected with
  | .ok _ => "DoubleCompletion(Ok(..))"
  | .error f => "DoubleCompletion(Err(" ++ f.debug ++ "))"

/-! ### Panics -/

/-- Contracts whose breach ends a call. -/
inductive Panic
  | ringCapacity
  | poolCapacity
  | futurePoolCapacity
  | generatorFailed (call : Nat)
  | borrowRefused
  | resetRefused
  | slotInUse (state : String)
  | tooManyCompleters
  | registeredOnConsumed
  | polledAfterCompletion
  | continuationFailed
  | loopWithinLoop
deriving DecidableEq, Repr

def Panic.message : Panic → String
  | .ringCapacity => "ring buffer capacity must be greater than 0"
  | .poolCapacity => "pool capacity must be greater than 0"
  | .futurePoolCapacity => "future pool capacity must be greater than 0"
  | .generatorFailed call => "generator failed at " ++ toString call
  | .borrowRefused => "on_borrow refused"
  | .resetRefused => "reset refused"
  | .slotInUse state => "future slot leased while still in use: " ++ state
  | .tooManyCompleters => "too many completers for one future"
  | .registeredOnConsumed => "continuation registered on a consumed future"
  | .polledAfterCompletion => "RecyclableFuture polled after completion"
  | .continuationFailed => "continuation failed"
  | .loopWithinLoop =>
    "Cannot start a runtime from within a runtime. This happens because a function "
      ++ "(like `block_on`) attempted to block the current thread while the thread is being used "
      ++ "to drive asynchronous tasks."

/-! ### Misuses -/

/-- Requests that make no sense for the handle they name. -/
inductive Misuse
  | gone
  | busy
  | mode
  | race
  | noSuchOp
  | noSuchId
  | noSuchHandle
  | handleInUse
  | noPool
  | noSuchSlot
  | noSuchCompleter
  | noSuchFuture
  | enclosing
deriving DecidableEq, Repr

def Misuse.message : Misuse → String
  | .gone => "gone"
  | .busy => "busy"
  | .mode => "mode"
  | .race => "race"
  | .noSuchOp => "no such op"
  | .noSuchId => "no such id"
  | .noSuchHandle => "no such handle"
  | .handleInUse => "handle in use"
  | .noPool => "no pool"
  | .noSuchSlot => "no such slot"
  | .noSuchCompleter => "no such completer"
  | .noSuchFuture => "no such future"
  | .enclosing => "in use by an enclosing op"

end Conduit

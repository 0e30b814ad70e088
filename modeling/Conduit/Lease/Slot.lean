/-
  Conduit/Lease/Slot.lean
  =======================
  **A slot that is leased, completed once, consumed and used again.**

  Beside its word a slot has three cells: for the outcome, for the continuation that
  waits for it, and for the waker of the task that does.  The completer that claims the
  lease publishes an outcome; the consumer takes it by polling, leaves a continuation
  for it, or goes away.  Whichever side is second finds what the first one left, and
  then the slot is recycled: its cells are emptied, its generation grows by one, and it
  goes home.

  An operation says what comes next.  A continuation is run by whoever called the
  operation, and the slot is recycled when it has returned; other operations may come
  in between.
-/
import Conduit.Fault
import Conduit.Lease.Word
import Conduit.Outcome

namespace Conduit.Lease

/-- Where a slot goes once it has been recycled: nowhere, to whoever logs it under a number, or
    back to its depot. -/
inductive Home
  | nowhere
  | log (number : Nat)
  | depot
deriving DecidableEq, Repr

/-- A slot for outcomes of type `α` and continuations of type `κ`. -/
structure Slot (α κ : Type) where
  word : Word
  value : Option (Verdict α)
  continuation : Option κ
  waker : Option Waker
  home : Home
  /-- Continuations that a completion finds are to be run elsewhere. -/
  deferred : Bool
  observer : Observer

/-- What comes after an operation on a slot: nothing, the recycled slot has to go home, or a
    continuation is due with an outcome, and the slot is to be recycled when it has returned. -/
inductive Sequel (α κ : Type)
  | nothing
  | home
  | resume (k : κ) (v : Verdict α)

namespace Slot

variable {α κ : Type}

def new (home : Home) (deferred : Bool) (observer : Observer) : Slot α κ :=
  ⟨.idle 0, none, none, none, home, deferred, observer⟩

def generation (s : Slot α κ) : UInt32 := s.word.generation

/-- Starts a lease with one completer; its generation is the slot's. -/
def lease (s : Slot α κ) : Outcome (Except Panic UInt32) (Slot α κ) :=
  if s.word.isIdle then .pure (.ok s.generation) { s with word := s.word.enter 1 }
  else .pure (.error (.slotInUse s.word.debug)) s

/-- Empties the cells and starts the next generation. -/
def recycle (s : Slot α κ) : Slot α κ :=
  { s with
    word := .idle (s.generation + 1)
    value := none
    continuation := none
    waker := none }

/-- Takes the continuation and the outcome out of their cells. -/
def due (s : Slot α κ) : Outcome (Sequel α κ) (Slot α κ) :=
  let t := { s with value := none, continuation := none }
  match s.continuation, s.value with
  | some k, some v => .pure (.resume k v) t
  | _, _ => .pure .nothing t

/-- What is seen of a recycled slot that goes home. -/
def homecoming (s : Slot α κ) : List Effect :=
  match s.home with
  | .log number => [.recycled number s.generation]
  | _ => []

/-! ### Completers -/

/-- Claims the lease of a generation, unless it is over or claimed already. -/
def claim? (s : Slot α κ) (generation : UInt32) : Option (Slot α κ) :=
  if s.generation ≠ generation ∨ s.word.isClaimed then none
  else some { s with word := s.word.raise .completing }

/-- Lets the outcome be seen, and hands it to whoever waits for it. -/
def publish (s : Slot α κ) (v : Verdict α) : Outcome (Sequel α κ) (Slot α κ) :=
  let t := { s with value := some v, word := s.word.raise .completed }
  if s.word.has .continuation then t.due
  else if s.word.has .detached then .pure .home t.recycle
  else ⟨.nothing, { t with waker := none }, s.waker.toList.map .woken⟩

/-- Completes the lease of a generation; a second completion is refused and comes back. -/
def complete (s : Slot α κ) (generation : UInt32) (v : Verdict α) :
    Outcome (Except (DoubleCompletion α) (Sequel α κ)) (Slot α κ) :=
  match s.claim? generation with
  | some s => (s.publish v).map .ok
  | none => ⟨.error ⟨v⟩, s, [.reported s.observer .doubleCompletion]⟩

/-- Counts `n` more completers of a generation, as far as there is room for them.  Completers of
    an earlier generation are not counted. -/
def enlist (s : Slot α κ) (generation : UInt32) (n : Nat) :
    Outcome (Except Panic Unit) (Slot α κ) :=
  if s.generation ≠ generation then .pure (.ok ()) s
  else
    let room := Word.maxCompleters - s.word.completers
    .pure (if n ≤ room then .ok () else .error .tooManyCompleters)
      { s with word := s.word.enter (min n room) }

/-- One completer of a generation goes away.  The last one to do so abandons a lease that nobody
    has claimed. -/
def dismiss (s : Slot α κ) (generation : UInt32) : Outcome (Sequel α κ) (Slot α κ) :=
  if s.generation ≠ generation then .pure .nothing s
  else
    let word := s.word.leave
    if word.completers = 0 ∧ ¬ s.word.isClaimed then
      (Outcome.mk () { s with word := word.raise .completing }
        [.reported s.observer .futureAbandoned]).andThen fun _ s => s.publish (.error .abandoned)
    else .pure .nothing { s with word := word }

/-- Whether the lease of a generation is claimed or over. -/
def isSettled (s : Slot α κ) (generation : UInt32) : Bool :=
  s.generation ≠ generation || s.word.isClaimed

/-! ### The consumer -/

def isCompleted (s : Slot α κ) : Bool := s.word.has .completed

/-- Takes the outcome if it is there, and recycles the slot. -/
def take (s : Slot α κ) : Outcome (Option (Verdict α)) (Slot α κ) :=
  match if s.isCompleted then s.value else none with
  | some v => .pure (some v) s.recycle
  | none => .pure none s

/-- Takes the outcome if it is there, and otherwise leaves a waker. -/
def poll (s : Slot α κ) (waker : Waker) : Outcome (Option (Verdict α)) (Slot α κ) :=
  s.take.andThen fun
    | some v, s => .pure (some v) s
    | none, s => .pure none { s with waker := some waker }

/-- Leaves a continuation for the outcome, which is due at once if the outcome is there. -/
def register (s : Slot α κ) (k : κ) : Outcome (Sequel α κ) (Slot α κ) :=
  let t := { s with continuation := some k, word := s.word.raise .continuation }
  if s.isCompleted then t.due else .pure .nothing t

/-- The consumer goes away. -/
def detach (s : Slot α κ) : Outcome (Sequel α κ) (Slot α κ) :=
  let t := { s with word := s.word.raise .detached }
  if s.isCompleted then .pure .home t.recycle else .pure .nothing t

def debug (s : Slot α κ) : String :=
  Text.openRecord "FutureSlot"
    [("state", s.word.debug), ("has_recycler", Text.truth (s.home != .nowhere)),
     ("deferred", Text.truth s.deferred)]

end Slot

end Conduit.Lease

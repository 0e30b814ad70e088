/-
  Conduit/Signal/Spin.lean
  ========================
  **An auto-reset signal that counts permits and waiters in one word.**

  The word holds two 32-bit counters: permits in its lower half, queued waiters in
  its upper half.  Setting the signal adds a permit as long as permits do not
  outnumber the waiters, and notifies one queued waiter.  A permit belongs to nobody:
  whoever comes first takes it, and a notified waiter that finds none is pending
  again.  No permit is lost by that: when a notified waiter gives up while a permit
  is there, the next pending waiter is notified in its place.
-/
import Conduit.Signal.Line
import Conduit.Text.Record

namespace Conduit.Signal

/-- Two 32-bit counters in one 64-bit word. -/
structure Counters where
  word : UInt64
deriving DecidableEq, Repr

namespace Counters

def permits (c : Counters) : UInt32 := c.word.toUInt32

def waiters (c : Counters) : UInt32 := (c.word / 4294967296).toUInt32

def pack (permits waiters : UInt32) : Counters :=
  ⟨waiters.toUInt64 * 4294967296 + permits.toUInt64⟩

def takePermit (c : Counters) : Counters := ⟨c.word - 1⟩

def enter (c : Counters) : Counters := ⟨c.word + 4294967296⟩

/-- One permit and one waiter less, in one step. -/
def claim (c : Counters) : Counters := ⟨c.word - 1 - 4294967296⟩

/-- One waiter less, and no more than one permit beyond the waiters that stay. -/
def leave (c : Counters) : Counters :=
  let waiters := c.waiters - 1
  pack (min c.permits (waiters + 1)) waiters

end Counters

/-- The signal: its counters, and every queued waiter in order of arrival. -/
structure Spin where
  counters : Counters
  queue : Line
  nextTicket : Nat
  observer : Observer
deriving DecidableEq, Repr

namespace Spin

/-- An unset signal that reports withdrawn waits to an observer. -/
def new (observer : Observer) : Spin := ⟨⟨0⟩, [], 0, observer⟩

/-- The stages of one wait: not begun, in the queue under a ticket, or released. -/
inductive Wait
  | init
  | queued (ticket : Nat)
  | done
deriving DecidableEq, Repr

def Wait.isQueued : Wait → Bool
  | .queued _ => true
  | _ => false

/-- Notifies the first pending waiter, if there is one. -/
def notifyNext (s : Spin) : Outcome Unit Spin :=
  match s.queue.notifyFirst with
  | some (n, queue) => ⟨(), { s with queue := queue }, n.rouse⟩
  | none => .pure () s

/-- Adds a permit unless permits outnumber the waiters already, and notifies a waiter. -/
def set (s : Spin) : Outcome Unit Spin :=
  let c := s.counters
  if c.waiters = 0 then
    if 0 < c.permits then .pure () s
    else .pure () { s with counters := .pack 1 0 }
  else if c.waiters < c.permits then .pure () s
  else notifyNext { s with counters := .pack (c.permits + 1) c.waiters }

/-- Takes a permit if there is one, whoever is queued. -/
def tryWait (s : Spin) : Outcome Bool Spin :=
  if 0 < s.counters.permits then .pure true { s with counters := s.counters.takePermit }
  else .pure false s

/-- Joins the queue; the answer is the ticket. -/
def enqueue (w : Waker) (s : Spin) : Outcome Nat Spin :=
  .pure s.nextTicket
    { s with
      counters := s.counters.enter
      queue := s.queue ++ [⟨s.nextTicket, .pending, .task w⟩]
      nextTicket := s.nextTicket + 1 }

/-- A notified waiter takes a permit and leaves the queue.  If the permit is gone the waiter is
    pending again. -/
def acquireQueued (ticket : Nat) (s : Spin) : Outcome Bool Spin :=
  if 0 < s.counters.permits then
    .pure true { s with counters := s.counters.claim, queue := s.queue.remove ticket }
  else
    .pure false { s with queue := s.queue.update ticket Node.rearm }

/-- One pass of a queued wait's poll: a waiter that is pending stores its waker and stays, one
    that was notified tries for a permit and looks again if there is none. -/
def pollPass (w : Waker) (ticket : Nat) (s : Spin) : Outcome (Option Bool) Spin :=
  if s.queue.isNotified ticket then
    (s.acquireQueued ticket).map fun got => if got then some true else none
  else
    .pure (some false) { s with queue := s.queue.update ticket (Node.register w) }

/-- Polls a wait: whether it is released, and its next stage.  Two passes are enough for a
    queued wait, since the first leaves it pending. -/
def poll (w : Waker) (wait : Wait) (s : Spin) : Outcome (Bool × Wait) Spin :=
  match wait with
  | .init =>
    s.tryWait.andThen fun got s =>
      if got then .pure (true, .done) s
      else (s.enqueue w).map fun ticket => (false, .queued ticket)
  | .queued ticket =>
    (Outcome.loop (pollPass w ticket) 2 s).map fun
      | some true => (true, .done)
      | _ => (false, .queued ticket)
  | .done => .pure (true, .done) s

/-- Takes a waiter that gives up out of the queue.  A notified one lets the next be notified if a
    permit is there; a pending one reports the cancelled wait. -/
def withdraw (ticket : Nat) (s : Spin) : Outcome Unit Spin :=
  match s.queue.find ticket with
  | none => .pure () s
  | some n =>
    let s := { s with queue := s.queue.remove ticket, counters := s.counters.leave }
    match n.cancel? with
    | some _ => ⟨(), s, [.reported s.observer .waitCancelled]⟩
    | none => if 0 < s.counters.permits then s.notifyNext else .pure () s

def drop (wait : Wait) (s : Spin) : Outcome Unit Spin :=
  match wait with
  | .queued ticket => s.withdraw ticket
  | _ => .pure () s

/-! ### Views -/

/-- Releases that are not consumed yet. -/
def pendingReleases (s : Spin) : Nat := s.counters.permits.toNat

/-- Waits that have registered and are neither resolved nor withdrawn. -/
def registeredWaits (s : Spin) : Nat := s.queue.length

def debug (s : Spin) : String :=
  Text.record "SpinSignal"
    [("permits", toString s.counters.permits), ("waiters", toString s.counters.waiters)]

def Wait.debug (wait : Wait) : String :=
  Text.record "SpinWait"
    [("queued", Text.truth wait.isQueued), ("done", Text.truth (wait == .done))]

end Spin

end Conduit.Signal

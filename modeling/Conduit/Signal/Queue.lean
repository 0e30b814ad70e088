/-
  Conduit/Signal/Queue.lean
  =========================
  **An auto-reset signal that releases its waiters in order of arrival.**

  Threads and tasks share one line.  Setting the signal hands it to the waiter that
  has been pending the longest, who then owns it until it takes note of it; with
  nobody in the line the signal is banked, once.  A waiter that gives up while it
  owns the signal passes it on by setting it again.
-/
import Conduit.Signal.Line
import Conduit.Text.Quoted
import Conduit.Text.Record

namespace Conduit.Signal

/-- The signal: whether it is banked, who is in the line, and who was handed the signal and has
    not taken note of it yet. -/
structure Queue where
  banked : Bool
  line : Line
  handed : Line
  nextTicket : Nat
  observer : Observer
deriving DecidableEq, Repr

namespace Queue

/-- An unset signal that reports withdrawn waits to an observer. -/
def new (observer : Observer) : Queue := ⟨false, [], [], 0, observer⟩

/-- The stages of one wait: not begun, in the line under a ticket, or released. -/
inductive Wait
  | init
  | queued (ticket : Nat)
  | done
deriving DecidableEq, Repr

/-- Hands the signal to the first pending waiter, or banks it. -/
def set (q : Queue) : Outcome Unit Queue :=
  match q.line.dequeue with
  | some (n, rest) => ⟨(), { q with line := rest, handed := q.handed ++ [n] }, n.rouse⟩
  | none => .pure () { q with line := [], banked := true }

def tryWait (q : Queue) : Outcome Bool Queue := .pure q.banked { q with banked := false }

/-- Takes the banked signal, or joins the line; the answer is the ticket. -/
def enqueue (p : Party) (q : Queue) : Outcome (Option Nat) Queue :=
  if q.banked then .pure none { q with banked := false }
  else
    .pure (some q.nextTicket)
      { q with line := q.line ++ [⟨q.nextTicket, .pending, p⟩], nextTicket := q.nextTicket + 1 }

/-- Whether the holder of a ticket has been handed the signal. -/
def isHanded (q : Queue) (ticket : Nat) : Bool := (q.handed.find ticket).isSome

/-- Leaves the line and reports it; a waiter that owns the signal already cannot. -/
def withdraw (ticket : Nat) (q : Queue) : Outcome Bool Queue :=
  match (q.line.find ticket).bind Node.cancel? with
  | some _ =>
    ⟨true, { q with line := q.line.remove ticket }, [.reported q.observer .waitCancelled]⟩
  | none => .pure false q

/-- Polls a wait: whether it is released, and its next stage. -/
def poll (w : Waker) (wait : Wait) (q : Queue) : Outcome (Bool × Wait) Queue :=
  match wait with
  | .init =>
    (q.enqueue (.task w)).map fun
      | none => (true, .done)
      | some ticket => (false, .queued ticket)
  | .queued ticket =>
    if q.isHanded ticket then
      .pure (true, .done) { q with handed := q.handed.remove ticket }
    else
      .pure (false, .queued ticket) { q with line := q.line.update ticket (Node.register w) }
  | .done => .pure (true, .done) q

/-- Gives up a wait; a signal that it owns is passed on. -/
def drop (wait : Wait) (q : Queue) : Outcome Unit Queue :=
  match wait with
  | .queued ticket =>
    (q.withdraw ticket).andThen fun left q =>
      if left then .pure () q else set { q with handed := q.handed.remove ticket }
  | _ => .pure () q

/-! ### Threads -/

def block (t : Thread) (q : Queue) : Outcome Bool Queue :=
  (q.enqueue (.thread t)).map Option.isNone

/-- A wait of a thread whose time is over at once. -/
def expire (q : Queue) : Outcome Bool Queue :=
  (q.enqueue (.thread "")).andThen fun ticket q =>
    match ticket with
    | none => .pure true q
    | some ticket => (q.withdraw ticket).map Bool.not

/-- The time of a waiting thread is over: it leaves the line, unless it was handed the signal.
    The answer is whether it was. -/
def timeUp (t : Thread) (q : Queue) : Outcome Bool Queue :=
  match List.find? (fun n => n.thread? == some t) q.line with
  | some n => (q.withdraw n.ticket).map Bool.not
  | none => .pure true { q with handed := q.handed.eraseP fun n => n.thread? == some t }

/-- Lets every thread that was handed the signal return; the answer is who did. -/
def settle (q : Queue) : Outcome (List Thread) Queue :=
  .pure (q.handed.filterMap Node.thread?)
    { q with handed := q.handed.filter fun n => n.thread?.isNone }

/-! ### Views -/

/-- Releases that are not consumed yet: the banked one, and those handed to a waiter. -/
def pendingReleases (q : Queue) : Nat := q.banked.toNat + q.handed.length

/-- Waits that have registered and are neither resolved nor withdrawn. -/
def registeredWaits (q : Queue) : Nat := q.line.length + q.handed.length

def debug (q : Queue) : String :=
  Text.record "QueueSignal"
    [("banked", Text.truth q.banked), ("waiters", toString q.line.length)]

def Wait.debug (wait : Wait) : String :=
  let stage := match wait with
    | .init => "init"
    | .queued _ => "queued"
    | .done => "done"
  Text.record "QueueWait" [("stage", Text.quote stage)]

end Queue

end Conduit.Signal

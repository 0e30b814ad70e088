/-
  Conduit/Signal/Line.lean
  ========================
  **Waiters in a line.**

  A waiter is a task to be woken or a thread that is blocked.  It enters the line
  with a ticket of its own and is *pending* until it is either *notified*, which
  happens when a signal is set, or *cancelled*, which it does itself.  Only a pending
  waiter can be notified or cancelled; a notified one can be made pending again.
-/
import Conduit.Outcome

namespace Conduit.Signal

/-- Who is waiting: a task with the waker of its latest poll, or a thread. -/
inductive Party
  | task (waker : Waker)
  | thread (name : Thread)
deriving DecidableEq, Repr

/-- How far a waiter has come. -/
inductive Mark
  | pending
  | notified
  | cancelled
deriving DecidableEq, Repr

structure Node where
  ticket : Nat
  mark : Mark
  party : Party
deriving DecidableEq, Repr

namespace Node

def notify? (n : Node) : Option Node :=
  if n.mark = .pending then some { n with mark := .notified } else none

def cancel? (n : Node) : Option Node :=
  if n.mark = .pending then some { n with mark := .cancelled } else none

def rearm (n : Node) : Node :=
  if n.mark = .notified then { n with mark := .pending } else n

/-- Stores the waker of a task's latest poll. -/
def register (w : Waker) (n : Node) : Node := { n with party := .task w }

/-- Rouses a waiter: a task's waker is called, a thread runs on by itself. -/
def rouse (n : Node) : List Effect :=
  match n.party with
  | .task w => [.woken w]
  | .thread _ => []

/-- The name of a waiting thread. -/
def thread? (n : Node) : Option Thread :=
  match n.party with
  | .task _ => none
  | .thread t => some t

end Node

/-- Waiters, the one that came first in front. -/
abbrev Line := List Node

namespace Line

def find (l : Line) (ticket : Nat) : Option Node := List.find? (fun n => n.ticket == ticket) l

def remove (l : Line) (ticket : Nat) : Line := List.eraseP (fun n => n.ticket == ticket) l

def update (l : Line) (ticket : Nat) (f : Node → Node) : Line :=
  List.map (fun n => if n.ticket == ticket then f n else n) l

def isNotified (l : Line) (ticket : Nat) : Bool :=
  match l.find ticket with
  | some n => n.mark == .notified
  | none => false

/-- Notifies the first pending waiter and leaves it in the line. -/
def notifyFirst : Line → Option (Node × Line)
  | [] => none
  | n :: l =>
    match n.notify? with
    | some m => some (m, m :: l)
    | none => (notifyFirst l).map fun r => (r.1, n :: r.2)

/-- Takes waiters from the front until one is pending, and notifies that one. -/
def dequeue : Line → Option (Node × Line)
  | [] => none
  | n :: l =>
    match n.notify? with
    | some m => some (m, l)
    | none => dequeue l

end Line

end Conduit.Signal

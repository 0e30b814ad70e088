/-
  Conduit/Lease/EventLoop.lean
  ============================
  **An event loop with two queues of jobs.**

  Jobs that are spawned while the loop runs go to its own queue, all others to a shared
  one.  The loop prefers its own queue, but so that nobody outside has to wait for
  ever, every 31st time that it looks for a job it looks at the shared queue first.
  Looks are counted over all runs of the loop, those that find nothing included.
-/
namespace Conduit.Lease

/-- How often the loop has looked for a job, whether it runs now, and the jobs that wait: those
    spawned while it ran, and those spawned from outside. -/
structure EventLoop (α : Type) where
  looks : Nat
  isRunning : Bool
  own : List α
  shared : List α
deriving DecidableEq, Repr

namespace EventLoop

variable {α : Type}

def new : EventLoop α := ⟨0, false, [], []⟩

/-- How many looks there are from one that begins with the shared queue to the next. -/
def sharedInterval : Nat := 31

/-- A job waits in the queue of the place it comes from. -/
def spawn (l : EventLoop α) (job : α) : EventLoop α :=
  if l.isRunning then { l with own := l.own ++ [job] }
  else { l with shared := l.shared ++ [job] }

def takeOwn (l : EventLoop α) : Option (α × EventLoop α) :=
  match l.own with
  | job :: rest => some (job, { l with own := rest })
  | [] => none

def takeShared (l : EventLoop α) : Option (α × EventLoop α) :=
  match l.shared with
  | job :: rest => some (job, { l with shared := rest })
  | [] => none

def look (l : EventLoop α) : Option α × EventLoop α :=
  let l := { l with looks := l.looks + 1 }
  let found :=
    if l.looks % sharedInterval = 0 then l.takeShared <|> l.takeOwn
    else l.takeOwn <|> l.takeShared
  match found with
  | some (job, rest) => (some job, rest)
  | none => (none, l)

end EventLoop

end Conduit.Lease

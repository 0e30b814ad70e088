/-
  Conduit/Lease/Request.lean
  ==========================
  **What can be asked of leases, and how it is answered.**

  A continuation is a program: the requests that it makes when it runs, and whether it
  panics in the end.  A request is answered by a step, which tells the reply, the
  effects, and every continuation that finished meanwhile with the steps it took.
-/
import Conduit.Fault
import Conduit.Outcome

namespace Conduit.Lease

inductive Request
  | pair (c f : String)
  | rent (c f : String)
  | lease (slot : Nat) (c f : String)
  | complete (c : String) (v : Verdict String)
  | clone (c copy : String)
  | leakClones (c : String) (n : Nat)
  | dropCompleter (c : String)
  | dropFuture (f : String)
  | tryResult (f : String)
  | poll (f : String) (waker : Waker)
  | register (f label : String) (requests : List Request) (fails : Bool)
  | completerDone (c : String)
  | futureDone (f : String)
  | completerDebug (c : String)
  | futureDebug (f : String)
  | slot (n : Nat)
  | info
  | dropPool
  | runJob (i : Nat)
  | dropJob (i : Nat)
  | countJobs
  | unknown

mutual

/-- The number of requests in a request, those of its continuation included. -/
def Request.size : Request → Nat
  | .register _ _ requests _ => Request.sizes requests + 1
  | _ => 1

def Request.sizes : List Request → Nat
  | [] => 0
  | r :: rs => r.size + Request.sizes rs

end

/-- What waits for an outcome: a label, the requests to make, and whether to panic after them. -/
structure Continuation where
  label : String
  requests : List Request
  fails : Bool

inductive Place
  | caller
  | ownThread
deriving DecidableEq, Repr

def Place.name : Place → String
  | .caller => "caller"
  | .ownThread => "fibre-wire-continuation"

inductive Reply
  | nothing
  | accepted
  | rejected (e : DoubleCompletion String)
  | pending
  | verdict (v : Verdict String)
  | truth (b : Bool)
  | count (n : Nat)
  | text (s : String)
  | slot (generation : UInt32) (debug : String)
  | info (capacity available : Nat) (debug : String)
  | ran
  | dropped
  | noJob
  | panic (p : Panic)
  | misuse (m : Misuse)

mutual

/-- The answer to one request: the reply, the effects, the continuations that finished meanwhile,
    and the number of parked slots afterwards, while there is a pool. -/
inductive Step
  | mk (reply : Reply) (effects : List Effect) (resumed : List Resumption)
      (available : Option Nat)

/-- A continuation that has run: its label, the outcome it was given, the number of parked slots
    when it began, where it ran, and the steps it took. -/
inductive Resumption
  | mk (label : String) (verdict : Verdict String) (available : Option Nat) (place : Place)
      (steps : List Step)

end

mutual

/-- The effects of a step, those of its continuations included. -/
def Step.allEffects : Step → List Effect
  | .mk _ effects resumed _ => effects ++ Resumption.allEffectsIn resumed

def Step.allEffectsIn : List Step → List Effect
  | [] => []
  | s :: ss => s.allEffects ++ Step.allEffectsIn ss

def Resumption.allEffects : Resumption → List Effect
  | .mk _ _ _ _ steps => Step.allEffectsIn steps

def Resumption.allEffectsIn : List Resumption → List Effect
  | [] => []
  | r :: rs => r.allEffects ++ Resumption.allEffectsIn rs

end

end Conduit.Lease

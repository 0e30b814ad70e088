/-
  Conduit/Observe/Session.lean
  ============================
  **One observer, told of events one by one.**

  The session reports each event to the observer and keeps the counts, so that a
  snapshot can be taken at any point.
-/
import Conduit.Outcome
import Conduit.Fault

namespace Conduit.Observe

inductive Request
  | report (event : Event)
  | snapshot
  | unknown

inductive Reply
  | nothing
  | counts (tally : Tally)
  | misuse (m : Misuse)

/-- One request: the answer, the counts after it, and what was done meanwhile. -/
def step (o : Observer) (t : Tally) : Request → Outcome Reply Tally
  | .report e => ⟨.nothing, Effect.tally t [.reported o e], [.reported o e]⟩
  | .snapshot => .pure (.counts t) t
  | .unknown => .pure (.misuse .noSuchOp) t

def run (o : Observer) : Tally → List Request → List (Outcome Reply Tally)
  | _, [] => []
  | t, r :: rs => let s := step o t r; s :: run o s.state rs

end Conduit.Observe

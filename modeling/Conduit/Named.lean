/-
  Conduit/Named.lean
  ==================
  **Things held under a name.**

  A session hands out names for the things it holds.  A name holds one thing at a
  time; `inOrder` lists what is held by name, in the order of the names' characters.
-/

namespace Conduit

abbrev Named (α : Type) := List (String × α)

namespace Named

variable {α : Type}

def get? (m : Named α) (k : String) : Option α := m.lookup k

def holds (m : Named α) (k : String) : Bool := (m.get? k).isSome

def erase (m : Named α) (k : String) : Named α := m.filter fun e => e.1 != k

/-- Lets a name hold something, in place of what it held before. -/
def put (m : Named α) (k : String) (a : α) : Named α := (k, a) :: m.erase k

def inOrder (m : Named α) : Named α := m.mergeSort fun a b => decide (a.1 ≤ b.1)

end Named

end Conduit

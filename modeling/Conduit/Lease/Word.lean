/-
  Conduit/Lease/Word.lean
  =======================
  **The state of a lease in a single word.**

  Four flags, the number of live completers and the generation of the slot share one
  64-bit word, so that one look tells whether a completer still belongs to the lease
  and whether the lease is still open.  The lowest byte holds the flags, the next 24
  bits the completers, the upper half the generation.
-/
import Conduit.Text.Record

namespace Conduit.Lease

/-- What can have happened to a lease: a completer has claimed it, its outcome is there, a
    continuation is waiting for the outcome, its consumer has gone away. -/
inductive Flag
  | completing
  | completed
  | continuation
  | detached
deriving DecidableEq, Repr

/-- The bit that stands for a flag. -/
def Flag.weight : Flag → UInt64
  | .completing => 1
  | .completed => 2
  | .continuation => 4
  | .detached => 8

/-- Flags, live completers and generation in one 64-bit word. -/
structure Word where
  bits : UInt64
deriving DecidableEq, Repr

namespace Word

/-- The most completers that a word can count. -/
def maxCompleters : Nat := 16777215

/-- The word of a slot that is not leased. -/
def idle (generation : UInt32) : Word := ⟨generation.toUInt64 * 4294967296⟩

/-- The upper half. -/
def generation (w : Word) : UInt32 := (w.bits / 4294967296).toUInt32

/-- The 24 bits above the lowest byte. -/
def completers (w : Word) : Nat := (w.bits / 256 % 16777216).toNat

/-- Whether a flag is raised. -/
def has (w : Word) (f : Flag) : Bool := w.bits / f.weight % 2 == 1

/-- No flag is raised and no completer is counted. -/
def isIdle (w : Word) : Bool := w.bits % 4294967296 == 0

/-- A completer has claimed the lease, whether or not the outcome is there yet. -/
def isClaimed (w : Word) : Bool := w.has .completing || w.has .completed

/-- Raises a flag, if it is not up yet. -/
def raise (w : Word) (f : Flag) : Word := if w.has f then w else ⟨w.bits + f.weight⟩

/-- `n` completers more. -/
def enter (w : Word) (n : Nat) : Word := ⟨w.bits + n.toUInt64 * 256⟩

def leave (w : Word) : Word := ⟨w.bits - 256⟩

def debug (w : Word) : String :=
  Text.record "State"
    [("generation", toString w.generation), ("completers", toString w.completers),
     ("completing", Text.truth (w.has .completing)), ("completed", Text.truth (w.has .completed)),
     ("continuation", Text.truth (w.has .continuation)),
     ("detached", Text.truth (w.has .detached))]

end Word

end Conduit.Lease

/-
  Conduit/Frame/Buffer.lean
  =========================
  **A byte buffer that is used again and again.**

  A buffer knows its size and the bytes at its start that were ever written; all bytes
  behind these are zero.  Resizing keeps the bytes that still fit.  A buffer that goes
  back to its pool is emptied there.
-/
import Conduit.Pool.Poolable

namespace Conduit.Frame

/-- A buffer of `size` bytes: some at its start, and zeros behind them. -/
structure Buffer where
  start : List UInt8
  size : Nat
deriving DecidableEq, Repr

namespace Buffer

def empty : Buffer := ⟨[], 0⟩

def toList (b : Buffer) : List UInt8 :=
  b.start.take b.size ++ List.replicate (b.size - b.start.length) 0

/-- Cuts a buffer to a size, or fills it up with zeros. -/
def resize (b : Buffer) (size : Nat) : Buffer := ⟨b.start.take (min b.size size), size⟩

/-- Writes bytes over a buffer from a place on. -/
def overwrite (b : Buffer) (place : Nat) (bytes : List UInt8) : Buffer :=
  { b with
    start := b.start.take place ++ List.replicate (place - b.start.length) 0 ++ bytes
      ++ b.start.drop (place + bytes.length) }

end Buffer

/-- A buffer is emptied on its return. -/
instance : Pool.Poolable Buffer where
  onBorrow := .ok
  reset _ := .ok .empty
  mark? _ := none

end Conduit.Frame

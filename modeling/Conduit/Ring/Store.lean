/-
  Conduit/Ring/Store.lean
  =======================
  **Bytes in a circle.**

  A store is a fixed array and two cursors.  The cursors count all bytes ever written
  and read, modulo 2^64; a cursor modulo the capacity is a place in the array.  The
  bytes between the cursors are unread, in the order they were written.  A transfer
  moves as many bytes as fit or are there, in one piece up to the end of the array and
  another from its start.
-/

namespace Conduit.Ring

/-- Writes bytes over an array from a place on; what would fall behind its end is dropped. -/
def overwrite (a : Array UInt8) : Nat → List UInt8 → Array UInt8
  | _, [] => a
  | i, b :: bs => overwrite (a.setIfInBounds i b) (i + 1) bs

/-- The `n` bytes of an array from a place on. -/
def slice (a : Array UInt8) (i n : Nat) : List UInt8 := (a.extract i (i + n)).toList

/-- An array of bytes with a cursor for each end. -/
structure Store where
  storage : Array UInt8
  writePos : UInt64
  readPos : UInt64
deriving DecidableEq, Repr

namespace Store

/-- A store without unread bytes whose cursors stand at `p`. -/
def startingAt (capacity : Nat) (p : UInt64) : Store := ⟨Array.replicate capacity 0, p, p⟩

def new (capacity : Nat) : Store := startingAt capacity 0

def capacity (s : Store) : UInt64 := s.storage.size.toUInt64

def len (s : Store) : UInt64 := s.writePos - s.readPos

def free (s : Store) : UInt64 := s.capacity - s.len

/-- The place in the array where a cursor stands. -/
def place (s : Store) (cursor : UInt64) : Nat := (cursor % s.capacity).toNat

/-- Of `n` bytes from a place on, how many come before the end of the array. -/
def firstPart (s : Store) (place n : Nat) : Nat := min n (s.storage.size - place)

/-- Commits as many bytes as fit; the answer is how many. -/
def tryWrite (s : Store) (src : List UInt8) : Nat × Store :=
  let n := min src.length s.free.toNat
  let start := s.place s.writePos
  let first := s.firstPart start n
  let storage := overwrite s.storage start (src.take first)
  (n, { s with
    storage := overwrite storage 0 ((src.drop first).take (n - first))
    writePos := s.writePos + n.toUInt64 })

/-- Takes up to `limit` unread bytes out. -/
def tryRead (s : Store) (limit : Nat) : List UInt8 × Store :=
  let n := min limit s.len.toNat
  let start := s.place s.readPos
  let first := s.firstPart start n
  (slice s.storage start first ++ slice s.storage 0 (n - first),
    { s with readPos := s.readPos + n.toUInt64 })

/-- Reads into a buffer: how many bytes came, and the buffer with them in front. -/
def readInto (s : Store) (buffer : List UInt8) : Nat × List UInt8 × Store :=
  let (bytes, s) := s.tryRead buffer.length
  (bytes.length, bytes ++ buffer.drop bytes.length, s)

/-- The unread bytes, the oldest first. -/
def unread (s : Store) : List UInt8 := (s.tryRead s.len.toNat).1

end Store

end Conduit.Ring

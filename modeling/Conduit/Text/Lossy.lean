/-
  Conduit/Text/Lossy.lean
  =======================
  **Reading bytes as text when some of them are not text.**

  Bytes that form the encoding of a character become that character.  Where no
  encoding starts, one replacement character stands for the longest run of bytes
  that begins some encoding but does not complete it, or for a single byte that
  begins none; reading then goes on with the next byte.  Only shortest encodings of
  code points outside the surrogate range count.

  The reader looks at one byte at a time and keeps what the encoding it is in the
  middle of still needs (`Partial`).
-/

namespace Conduit.Text

/-- The character that stands for bytes that are not text. -/
def replacement : Char := Char.ofNat 0xFFFD

/-- An encoding that has begun: how many bytes are still to come, between which bounds the next
    of them must lie, and the bits of the code point so far. -/
structure Partial where
  missing : Nat
  low : UInt8
  high : UInt8
  bits : Nat
deriving DecidableEq, Repr

/-- What a byte begins: a character of its own (nothing missing), a longer encoding, or none. -/
def Partial.lead (b : UInt8) : Option Partial :=
  if b < 0x80 then some ⟨0, 0x80, 0xBF, b.toNat⟩
  else if b < 0xC2 then none
  else if b < 0xE0 then some ⟨1, 0x80, 0xBF, b.toNat - 0xC0⟩
  else if b == 0xE0 then some ⟨2, 0xA0, 0xBF, 0⟩
  else if b == 0xED then some ⟨2, 0x80, 0x9F, 0xD⟩
  else if b < 0xF0 then some ⟨2, 0x80, 0xBF, b.toNat - 0xE0⟩
  else if b == 0xF0 then some ⟨3, 0x90, 0xBF, 0⟩
  else if b < 0xF4 then some ⟨3, 0x80, 0xBF, b.toNat - 0xF0⟩
  else if b == 0xF4 then some ⟨3, 0x80, 0x8F, 4⟩
  else none

/-- An encoding with its next byte taken in. -/
def Partial.extend (p : Partial) (b : UInt8) : Partial :=
  ⟨p.missing - 1, 0x80, 0xBF, p.bits * 64 + (b.toNat - 0x80)⟩

/-- What an encoding amounts to: its character once nothing is missing, else itself. -/
def Partial.settle (p : Partial) : List Char × Option Partial :=
  if p.missing = 0 then ([Char.ofNat p.bits], none) else ([], some p)

/-- Reads a byte at which no encoding is under way. -/
def lossyLead (b : UInt8) : List Char × Option Partial :=
  match Partial.lead b with
  | some p => p.settle
  | none => ([replacement], none)

/-- Reads a byte: it continues the encoding under way, or ends it unfinished and is read anew. -/
def lossyByte : Option Partial → UInt8 → List Char × Option Partial
  | none, b => lossyLead b
  | some p, b =>
    if p.low ≤ b ∧ b ≤ p.high then (p.extend b).settle
    else (replacement :: (lossyLead b).1, (lossyLead b).2)

/-- The characters of the bytes that follow an encoding under way. -/
def lossyFrom : Option Partial → List UInt8 → List Char
  | none, [] => []
  | some _, [] => [replacement]
  | p, b :: bs => (lossyByte p b).1 ++ lossyFrom (lossyByte p b).2 bs

/-- The text of a byte string, with replacements where it is not text. -/
def lossy (bs : List UInt8) : String :=
  String.ofList (lossyFrom none bs)

end Conduit.Text

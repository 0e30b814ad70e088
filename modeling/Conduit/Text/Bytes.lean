/-
  Conduit/Text/Bytes.lean
  =======================
  **Byte strings: hexadecimal form, digest, and big-endian words.**

  Two digits stand for a byte, most significant first.  The digest is the 32-bit
  Fowler–Noll–Vo hash, variant 1a: each byte is mixed in with an exclusive or before
  the product with the prime.  Four bytes make a word, most significant first.
-/

namespace Conduit.Text

/-- The lower-case digit of a number below sixteen. -/
def hexDigit (n : Nat) : Char :=
  if n < 10 then Char.ofNat (48 + n) else Char.ofNat (87 + n)

def hexByte (b : UInt8) : List Char :=
  [hexDigit (b.toNat / 16), hexDigit (b.toNat % 16)]

def hex (bs : List UInt8) : String :=
  String.ofList (bs.flatMap hexByte)

/-- The value of a digit of either case. -/
def hexValue (c : Char) : Option Nat :=
  if '0' ≤ c ∧ c ≤ '9' then some (c.toNat - 48)
  else if 'a' ≤ c ∧ c ≤ 'f' then some (c.toNat - 87)
  else if 'A' ≤ c ∧ c ≤ 'F' then some (c.toNat - 55)
  else none

/-- The bytes that pairs of digits stand for; reading ends at the first other pair. -/
def unhex : List Char → List UInt8
  | a :: b :: rest =>
    match hexValue a, hexValue b with
    | some x, some y => UInt8.ofNat (16 * x + y) :: unhex rest
    | _, _ => []
  | _ => []

def utf8 (s : String) : List UInt8 := s.toUTF8.toList

/-- `n` bytes that count up from `start`, each modulo 256. -/
def ascending (start n : Nat) : List UInt8 :=
  (List.range n).map fun i => UInt8.ofNat (start + i)

def mixByte (h : UInt32) (b : UInt8) : UInt32 :=
  (h ^^^ b.toUInt32) * 0x01000193

def digest (bs : List UInt8) : UInt32 :=
  bs.foldl mixByte 0x811c9dc5

/-- A word as its four bytes, most significant first. -/
def wordBytes (w : UInt32) : List UInt8 :=
  [(w >>> 24).toUInt8, (w >>> 16).toUInt8, (w >>> 8).toUInt8, w.toUInt8]

/-- The word of four bytes, most significant first. -/
def wordOf (a b c d : UInt8) : UInt32 :=
  UInt32.ofNat (((a.toNat * 256 + b.toNat) * 256 + c.toNat) * 256 + d.toNat)

def digestHex (bs : List UInt8) : String :=
  hex (wordBytes (digest bs))

end Conduit.Text

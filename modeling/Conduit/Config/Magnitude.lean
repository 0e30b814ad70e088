/-
  Conduit/Config/Magnitude.lean
  =============================
  **Which decimal numbers are too large to read.**

  A number with a fraction or an exponent is read as a binary fraction of 53
  significant bits.  Its digits are first gathered into a 64-bit significand and a
  power of ten; the number is out of range when the product of the two, each rounded
  to 53 bits, rounds to 2^1024 or more.
-/

namespace Conduit.Config

/-- The largest 64-bit natural number. -/
def maxWord : Nat := 18446744073709551615

/-- A natural number rounded to 53 significant bits, ties to even. -/
def round53 (n : Nat) : Nat :=
  let drop := n.log2 + 1 - 53
  let unit := Nat.pow 2 drop
  let q := n / unit
  let r := n % unit
  let up := decide (2 * r > unit) || (decide (2 * r = unit) && q % 2 == 1)
  if drop = 0 then n else (if up then q + 1 else q) * unit

/-- Whether `significand · 10 ^ exponent` is too large to be read. -/
def outOfRange (significand : Nat) (exponent : Int) : Bool :=
  if exponent < 0 ∨ significand = 0 then false
  else if exponent > 308 then true
  else
    decide (Nat.pow 2 1024 - Nat.pow 2 970
      ≤ round53 significand * round53 (Nat.pow 10 exponent.toNat))

/-- Digits gathered into a significand of at most 64 bits, and how many digits did not fit. -/
def gather (limit : Nat) : Nat → List Nat → Nat × Nat
  | s, [] => (s, 0)
  | s, d :: ds =>
    if s * 10 + d ≤ limit then gather limit (s * 10 + d) ds else (s, ds.length + 1)

end Conduit.Config

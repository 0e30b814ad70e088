/-
  Conduit/Config/Scan.lean
  ========================
  **Reading JSON, one token at a time.**

  Each reader takes the rest of a text and answers with what it read and with the
  rest after it.  A text can fail in three ways: it ends too early, it is not JSON,
  or it is JSON of the wrong shape.  Numbers and strings whose value is not needed
  are skipped by laxer readers: a skipped number may be of any size, and the escapes
  of a skipped string are not decoded.
-/
import Conduit.Config.Magnitude
import Conduit.Text.Bytes

namespace Conduit.Config

/-- Why a text was not read: it ended early, it is not JSON, or it has the wrong shape. -/
inductive ReadError
  | truncated
  | malformed
  | mismatched
deriving DecidableEq, Repr

/-- The unread part of a text. -/
abbrev Rest := List Char

def isBlank (c : Char) : Bool :=
  c.toNat == 32 || c.toNat == 10 || c.toNat == 9 || c.toNat == 13

def skipBlanks (cs : Rest) : Rest := cs.dropWhile isBlank

/-- The numbers that the digits in front of a text stand for, and what follows them. -/
def digits (cs : Rest) : List Nat × Rest :=
  ((cs.takeWhile Char.isDigit).map fun c => c.toNat - 48, cs.dropWhile Char.isDigit)

/-- Reads exactly the letters of a word. -/
def word : List Char → Rest → Except ReadError Rest
  | [], cs => .ok cs
  | _ :: _, [] => .error .truncated
  | w :: ws, c :: cs => if w = c then word ws cs else .error .malformed

/-- Reads one given character after blanks. -/
def expect (c : Char) (cs : Rest) : Except ReadError Rest :=
  match skipBlanks cs with
  | [] => .error .truncated
  | d :: ds => if d = c then .ok ds else .error .malformed

/-! ### Numbers -/

inductive Number
  | natural (n : Nat)
  | other
deriving DecidableEq, Repr

/-- An other number, unless it is too large to be read. -/
def bounded (significand : Nat) (exponent : Int) (cs : Rest) : Except ReadError (Number × Rest) :=
  if outOfRange significand exponent then .error .malformed else .ok (.other, cs)

/-- Reads the exponent after its letter. -/
def exponentPart (significand : Nat) (start : Int) (cs : Rest) : Except ReadError (Number × Rest) :=
  let (negative, cs) := match cs with
    | '+' :: r => (false, r)
    | '-' :: r => (true, r)
    | r => (false, r)
  match cs with
  | [] => .error .truncated
  | c :: _ =>
    if c.isDigit then
      let (ds, r) := digits cs
      let (e, lost) := gather 2147483647 0 ds
      if lost > 0 then
        if significand ≠ 0 ∧ ¬ negative then .error .malformed else .ok (.other, r)
      else
        bounded significand (if negative then start - e else start + e) r
    else .error .malformed

/-- Reads what may follow the digits of a number that is not a natural number. -/
def exponentOrEnd (significand : Nat) (start : Int) : Rest → Except ReadError (Number × Rest)
  | 'e' :: r => exponentPart significand start r
  | 'E' :: r => exponentPart significand start r
  | r => bounded significand start r

/-- Reads the fraction after its point. -/
def fractionPart (significand : Nat) (start : Int) (cs : Rest) : Except ReadError (Number × Rest) :=
  match digits cs with
  | ([], []) => .error .truncated
  | ([], _) => .error .malformed
  | (ds, r) =>
    let (s, lost) := gather maxWord significand ds
    exponentOrEnd s (start - (ds.length - lost : Nat)) r

def number (positive : Bool) (cs : Rest) : Except ReadError (Number × Rest) :=
  match digits cs with
  | ([], []) => .error .truncated
  | ([], _) => .error .malformed
  | (0 :: _ :: _, _) => .error .malformed
  | (ds, r) =>
    let (s, lost) := gather maxWord 0 ds
    match r with
    | '.' :: r => fractionPart s lost r
    | 'e' :: r => exponentPart s lost r
    | 'E' :: r => exponentPart s lost r
    | r =>
      if lost > 0 then bounded s lost r
      else .ok (if positive then .natural s else .other, r)

/-- Skips the exponent after its letter. -/
def skipExponent (cs : Rest) : Except ReadError Rest :=
  let cs := match cs with
    | '+' :: r => r
    | '-' :: r => r
    | r => r
  match digits cs with
  | ([], _) => .error .malformed
  | (_, r) => .ok r

/-- Skips a number after its sign; ending early counts as not being a number. -/
def skipNumber (cs : Rest) : Except ReadError Rest :=
  match digits cs with
  | ([], _) => .error .malformed
  | (0 :: _ :: _, _) => .error .malformed
  | (_, '.' :: r) =>
    match digits r with
    | ([], _) => .error .malformed
    | (_, 'e' :: r) => skipExponent r
    | (_, 'E' :: r) => skipExponent r
    | (_, r) => .ok r
  | (_, 'e' :: r) => skipExponent r
  | (_, 'E' :: r) => skipExponent r
  | (_, r) => .ok r

/-! ### Strings -/

/-- Reads the four digits of an escaped code unit.  A text with fewer than four bytes left ends
    too early, whatever they are. -/
def codeUnit (cs : Rest) : Except ReadError (Nat × Rest) :=
  if (cs.take 4).foldl (fun n c => n + c.utf8Size) 0 < 4 then .error .truncated
  else
    match cs with
    | a :: b :: c :: d :: r =>
      match Text.hexValue a, Text.hexValue b, Text.hexValue c, Text.hexValue d with
      | some a, some b, some c, some d => .ok (((a * 16 + b) * 16 + c) * 16 + d, r)
      | _, _, _, _ => .error .malformed
    | _ => .error .malformed

/-- Reads an escaped character after the letter `u`; a leading surrogate needs its partner. -/
def escapedUnit (cs : Rest) : Except ReadError (Char × Rest) := do
  let (n, r) ← codeUnit cs
  if 0xDC00 ≤ n ∧ n ≤ 0xDFFF then .error .malformed
  else if n < 0xD800 ∨ 0xDFFF < n then .ok (Char.ofNat n, r)
  else
    match r with
    | [] => .error .truncated
    | '\\' :: [] => .error .truncated
    | '\\' :: 'u' :: r =>
      let (m, r) ← codeUnit r
      if m < 0xDC00 ∨ 0xDFFF < m then .error .malformed
      else .ok (Char.ofNat ((n - 0xD800) * 1024 + (m - 0xDC00) + 0x10000), r)
    | _ => .error .malformed

/-- The character that a letter after a backslash stands for. -/
def shortEscape (c : Char) : Option Char :=
  if c.toNat = 34 ∨ c.toNat = 92 ∨ c.toNat = 47 then some c
  else if c = 'b' then some (Char.ofNat 8)
  else if c = 'f' then some (Char.ofNat 12)
  else if c = 'n' then some (Char.ofNat 10)
  else if c = 'r' then some (Char.ofNat 13)
  else if c = 't' then some (Char.ofNat 9)
  else none

/-- Reads a string after its opening quote; each step reads one character or escape. -/
def stringBody : Nat → Rest → Except ReadError (List Char × Rest)
  | 0, _ => .error .truncated
  | _ + 1, [] => .error .truncated
  | fuel + 1, c :: cs =>
    if c.toNat = 34 then .ok ([], cs)
    else if c.toNat < 32 then .error .malformed
    else if c.toNat = 92 then
      match cs with
      | [] => .error .truncated
      | e :: r => do
        let (x, r) ← if e = 'u' then escapedUnit r else
          match shortEscape e with
          | some x => .ok (x, r)
          | none => .error .malformed
        let (xs, r) ← stringBody fuel r
        .ok (x :: xs, r)
    else do
      let (xs, r) ← stringBody fuel cs
      .ok (c :: xs, r)

def stringRest (cs : Rest) : Except ReadError (String × Rest) := do
  let (xs, r) ← stringBody (cs.length + 1) cs
  .ok (String.ofList xs, r)

/-- Skips a string after its opening quote, step by step. -/
def skipStringBody : Nat → Rest → Except ReadError Rest
  | 0, _ => .error .truncated
  | _ + 1, [] => .error .truncated
  | fuel + 1, c :: cs =>
    if c.toNat = 34 then .ok cs
    else if c.toNat < 32 then .error .malformed
    else if c.toNat = 92 then
      match cs with
      | [] => .error .truncated
      | e :: r => do
        let r ← if e = 'u' then (codeUnit r).map fun x => x.2 else
          match shortEscape e with
          | some _ => .ok r
          | none => .error .malformed
        skipStringBody fuel r
    else skipStringBody fuel cs

def skipString (cs : Rest) : Except ReadError Rest := skipStringBody (cs.length + 1) cs

/-! ### Values of no interest -/

/-- An array or an object that has been opened. -/
inductive Bracket
  | array
  | object
deriving DecidableEq, Repr

def Bracket.close : Bracket → Char
  | .array => ']'
  | .object => '}'

/-- Where skipping stands: before a value, behind one, or just behind an opening bracket. -/
inductive SkipStage
  | before
  | behind
  | opened
deriving DecidableEq, Repr

/-- Skips the name of a member and its colon; an array has none. -/
def skipName (b : Bracket) (cs : Rest) : Except ReadError Rest :=
  match b with
  | .array => .ok cs
  | .object => do
    let r ← expect (Char.ofNat 34) cs
    let r ← skipString r
    expect ':' r

/-- Skips a value inside the brackets that are open, innermost first. -/
def skipFrom : Nat → SkipStage → List Bracket → Rest → Except ReadError Rest
  | 0, _, _, _ => .error .truncated
  | fuel + 1, .before, outer, cs =>
    match skipBlanks cs with
    | [] => .error .truncated
    | '[' :: r => skipFrom fuel .opened (.array :: outer) r
    | '{' :: r => skipFrom fuel .opened (.object :: outer) r
    | c :: r => do
      let r ←
        if c = 'n' then word ['u', 'l', 'l'] r
        else if c = 't' then word ['r', 'u', 'e'] r
        else if c = 'f' then word ['a', 'l', 's', 'e'] r
        else if c = '-' then skipNumber r
        else if c.isDigit then skipNumber (c :: r)
        else if c.toNat = 34 then skipString r
        else .error .malformed
      skipFrom fuel .behind outer r
  | _ + 1, .behind, [], cs => .ok cs
  | fuel + 1, .behind, b :: outer, cs =>
    match skipBlanks cs with
    | [] => .error .truncated
    | c :: r =>
      if c = ',' then do
        let r ← skipName b r
        skipFrom fuel .before (b :: outer) r
      else if c = b.close then skipFrom fuel .behind outer r
      else .error .malformed
  | _ + 1, .opened, [], _ => .error .malformed
  | fuel + 1, .opened, b :: outer, cs =>
    match skipBlanks cs with
    | [] => .error .truncated
    | c :: r =>
      if c = b.close then skipFrom fuel .behind outer r
      else do
        let r ← skipName b (c :: r)
        skipFrom fuel .before (b :: outer) r

/-- Skips one value.  Each character is looked at in at most three stages. -/
def skipValue (cs : Rest) : Except ReadError Rest :=
  skipFrom (3 * cs.length + 3) .before [] cs

end Conduit.Config

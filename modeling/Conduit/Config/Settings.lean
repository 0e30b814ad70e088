/-
  Conduit/Config/Settings.lean
  ============================
  **The settings of pools and rings, and their JSON form.**

  Settings are written as an object with every field in its fixed order.  They are
  read from an object, where fields may be missing (the default stands in), unknown
  (the value is skipped) but not repeated, or from an array that gives the fields in
  order and may stop early.
-/
import Conduit.Config.Scan
import Conduit.Text.Record

namespace Conduit.Config

/-! ### The settings -/

structure PoolSettings where
  capacity : Nat
  preInitialize : Bool
  ignoreDispose : Bool
deriving DecidableEq, Repr

/-- Sixty-four slots, filled on demand, items reset on their return. -/
def PoolSettings.default : PoolSettings := ⟨64, false, false⟩

structure RingSettings where
  capacity : Nat
deriving DecidableEq, Repr

def RingSettings.default : RingSettings := ⟨65536⟩

/-! ### Fields -/

/-- The value of a field: a size or a flag. -/
inductive FieldValue
  | size (n : Nat)
  | flag (b : Bool)
deriving DecidableEq, Repr

/-- A settings type as a list of named fields, in their order. -/
structure Layout (σ : Type) where
  typeName : String
  default : σ
  fields : σ → List (String × FieldValue)
  set : σ → String → FieldValue → σ

def PoolSettings.layout : Layout PoolSettings where
  typeName := "PoolConfig"
  default := PoolSettings.default
  fields s := [("capacity", .size s.capacity), ("pre_initialize", .flag s.preInitialize),
    ("ignore_dispose", .flag s.ignoreDispose)]
  set s
    | "capacity", .size n => { s with capacity := n }
    | "pre_initialize", .flag b => { s with preInitialize := b }
    | "ignore_dispose", .flag b => { s with ignoreDispose := b }
    | _, _ => s

def RingSettings.layout : Layout RingSettings where
  typeName := "RingConfig"
  default := RingSettings.default
  fields s := [("capacity", .size s.capacity)]
  set s
    | "capacity", .size n => { s with capacity := n }
    | _, _ => s

def FieldValue.text : FieldValue → String
  | .size n => toString n
  | .flag b => Text.truth b

/-- Settings as JSON, without blanks. -/
def Layout.json {σ : Type} (l : Layout σ) (s : σ) : String :=
  "\x7b" ++ String.intercalate ","
    ((l.fields s).map fun f => "\"" ++ f.1 ++ "\":" ++ f.2.text) ++ "\x7d"

def Layout.debug {σ : Type} (l : Layout σ) (s : σ) : String :=
  Text.record l.typeName ((l.fields s).map fun f => (f.1, f.2.text))

/-- Whether settings are the default ones, field by field. -/
def Layout.isDefault {σ : Type} (l : Layout σ) (s : σ) : Bool :=
  l.fields s == l.fields l.default

/-! ### Reading -/

/-- Reads a value of a kind that fits nowhere, to find out whether it is JSON at all. -/
def wrongKind : Rest → ReadError
  | [] => .truncated
  | c :: r =>
    let after {α : Type} : Except ReadError α → ReadError
      | .ok _ => .mismatched
      | .error e => e
    if c = 'n' then after (word ['u', 'l', 'l'] r)
    else if c = 't' then after (word ['r', 'u', 'e'] r)
    else if c = 'f' then after (word ['a', 'l', 's', 'e'] r)
    else if c = '-' then after (number false r)
    else if c.isDigit then after (number true (c :: r))
    else if c.toNat = 34 then after (stringRest r)
    else if c = '[' ∨ c = '{' then .mismatched
    else .malformed

/-- Reads a size: a natural number of 64 bits. -/
def readSize (cs : Rest) : Except ReadError (FieldValue × Rest) := do
  let cs := skipBlanks cs
  match cs with
  | [] => .error .truncated
  | c :: r =>
    if c = '-' ∨ c.isDigit then do
      let (n, r) ← if c = '-' then number false r else number true cs
      match n with
      | .natural n => .ok (.size n, r)
      | .other => .error .mismatched
    else .error (wrongKind cs)

def readFlag (cs : Rest) : Except ReadError (FieldValue × Rest) := do
  let cs := skipBlanks cs
  match cs with
  | [] => .error .truncated
  | c :: r =>
    if c = 't' then (word ['r', 'u', 'e'] r).map fun r => (.flag true, r)
    else if c = 'f' then (word ['a', 'l', 's', 'e'] r).map fun r => (.flag false, r)
    else .error (wrongKind cs)

/-- Reads a value of the same kind as a given one. -/
def FieldValue.readAlike : FieldValue → Rest → Except ReadError (FieldValue × Rest)
  | .size _ => readSize
  | .flag _ => readFlag

/-- Moves to the name of the next member, just behind its opening quote, if there is one. -/
def nextName (first : Bool) (cs : Rest) : Except ReadError (Bool × Rest) :=
  match skipBlanks cs with
  | [] => .error .truncated
  | '}' :: r => .ok (false, r)
  | c :: r =>
    if first then
      if c.toNat = 34 then .ok (true, r) else .error .malformed
    else if c = ',' then
      match skipBlanks r with
      | [] => .error .truncated
      | d :: r => if d.toNat = 34 then .ok (true, r) else .error .malformed
    else .error .malformed

/-- Reads the members of an object after its brace.  A repeated field is found out at its name. -/
def members {σ : Type} (l : Layout σ) :
    Nat → Bool → List String → σ → Rest → Except ReadError (σ × Rest)
  | 0, _, _, _, _ => .error .truncated
  | fuel + 1, first, seen, s, cs => do
    let (more, r) ← nextName first cs
    match more with
    | false => .ok (s, r)
    | true =>
      let (name, r) ← stringRest r
      match (l.fields s).lookup name with
      | none =>
        let r ← expect ':' r
        let r ← skipValue r
        members l fuel false seen s r
      | some kind =>
        if seen.contains name then .error .mismatched
        else do
          let r ← expect ':' r
          let (v, r) ← kind.readAlike r
          members l fuel false (name :: seen) (l.set s name v) r

/-- Moves to the next element of an array, if there is one; the closing bracket is not passed. -/
def nextElement (first : Bool) (cs : Rest) : Except ReadError (Bool × Rest) :=
  match skipBlanks cs with
  | [] => .error .truncated
  | ']' :: r => .ok (false, ']' :: r)
  | c :: r =>
    if first then .ok (true, c :: r)
    else if c = ',' then
      match skipBlanks r with
      | [] => .error .truncated
      | ']' :: _ => .error .malformed
      | r => .ok (true, r)
    else .error .malformed

/-- Reads the elements of an array after its bracket, one for each field while there are any. -/
def elements {σ : Type} (l : Layout σ) :
    List (String × FieldValue) → Bool → σ → Rest → Except ReadError (σ × Rest)
  | [], _, s, cs => .ok (s, cs)
  | (name, kind) :: more, first, s, cs => do
    let (found, r) ← nextElement first cs
    match found with
    | false => .ok (s, r)
    | true =>
      let (v, r) ← kind.readAlike r
      elements l more false (l.set s name v) r

/-- Reads settings, with nothing but blanks behind them. -/
def Layout.read {σ : Type} (l : Layout σ) (text : String) : Except ReadError σ := do
  let cs := skipBlanks text.toList
  let (s, r) ← match cs with
    | [] => .error .truncated
    | '{' :: r => members l (r.length + 1) true [] l.default r
    | '[' :: r => do
      let (s, r) ← elements l (l.fields l.default) true l.default r
      let r ← expect ']' r
      .ok (s, r)
    | cs => .error (wrongKind cs)
  if (skipBlanks r).isEmpty then .ok s else .error .malformed

end Conduit.Config

/-
  Conduit/Pool/Session.lean
  =========================
  **A pool and the items that its users hold.**

  An item is held bare, or in a scope that gives it back when it ends.  When a session
  closes, open scopes end first, then the items held bare are destroyed, then the pool.
-/
import Conduit.Named
import Conduit.Pool.Basic
import Conduit.Text.Bytes

namespace Conduit.Pool

open Text (utf8)

/-! ### Items in a session -/

inductive ItemView
  | text (s : String)
  | bytes (bs : List UInt8)
  | tracked (t : Tracked)
deriving DecidableEq, Repr

/-- Items that a session can make, change and show. -/
class Specimen (α : Type) extends Poolable α where
  /-- The item with a given number, with a text added to its data. -/
  make : Nat → String → α
  /-- Adds a text to an item's data, at the front or at the end. -/
  push : (front : Bool) → String → α → α
  view : α → ItemView
  debug : α → String

/-- The data that an item starts with. -/
def initialData (n : Nat) : String := "g" ++ toString n

def byteList (bs : List UInt8) : String :=
  "[" ++ String.intercalate ", " (bs.map toString) ++ "]"

instance : Specimen Plain where
  make n s := ⟨initialData n ++ s⟩
  push _ s p := ⟨p.text ++ s⟩
  view p := .text p.text
  debug p := "Plain(" ++ Text.quote p.text ++ ")"

instance : Specimen String where
  make n s := initialData n ++ s
  push front s t := if front then s ++ t else t ++ s
  view := .text
  debug := Text.quote

instance : Specimen (List UInt8) where
  make n s := utf8 (initialData n ++ s)
  push front s bs := if front then utf8 s ++ bs else bs ++ utf8 s
  view := .bytes
  debug := byteList

/-- Bytes pushed to the front one after another end up reversed. -/
instance : Specimen (Deque UInt8) where
  make n s := ⟨utf8 (initialData n ++ s)⟩
  push front s d := if front then ⟨(utf8 s).reverse ++ d.toList⟩ else ⟨d.toList ++ utf8 s⟩
  view d := .bytes d.toList
  debug d := byteList d.toList

/-- The data of a tracked item is replaced where that of others grows at the front. -/
instance : Specimen Tracked where
  make n s := ⟨n, initialData n ++ s, 0, 0⟩
  push front s t := { t with data := if front then s else t.data ++ s }
  view := .tracked
  debug t := "#" ++ toString t.id

instance {α : Type} [Specimen α] : Specimen (Boxed α) where
  make n s := ⟨Specimen.make n s⟩
  push front s b := ⟨Specimen.push front s b.content⟩
  view b := Specimen.view b.content
  debug b := Specimen.debug b.content

/-- A generator of numbered items that fails at some of its calls. -/
def generator {α : Type} [Specimen α] (failing : List Nat) (n : Nat) : Except Panic α :=
  if failing.contains n then .error (.generatorFailed n) else .ok (Specimen.make n "")

/-! ### Requests and answers -/

inductive Request
  | borrow (h : String)
  | release (h : String)
  | releaseNew (id : Nat) (text : String)
  | scope (h : String)
  | endScope (h : String)
  | detach (h : String)
  | push (h : String) (text : String) (front : Bool)
  | view (h : String)
  | discard (h : String)
  | scopeDebug (h : String)
  | info
  | debug
  | dropPool
  | unknown
deriving DecidableEq, Repr

inductive Reply
  | nothing
  | item (v : ItemView)
  | text (s : String)
  | info (capacity available : Nat) (label : String)
  | panic (p : Panic)
  | misuse (m : Misuse)
deriving DecidableEq, Repr

inductive Hold (α : Type)
  | bare (item : α)
  | scoped (item : α)
deriving DecidableEq, Repr

namespace Hold

variable {α : Type}

def item : Hold α → α
  | .bare a => a
  | .scoped a => a

def set (a : α) : Hold α → Hold α
  | .bare _ => .bare a
  | .scoped _ => .scoped a

def isScoped : Hold α → Bool
  | .scoped _ => true
  | .bare _ => false

end Hold

/-- A pool, unless it has been dropped, and the items held from it by handle. -/
structure Session (α : Type) where
  pool : Option (Pool α)
  holds : Named (Hold α)

namespace Session

variable {α : Type} [Specimen α]

abbrev Answer (α : Type) := Outcome Reply (Session α)

def refuse (s : Session α) (m : Misuse) : Answer α := .pure (.misuse m) s

def available (s : Session α) : Option Nat := s.pool.map Pool.available

def onPool {β : Type} (s : Session α) (o : Outcome β (Pool α)) : Outcome β (Session α) :=
  o.lift fun p => { s with pool := some p }

def withPool (s : Session α) (use : Pool α → Answer α) : Answer α :=
  match s.pool with
  | some p => use p
  | none => s.refuse .gone

def withBare (s : Session α) (h : String) (use : α → Answer α) : Answer α :=
  match s.holds.get? h with
  | some (.bare a) => use a
  | _ => s.refuse .noSuchHandle

def withScoped (s : Session α) (h : String) (use : α → Answer α) : Answer α :=
  match s.holds.get? h with
  | some (.scoped a) => use a
  | _ => s.refuse .noSuchHandle

/-- Borrows an item and holds it. -/
def lend (s : Session α) (h : String) (hold : α → Hold α) : Answer α :=
  s.withPool fun p =>
    if s.holds.holds h then s.refuse .handleInUse
    else
      (s.onPool p.borrow).andThen fun r s =>
        match r with
        | .ok a => .pure (.item (Specimen.view a)) { s with holds := s.holds.put h (hold a) }
        | .error e => .pure (.panic e) s

def giveBack (s : Session α) (p : Pool α) (a : α) : Answer α :=
  (s.onPool (p.release a)).map fun
    | .ok () => .nothing
    | .error e => .panic e

def step (s : Session α) : Request → Answer α
  | .borrow h => s.lend h .bare
  | .scope h => s.lend h .scoped
  | .release h =>
    s.withPool fun p => s.withBare h fun a =>
      giveBack { s with holds := s.holds.erase h } p a
  | .releaseNew id text => s.withPool fun p => s.giveBack p (Specimen.make id text)
  | .endScope h =>
    s.withScoped h fun a => s.withPool fun p =>
      giveBack { s with holds := s.holds.erase h } p a
  | .detach h =>
    s.withScoped h fun a =>
      .pure (.item (Specimen.view a)) { s with holds := s.holds.put h (.bare a) }
  | .push h text front =>
    match s.holds.get? h with
    | some hold =>
      let a := Specimen.push front text hold.item
      .pure (.item (Specimen.view a)) { s with holds := s.holds.put h (hold.set a) }
    | none => s.refuse .noSuchHandle
  | .view h =>
    match s.holds.get? h with
    | some hold => .pure (.item (Specimen.view hold.item)) s
    | none => s.refuse .noSuchHandle
  | .discard h =>
    s.withBare h fun a => ⟨.nothing, { s with holds := s.holds.erase h }, destroy a⟩
  | .scopeDebug h =>
    s.withScoped h fun a => .pure (.text ("Pooled(" ++ Specimen.debug a ++ ")")) s
  | .info => s.withPool fun p => .pure (.info p.capacity p.available p.label) s
  | .debug => s.withPool fun p => .pure (.text p.debug) s
  | .dropPool =>
    s.withPool fun p =>
      if s.holds.any fun e => e.2.isScoped then s.refuse .busy
      else p.clear.andThen fun _ _ => .pure .nothing { s with pool := none }
  | .unknown => s.refuse .noSuchOp

def run (s : Session α) : List Request → List (Answer α)
  | [] => []
  | r :: rs => let o := s.step r; o :: run o.state rs

/-- Ends the scopes among the holds, one after another, whatever they lead to. -/
def endScopes (s : Session α) : Named (Hold α) → Outcome Unit (Session α)
  | [] => .pure () s
  | (h, .scoped _) :: more => (s.step (.endScope h)).andThen fun _ s => endScopes s more
  | (_, .bare _) :: more => endScopes s more

/-- Ends the open scopes, then destroys the items held bare, then the pool with what is parked in
    it; handles are taken in order. -/
def close (s : Session α) : Outcome Unit (Session α) :=
  (s.endScopes s.holds.inOrder).andThen fun _ s =>
    (Outcome.mk () { s with holds := [] }
      (s.holds.inOrder.flatMap fun e => destroy e.2.item)).andThen fun _ s =>
      match s.pool with
      | some p => p.clear.andThen fun _ _ => .pure () { s with pool := none }
      | none => .pure () s

end Session

end Conduit.Pool

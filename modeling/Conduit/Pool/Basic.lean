/-
  Conduit/Pool/Basic.lean
  =======================
  **A pool of fixed capacity.**

  A pool is a row of slots, each empty or holding a parked item.  A borrow takes the
  item of the first slot that holds one, or has the generator make one if none does; a
  release parks the item in the first empty slot, or destroys it if there is none.  An
  item whose hook fails is destroyed, and the slots stay as they were.
-/
import Conduit.Config.Settings
import Conduit.Pool.Poolable

namespace Conduit

namespace Pool

/-! ### Slots -/

/-- A row of slots, each empty or holding an item. -/
abbrev Slots (α : Type) := List (Option α)

namespace Slots

variable {α : Type}

def parked (slots : Slots α) : List α := slots.filterMap id

/-- Takes the item of the first slot that holds one. -/
def take? : Slots α → Option (α × Slots α)
  | [] => none
  | some a :: slots => some (a, none :: slots)
  | none :: slots => (take? slots).map fun r => (r.1, none :: r.2)

/-- Parks an item in the first empty slot. -/
def put? (a : α) : Slots α → Option (Slots α)
  | [] => none
  | none :: slots => some (some a :: slots)
  | some b :: slots => (put? a slots).map fun r => some b :: r

end Slots

end Pool

/-! ### The pool -/

/-- A pool: its slots, how the generator makes its `n`-th item and how often it was called,
    whether items are parked as they come back, and what is told to whom. -/
structure Pool (α : Type) where
  slots : Pool.Slots α
  make : Nat → Except Panic α
  calls : Nat
  ignoreDispose : Bool
  label : String
  observer : Observer

namespace Pool

variable {α : Type} [Poolable α]

def capacity (p : Pool α) : Nat := p.slots.length

def available (p : Pool α) : Nat := (Slots.parked p.slots).length

/-- Has the generator make an item; a call that fails counts as well. -/
def generate (p : Pool α) : Outcome (Except Panic α) (Pool α) :=
  .pure (p.make p.calls) { p with calls := p.calls + 1 }

/-- Lets an item know that it is lent. -/
def lend (item : α) (p : Pool α) : Outcome (Except Panic α) (Pool α) :=
  match Poolable.onBorrow item with
  | .ok item => .pure (.ok item) p
  | .error e => ⟨.error e, p, destroy item⟩

/-- Lends a parked item, or a new one if none is parked. -/
def borrow (p : Pool α) : Outcome (Except Panic α) (Pool α) :=
  match p.slots.take? with
  | some (item, slots) => lend item { p with slots := slots }
  | none =>
    (Outcome.mk () p [.reported p.observer (.poolMiss p.label)]).andThen fun _ p =>
      p.generate.andThen fun
        | .ok item, p => p.lend item
        | .error e, p => .pure (.error e) p

/-- Parks an item that is ready for it, or destroys it if every slot is taken. -/
def park (item : α) (p : Pool α) : Outcome (Except Panic Unit) (Pool α) :=
  match p.slots.put? item with
  | some slots => .pure (.ok ()) { p with slots := slots }
  | none => ⟨.ok (), p, .reported p.observer (.poolOverflow p.label) :: destroy item⟩

def release (item : α) (p : Pool α) : Outcome (Except Panic Unit) (Pool α) :=
  if p.ignoreDispose then p.park item
  else
    match Poolable.reset item with
    | .ok item => p.park item
    | .error e => ⟨.error e, p, destroy item⟩

/-- Destroys every parked item, in slot order. -/
def clear (p : Pool α) : Outcome Unit (Pool α) :=
  ⟨(), { p with slots := p.slots.map fun _ => none },
    (Slots.parked p.slots).flatMap fun item => destroy item⟩

/-- Fills the next `n` empty slots from the generator.  If it fails, every item parked so far is
    destroyed. -/
def fill : Nat → Pool α → Outcome (Except Panic Unit) (Pool α)
  | 0, p => .pure (.ok ()) p
  | n + 1, p =>
    p.generate.andThen fun
      | .error e, p => p.clear.map fun _ => .error e
      | .ok item, p => (p.park item).andThen fun _ p => fill n p

/-- A pool with the given settings; asking for a capacity of zero breaks its contract. -/
def assemble (settings : Config.PoolSettings) (make : Nat → Except Panic α) (label : String)
    (observer : Observer) : Outcome (Except Panic Unit) (Pool α) :=
  let p : Pool α :=
    ⟨List.replicate settings.capacity none, make, 0, settings.ignoreDispose, label, observer⟩
  if settings.capacity = 0 then .pure (.error .poolCapacity) p
  else if settings.preInitialize then p.fill settings.capacity
  else .pure (.ok ()) p

def debug (p : Pool α) : String :=
  Text.openRecord "Pool"
    [("label", Text.quote p.label), ("capacity", toString p.capacity),
     ("available", toString p.available), ("ignore_dispose", Text.truth p.ignoreDispose)]

/-! ### Builders -/

structure Builder where
  settings : Config.PoolSettings
  label : Option String
  observer : Option Observer
deriving DecidableEq, Repr

namespace Builder

def new : Builder := ⟨.default, none, none⟩

def debug (b : Builder) : String :=
  Text.openRecord "PoolBuilder"
    [("config", Config.PoolSettings.layout.debug b.settings),
     ("label", Text.quoteOption b.label), ("has_observer", Text.truth b.observer.isSome)]

def defaultLabel : String := "<default>"

/-- Builds the pool; a capacity of zero is refused.  Otherwise the answer is whether the
    generator filled the slots, if it was to. -/
def build (b : Builder) (make : Nat → Except Panic α) :
    Except BuildError (Outcome (Except Panic Unit) (Pool α)) :=
  if b.settings.capacity = 0 then .error .zeroCapacity
  else
    .ok (Pool.assemble b.settings make (b.label.getD defaultLabel) (b.observer.getD .tracing))

end Builder

def new (capacity : Nat) (make : Nat → Except Panic α) : Outcome (Except Panic Unit) (Pool α) :=
  assemble { Config.PoolSettings.default with capacity := capacity } make
    Builder.defaultLabel .tracing

end Pool

end Conduit

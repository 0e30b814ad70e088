/-
  Conduit/Lease/Depot.lean
  ========================
  **A pool of slots that come home on their own.**

  The shelf of a depot is a pool of slot numbers.  A rent takes a number off the shelf,
  or makes a new slot if the shelf is empty, and leases that slot; a slot that has been
  recycled goes back to the shelf, as long as the depot is there.  Every slot ever made
  stays in the depot's list, so that handles of past leases still find it.
-/
import Conduit.Lease.Slot
import Conduit.Pool.Basic

namespace Conduit.Lease

/-- Slot numbers are parked and lent as they are. -/
instance : Pool.Poolable Nat where
  onBorrow := .ok
  reset := .ok
  mark? _ := none

/-- The slots ever made, what a new one looks like, the numbers of the parked ones, and whether the
    depot is still there. -/
structure Depot (α κ : Type) where
  slots : List (Slot α κ)
  blank : Slot α κ
  shelf : Pool Nat
  isOpen : Bool

structure Builder where
  capacity : Nat
  preInitialize : Bool
  label : Option String
  deferred : Bool
  observer : Option Observer
deriving DecidableEq, Repr

namespace Depot

variable {α κ : Type}

/-- Makes the slots whose numbers the shelf has handed out since. -/
def stock (d : Depot α κ) : Depot α κ :=
  { d with slots := d.slots ++ List.replicate (d.shelf.calls - d.slots.length) d.blank }

def onShelf {β : Type} (d : Depot α κ) (o : Outcome β (Pool Nat)) : Outcome β (Depot α κ) :=
  o.lift fun shelf => ({ d with shelf := shelf } : Depot α κ).stock

def slot (d : Depot α κ) (n : Nat) : Slot α κ := d.slots.getD n d.blank

def onSlot {β : Type} (d : Depot α κ) (n : Nat) (op : Slot α κ → Outcome β (Slot α κ)) :
    Outcome β (Depot α κ) :=
  (op (d.slot n)).lift fun s => { d with slots := d.slots.set n s }

/-- A depot of the given capacity, which is not zero. -/
def assemble (capacity : Nat) (preInitialize deferred : Bool) (label : String)
    (observer : Observer) : Outcome (Except Panic Unit) (Depot α κ) :=
  (Pool.assemble ⟨capacity, preInitialize, true⟩ .ok label observer).lift fun shelf =>
    ({ slots := [], blank := .new .depot deferred observer, shelf := shelf, isOpen := true }
      : Depot α κ).stock

def defaultLabel : String := "future-slots"

def new (capacity : Nat) : Except Panic (Outcome (Except Panic Unit) (Depot α κ)) :=
  if capacity = 0 then .error .futurePoolCapacity
  else
    .ok (assemble capacity Config.PoolSettings.default.preInitialize false defaultLabel .tracing)

/-- Leases a parked slot, or a new one if none is parked.  The answer is the slot's number and the
    generation of the lease. -/
def rent (d : Depot α κ) : Outcome (Except Panic (Nat × UInt32)) (Depot α κ) :=
  (d.onShelf d.shelf.borrow).andThen fun
    | .error e, d => .pure (.error e) d
    | .ok n, d =>
      (d.onSlot n Slot.lease).map fun r => r.map fun generation => (n, generation)

/-- A recycled slot comes home. -/
def shelve (d : Depot α κ) (n : Nat) : Outcome Unit (Depot α κ) :=
  if d.isOpen then (d.onShelf (d.shelf.release n)).map fun _ => () else .pure () d

/-- The depot is dropped with all it has parked; slots on lease stay with their holders. -/
def close (d : Depot α κ) : Outcome Unit (Depot α κ) :=
  (d.onShelf d.shelf.clear).lift fun d => { d with isOpen := false }

def capacity (d : Depot α κ) : Nat := d.shelf.capacity

def available (d : Depot α κ) : Nat := d.shelf.available

def debug (d : Depot α κ) : String := Text.record "FuturePool" [("slots", d.shelf.debug)]

end Depot

namespace Builder

/-- The default capacity and label, and continuations run where the completion is. -/
def new : Builder := ⟨Config.PoolSettings.default.capacity, false, none, false, none⟩

def debug (b : Builder) : String :=
  Text.openRecord "FuturePoolBuilder"
    [("capacity", toString b.capacity), ("pre_initialize", Text.truth b.preInitialize),
     ("label", Text.quoteOption b.label), ("deferred", Text.truth b.deferred)]

/-- Builds the depot; a capacity of zero is refused. -/
def build {α κ : Type} (b : Builder) :
    Except BuildError (Outcome (Except Panic Unit) (Depot α κ)) :=
  if b.capacity = 0 then .error .zeroCapacity
  else
    .ok (Depot.assemble b.capacity b.preInitialize b.deferred
      (b.label.getD Depot.defaultLabel) (b.observer.getD .tracing))

end Builder

end Conduit.Lease

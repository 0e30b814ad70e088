/-
  Conduit/Pool/Poolable.lean
  ==========================
  **Items that a pool can lend.**

  An item may want to know when it is lent and may want to be cleaned when it comes
  back; either may fail.  Texts and byte strings are emptied on their return.  A boxed
  item passes both calls on to what is inside, however deep.
-/
import Conduit.Fault
import Conduit.Outcome

namespace Conduit.Pool

/-- What happens to an item on its way out of a pool and back. -/
class Poolable (α : Type) where
  /-- Called each time the item is lent. -/
  onBorrow : α → Except Panic α
  /-- Called each time the item is given back, before it is parked. -/
  reset : α → Except Panic α
  /-- The mark that the item leaves when it is destroyed, if it leaves one. -/
  mark? : α → Option Nat

/-- What is seen of an item's destruction. -/
def destroy {α : Type} [Poolable α] (item : α) : List Effect :=
  (Poolable.mark? item).toList.map .destroyed

instance {β : Type} : Poolable (List β) where
  onBorrow := .ok
  reset _ := .ok []
  mark? _ := none

instance : Poolable String where
  onBorrow := .ok
  reset _ := .ok ""
  mark? _ := none

/-- A list that grows at both ends. -/
structure Deque (β : Type) where
  toList : List β
deriving DecidableEq, Repr

instance {β : Type} : Poolable (Deque β) where
  onBorrow := .ok
  reset _ := .ok ⟨[]⟩
  mark? _ := none

structure Boxed (α : Type) where
  content : α
deriving DecidableEq, Repr

/-- A box passes both calls on to its content. -/
instance {α : Type} [Poolable α] : Poolable (Boxed α) where
  onBorrow b := (Poolable.onBorrow b.content).map Boxed.mk
  reset b := (Poolable.reset b.content).map Boxed.mk
  mark? b := Poolable.mark? b.content

/-- A text that takes no notice of being lent or given back. -/
structure Plain where
  text : String
deriving DecidableEq, Repr

instance : Poolable Plain where
  onBorrow := .ok
  reset := .ok
  mark? _ := none

/-- An item that counts its lendings and returns, refuses either on demand of its data, and
    leaves its number when it is destroyed. -/
structure Tracked where
  id : Nat
  data : String
  borrows : Nat
  resets : Nat
deriving DecidableEq, Repr

instance : Poolable Tracked where
  onBorrow t :=
    if t.data = "BORROW!" then .error .borrowRefused else .ok { t with borrows := t.borrows + 1 }
  reset t :=
    if t.data = "RESET!" then .error .resetRefused
    else .ok { t with resets := t.resets + 1, data := "" }
  mark? t := some t.id

end Conduit.Pool

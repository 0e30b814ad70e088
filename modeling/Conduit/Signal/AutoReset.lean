/-
  Conduit/Signal/AutoReset.lean
  =============================
  **What the auto-reset signals have in common.**

  Each setting of a signal releases at most one waiter; with nobody waiting, one
  release is banked for the next caller.  A wait is begun without effect, polled until
  it is released, and dropped; dropping it before that withdraws it, and a signal that
  it was handed goes to somebody else.

  `raceCancel` is a wait that ends early: it asks the wait first and the cancellation
  only if the wait is still pending, so that a release always wins.
-/
import Conduit.Signal.Queue
import Conduit.Signal.Slim
import Conduit.Signal.Spin

namespace Conduit.Signal

/-- A signal `σ` whose waits are values of type `ω`. -/
class AutoReset (σ : Type) (ω : outParam Type) where
  /-- An unset signal that reports withdrawn waits to an observer. -/
  new : Observer → σ
  /-- Releases one waiter, or banks the signal. -/
  set : σ → Outcome Unit σ
  /-- Takes a release without waiting. -/
  tryWait : σ → Outcome Bool σ
  /-- A wait that has not begun. -/
  wait : ω
  /-- Polls a wait: whether it is released, and the wait from then on. -/
  poll : Waker → ω → σ → Outcome (Bool × ω) σ
  /-- Gives up a wait. -/
  drop : ω → σ → Outcome Unit σ
  /-- Releases that are not consumed yet. -/
  pendingReleases : σ → Nat
  /-- Waits that have registered and are neither resolved nor withdrawn. -/
  registeredWaits : σ → Nat

instance : AutoReset Queue Queue.Wait where
  new := Queue.new
  set := Queue.set
  tryWait := Queue.tryWait
  wait := .init
  poll := Queue.poll
  drop := Queue.drop
  pendingReleases := Queue.pendingReleases
  registeredWaits := Queue.registeredWaits

instance : AutoReset Spin Spin.Wait where
  new := Spin.new
  set := Spin.set
  tryWait := Spin.tryWait
  wait := .init
  poll := Spin.poll
  drop := Spin.drop
  pendingReleases := Spin.pendingReleases
  registeredWaits := Spin.registeredWaits

instance : AutoReset Slim Slim.Wait where
  new := Slim.new
  set := Slim.set
  tryWait := Slim.tryWait
  wait := ⟨.fresh⟩
  poll w wait s := (s.pollWait w wait.key).map fun r => (r.1, ⟨r.2⟩)
  drop wait s := s.cancelWait wait.key
  pendingReleases := Slim.pendingReleases
  registeredWaits := Slim.registeredWaits

/-! ### Waits that can be cancelled -/

/-- Something that may happen and end a wait: whether it has, and whom to wake when it does. -/
structure Cancellation where
  fired : Bool
  waker : Option Waker
deriving DecidableEq, Repr

/-- Lets the cancellation happen; the waker it was asked with last is called, once. -/
def Cancellation.fire (c : Cancellation) : Outcome Unit Cancellation :=
  ⟨(), ⟨true, none⟩, c.waker.toList.map .woken⟩

/-- How a poll of a cancellable wait ends. -/
inductive Race (ω : Type)
  | released
  | cancelled
  | pending (wait : ω)

/-- Polls a wait that a cancellation may end. -/
def raceCancel {σ ω : Type} [AutoReset σ ω] (w : Waker) (wait : ω) (c : Cancellation) (s : σ) :
    Outcome (Race ω × Cancellation) σ :=
  (AutoReset.poll w wait s).andThen fun r s =>
    if r.1 then .pure (.released, c) s
    else if c.fired then (AutoReset.drop r.2 s).map fun _ => (.cancelled, c)
    else .pure (.pending r.2, { c with waker := some w }) s

end Conduit.Signal

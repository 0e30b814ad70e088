/-
  Conduit/Proofs/Watch.lean
  =========================
  **Watching a waker from the outside.**

  Whoever polls hands in a waker and may sleep until it is called.  A watch remembers the
  waker of a latest poll and hears from the effects since then whether it was called; it
  looks at no state.
-/
import Conduit.Outcome

namespace Conduit

/-- The waker of a handle's latest poll, and whether it was called since then. -/
structure Watch where
  waker : Waker
  woken : Bool
deriving DecidableEq, Repr

namespace Watch

/-- Notes a call of the waker among effects. -/
def hear (effects : List Effect) (x : Watch) : Watch :=
  { x with woken := x.woken || effects.any (· == .woken x.waker) }

variable {x : Watch} {effects : List Effect}

theorem hear_of_woken (h : x.woken = true) (effects : List Effect) :
    (x.hear effects).woken = true := by
  simp [hear, h]

theorem hear_of_mem (h : .woken x.waker ∈ effects) : (x.hear effects).woken = true := by
  have hany : effects.any (· == .woken x.waker) = true :=
    List.any_eq_true.mpr ⟨_, h, beq_self_eq_true _⟩
  simp [hear, hany]

theorem hear_append (effects effects' : List Effect) (x : Watch) :
    x.hear (effects ++ effects') = (x.hear effects).hear effects' := by
  simp only [hear, List.any_append, Bool.or_assoc]

end Watch

end Conduit

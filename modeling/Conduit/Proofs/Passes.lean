/-
  Conduit/Proofs/Passes.lean
  ==========================
  **The passes of a loop, counted.**

  A loop is run with a bound on its passes.  `Passes` leaves the bound out: it is the loop
  from its start to its end, with its passes told apart into those that moved something on
  and those that were idle.  What two relations say of single passes bounds their numbers
  (`Passes.idle_le`), a measure that every pass lowers makes the loop end
  (`exists_passes`), and a loop that ends does so under every bound above its passes
  (`Passes.loop`).
-/
import Conduit.Outcome

namespace Conduit.Outcome

variable {β σ : Type}

/-- The passes of a loop from its start to its end.  Each but the last asks for another; `m` of
    these moved something on, and `i` of them were idle. -/
inductive Passes (pass : σ → Outcome (Option β) σ) (Moves Idles : σ → σ → Prop) :
    Nat → Nat → σ → β → σ → Prop
  | last {s : σ} {b : β} (answers : (pass s).answer = some b) :
    Passes pass Moves Idles 0 0 s b (pass s).state
  | moves {s s' : σ} {b : β} {m i : Nat} (again : (pass s).answer = none)
    (moved : Moves s (pass s).state) (rest : Passes pass Moves Idles m i (pass s).state b s') :
    Passes pass Moves Idles (m + 1) i s b s'
  | idles {s s' : σ} {b : β} {m i : Nat} (again : (pass s).answer = none)
    (idled : Idles s (pass s).state) (rest : Passes pass Moves Idles m i (pass s).state b s') :
    Passes pass Moves Idles m (i + 1) s b s'

/-- A loop comes to an end with an outcome, after three passes at most that moved nothing on: two
    idle ones, and the one that answers. -/
def Finishes (pass : σ → Outcome (Option β) σ) (Moves Idles : σ → σ → Prop) (o : Outcome β σ)
    (s : σ) : Prop :=
  ∃ m i, Passes pass Moves Idles m i s o.answer o.state ∧ i ≤ 2

/-- The relation between the states of no two passes, for loops that answer when they move. -/
def Never (_ _ : σ) : Prop := False

variable {pass : σ → Outcome (Option β) σ} {Moves Idles : σ → σ → Prop} {s s' : σ} {b : β}
variable {m i : Nat}

/-- Idle passes use something up that no pass brings back. -/
theorem Passes.idle_le (h : Passes pass Moves Idles m i s b s') (stock : σ → Nat)
    (moved : ∀ s s', Moves s s' → stock s' ≤ stock s)
    (idled : ∀ s s', Idles s s' → stock s' < stock s) : i ≤ stock s := by
  induction h with
  | last => exact Nat.zero_le _
  | moves _ hmoved _ ih => exact Nat.le_trans ih (moved _ _ hmoved)
  | idles _ hidled _ ih => exact Nat.lt_of_le_of_lt ih (idled _ _ hidled)

/-- A loop with more passes than it needs answers what it comes to. -/
theorem Passes.loop (h : Passes pass Moves Idles m i s b s') {bound : Nat}
    (hbound : m + i < bound) :
    (Outcome.loop pass bound s).answer = some b ∧ (Outcome.loop pass bound s).state = s' := by
  induction h generalizing bound with
  | last answers =>
    obtain ⟨bound, rfl⟩ := Nat.exists_eq_add_of_lt hbound
    simp only [Outcome.loop, andThen_answer, andThen_state, answers, pure_answer, pure_state,
      and_self]
  | @moves s s' b m i again _ _ ih =>
    obtain _ | bound := bound
    · exact absurd hbound (Nat.not_lt_zero _)
    · simp only [Outcome.loop, andThen_answer, andThen_state, again]
      exact ih (by omega)
  | @idles s s' b m i again _ _ ih =>
    obtain _ | bound := bound
    · exact absurd hbound (Nat.not_lt_zero _)
    · simp only [Outcome.loop, andThen_answer, andThen_state, again]
      exact ih (by omega)

/-- A loop comes to an end if every pass that asks for another lowers a measure, which bounds the
    passes. -/
theorem exists_passes (I : σ → Prop) (measure : σ → Nat)
    (each : ∀ s, I s → (pass s).answer = none → I (pass s).state ∧
      measure (pass s).state < measure s ∧ (Moves s (pass s).state ∨ Idles s (pass s).state)) :
    ∀ s, I s → ∃ m i b s', Passes pass Moves Idles m i s b s' ∧ m + i ≤ measure s := by
  intro s
  induction hn : measure s using Nat.strongRecOn generalizing s with
  | _ n ih =>
    intro hs
    subst hn
    cases hb : (pass s).answer with
    | some b => exact ⟨0, 0, b, _, .last hb, Nat.zero_le _⟩
    | none =>
      obtain ⟨hkept, hless, hone⟩ := each s hs hb
      obtain ⟨m, i, b, s', hrest, hfew⟩ := ih _ hless _ rfl hkept
      rcases hone with hmoved | hidled
      · exact ⟨m + 1, i, b, s', .moves hb hmoved hrest, by omega⟩
      · exact ⟨m, i + 1, b, s', .idles hb hidled hrest, by omega⟩

/-- A loop with enough passes comes to an end, if every pass that asks for another lowers a
    measure, and uses up one of two things at most if it is idle. -/
theorem finishes_loop (I : σ → Prop) (measure stock : σ → Nat)
    (each : ∀ s, I s → (pass s).answer = none → I (pass s).state ∧
      measure (pass s).state < measure s ∧ (Moves s (pass s).state ∨ Idles s (pass s).state))
    (moved : ∀ s s', Moves s s' → stock s' ≤ stock s)
    (idled : ∀ s s', Idles s s' → stock s' < stock s) (hs : I s) (hstock : stock s ≤ 2)
    {bound : Nat} (hbound : measure s < bound) (default : β) :
    Finishes pass Moves Idles ((Outcome.loop pass bound s).map fun b => b.getD default) s := by
  obtain ⟨m, i, b, s', hpasses, hfew⟩ := exists_passes I measure each s hs
  obtain ⟨hanswer, hstate⟩ := hpasses.loop (Nat.lt_of_le_of_lt hfew hbound)
  refine ⟨m, i, ?_, Nat.le_trans (hpasses.idle_le stock moved idled) hstock⟩
  simp only [map_answer, map_state, hanswer, hstate, Option.getD_some]
  exact hpasses

end Conduit.Outcome

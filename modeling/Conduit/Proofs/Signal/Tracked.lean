/-
  Conduit/Proofs/Signal/Tracked.lean
  ==================================
  **What a session needs to know of its signal.**

  A session holds waits, keys and blocked threads; the signal knows them by tickets and
  names.  `Tracked` gives each signal its view of them: `Sound` ties the signal's books
  to the tickets and threads that are registered, and `asleepAs` tells under which waker
  a registered task sleeps, as long as it was not woken.

  `LawfulSignal` lists what each operation does to that view: which tickets and threads
  are registered after it, which moves of the counter it is, and that whoever else slept
  sleeps on or had its waker called (`Turn`).  Everything about sessions follows from
  these laws alone, so each signal has to be opened only once, to prove them.
-/
import Conduit.Proofs.Signal.Counter

namespace Conduit.Signal

/-- A signal's view of those who wait for it. -/
class Tracked (σ : Type) (ω τ : outParam Type) [Facilities σ ω] [Staged ω τ] where
  /-- The signal's books fit the registered tickets and threads.  No more tickets were given out
      than its age says. -/
  Sound (age : Nat) (tickets : List τ) (threads : List Thread) (s : σ) : Prop
  /-- Tickets have not come round at this age. -/
  Young (age : Nat) : Prop
  /-- No more waits are registered than the signal can count. -/
  Sparse (s : σ) : Prop
  /-- No thread is left that was roused and has not run. -/
  Rested (s : σ) : Prop
  /-- The waker under which a registered task sleeps. -/
  asleepAs (s : σ) (ticket : τ) : Option Waker
  /-- The wait that a key stands for, and the key of a wait. -/
  ofKey (key : WaitKey) : ω
  toKey (wait : ω) : WaitKey

section Turns

variable {σ ω τ : Type} [Facilities σ ω] [Staged ω τ] [Tracked σ ω τ]

/-- From one state of a signal to another: the moves of the counter, and whoever slept, but for
    the task that is busy itself, sleeps on or had its waker called. -/
structure Turn (s s' : σ) (effects : List Effect) (moves : List Move) (busy : Option τ) :
    Prop where
  counts : (countsOf s).Path moves (countsOf s')
  heard : ∀ t w, busy ≠ some t → Tracked.asleepAs s t = some w →
    Tracked.asleepAs s' t = some w ∨ .woken w ∈ effects

theorem Turn.refl (s : σ) (busy : Option τ) : Turn s s [] [] busy where
  counts := .nil _
  heard _ _ _ h := Or.inl h

theorem Turn.trans {s s' s'' : σ} {es es' : List Effect} {ms ms' : List Move} {busy : Option τ}
    (h : Turn s s' es ms busy) (h' : Turn s' s'' es' ms' busy) :
    Turn s s'' (es ++ es') (ms ++ ms') busy where
  counts := h.counts.append h'.counts
  heard t w hbusy hasleep := by
    rcases h.heard t w hbusy hasleep with hstill | hwoken
    · rcases h'.heard t w hbusy hstill with hstill' | hwoken'
      · exact Or.inl hstill'
      · exact Or.inr (List.mem_append.mpr (Or.inr hwoken'))
    · exact Or.inr (List.mem_append.mpr (Or.inl hwoken))

end Turns

open Tracked Staged in
/-- What the operations of a signal do to its view of those who wait. -/
class LawfulSignal (σ : Type) (ω τ : outParam Type) [Facilities σ ω] [Staged ω τ]
    [Tracked σ ω τ] : Prop where
  young_of_le {age age' : Nat} (h : age ≤ age') (young : Young σ age') : Young σ age
  sparse_of_few {s : σ} (few : AutoReset.registeredWaits s < 2147483648) : Sparse s
  new (observer : Observer) : Sound 0 [] [] (AutoReset.new observer : σ)
  new_counts (observer : Observer) : countsOf (AutoReset.new observer : σ) = ⟨0, 0⟩
  new_rested (observer : Observer) : Rested (AutoReset.new observer : σ)
  perm {age : Nat} {K K' : List τ} {T T' : List Thread} {s : σ} (hK : K.Perm K') (hT : T.Perm T')
    (h : Sound age K T s) : Sound age K' T' s
  older {age : Nat} {K : List τ} {T : List Thread} {s : σ} (h : Sound age K T s) :
    Sound (age + 1) K T s
  distinct {age : Nat} {K : List τ} {T : List Thread} {s : σ} (h : Sound age K T s)
    (young : Young σ age) : K.Nodup
  registered {age : Nat} {K : List τ} {T : List Thread} {s : σ} (h : Sound age K T s) :
    AutoReset.registeredWaits s = K.length + T.length
  awake {age : Nat} {K : List τ} {T : List Thread} {s : σ} (h : Sound age K T s)
    (young : Young σ age) (rested : Rested s) (pending : 0 < AutoReset.pendingReleases s)
    (registered : 0 < AutoReset.registeredWaits s) : ∃ t ∈ K, asleepAs s t = none
  set {age : Nat} {K : List τ} {T : List Thread} {s : σ} (h : Sound age K T s)
    (sparse : Sparse s) :
    let o := AutoReset.set s
    Sound age K T o.state ∧ Turn s o.state o.effects [.set] none
  tryWait {age : Nat} {K : List τ} {T : List Thread} {s : σ} (h : Sound age K T s) :
    let o := AutoReset.tryWait s
    Sound age K T o.state ∧ Turn s o.state o.effects (if o.answer then [.take] else []) none
  wait_idle : stage (AutoReset.wait σ) = Stage.idle
  poll_idle {age : Nat} {K : List τ} {T : List Thread} {s : σ} {wait : ω} (w : Waker)
    (hwait : stage wait = .idle) (h : Sound age K T s) (sparse : Sparse s) :
    let o := AutoReset.poll w wait s
    (o.answer.1 = true ∧ (stage o.answer.2).ticket? = none ∧
      Sound (age + 1) K T o.state ∧ Turn s o.state o.effects [.take] none) ∨
    (o.answer.1 = false ∧ ∃ t, stage o.answer.2 = .registered t ∧
      Sound (age + 1) (t :: K) T o.state ∧ Turn s o.state o.effects [.join] none ∧
      (Young σ age → asleepAs o.state t = some w))
  poll_registered {age : Nat} {K : List τ} {T : List Thread} {s : σ} {wait : ω} {t : τ}
    (w : Waker) (hwait : stage wait = .registered t) (h : Sound age (t :: K) T s) :
    let o := AutoReset.poll w wait s
    (o.answer.1 = true ∧ (stage o.answer.2).ticket? = none ∧
      Sound (age + 1) K T o.state ∧ Turn s o.state o.effects [.resolve] (some t)) ∨
    (o.answer.1 = false ∧ stage o.answer.2 = .registered t ∧
      Sound (age + 1) (t :: K) T o.state ∧ Turn s o.state o.effects [] (some t) ∧
      asleepAs o.state t = some w)
  poll_over {s : σ} {wait : ω} (w : Waker) (hwait : stage wait = Stage.spent) :
    AutoReset.poll w wait s = .pure (true, wait) s
  drop_registered {age : Nat} {K : List τ} {T : List Thread} {s : σ} {wait : ω} {t : τ}
    (hwait : stage wait = .registered t) (h : Sound age (t :: K) T s) :
    let o := AutoReset.drop wait s
    Sound age K T o.state ∧ Turn s o.state o.effects [.withdraw] (some t)
  drop_other {s : σ} {wait : ω} (hwait : (stage wait).ticket? = none) :
    AutoReset.drop wait s = .pure () s
  block {block : Thread → σ → Outcome Bool σ} (hoffered : Facilities.block? = some block)
    {age : Nat} {K : List τ} {T : List Thread} {s : σ} (id : Thread) (h : Sound age K T s)
    (sparse : Sparse s) :
    let o := block id s
    (o.answer = true ∧ Sound age K T o.state ∧ Turn s o.state o.effects [.take] none) ∨
    (o.answer = false ∧ Sound age K (id :: T) o.state ∧ Turn s o.state o.effects [.join] none)
  expire {expire : σ → Outcome Bool σ}
    (hoffered : Facilities.expire? = some expire ∨ Facilities.pastDeadline? = some expire)
    {age : Nat} {K : List τ} {T : List Thread} {s : σ} (h : Sound age K T s)
    (sparse : Sparse s) :
    let o := expire s
    Sound age K T o.state ∧
      Turn s o.state o.effects (if o.answer then [.take] else [.join, .withdraw]) none
  timeUp {timeUp : Thread → σ → Outcome Bool σ} (hoffered : Facilities.timeUp? = some timeUp)
    {age : Nat} {K : List τ} {T : List Thread} {s : σ} {id : Thread}
    (h : Sound age K (id :: T) s) (rested : Rested s) :
    let o := timeUp id s
    Sound age K T o.state ∧
      Turn s o.state o.effects (if o.answer then [.resolve] else [.withdraw]) none
  settle {age : Nat} {K : List τ} {T : List Thread} {s : σ} (h : Sound age K T s) :
    let o := Facilities.settle s
    ∃ T', T.Perm (o.answer ++ T') ∧ Sound age K T' o.state ∧ Rested o.state ∧
      Turn s o.state o.effects (List.replicate o.answer.length .resolve) none
  key_stage {pollKey : Waker → WaitKey → σ → Outcome (Bool × WaitKey) σ}
    (hoffered : Facilities.pollKey? = some pollKey) :
    ∃ f : UInt64 → τ, ∀ key : WaitKey, stage (ofKey σ key) = (stage key).map f
  ofKey_toKey {pollKey : Waker → WaitKey → σ → Outcome (Bool × WaitKey) σ}
    (hoffered : Facilities.pollKey? = some pollKey) (wait : ω) :
    ofKey σ (toKey (σ := σ) wait) = wait
  pollKey {pollKey : Waker → WaitKey → σ → Outcome (Bool × WaitKey) σ}
    (hoffered : Facilities.pollKey? = some pollKey) (w : Waker) (key : WaitKey) (s : σ) :
    pollKey w key s
      = (AutoReset.poll w (ofKey σ key) s).map fun r => (r.1, toKey (σ := σ) r.2)
  cancelKey {cancelKey : WaitKey → σ → Outcome Unit σ}
    (hoffered : Facilities.cancelKey? = some cancelKey) (key : WaitKey) (s : σ) :
    cancelKey key s = AutoReset.drop (ofKey σ key) s

end Conduit.Signal

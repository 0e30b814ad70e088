/-
  Conduit/Proofs/Signal/Runs.lean
  ===============================
  **A whole run is a path of the counter.**

  After a request the roused threads run, and each of them that returns has taken a
  release.  So a step is the moves of its request and one `resolve` for every thread
  that returned, the signal fits the session again, and nobody is left roused.  A run
  is one step after another.
-/
import Conduit.Proofs.Signal.Answers
import Conduit.Proofs.Signal.Queue
import Conduit.Proofs.Signal.Slim
import Conduit.Proofs.Signal.Spin

namespace Conduit.Signal.Session

open Tracked Staged

variable {σ ω τ : Type} [Facilities σ ω] [Staged ω τ] [Tracked σ ω τ] [LawfulSignal σ ω τ]
variable {s : Session σ ω} {orphans : List τ} {age : Nat}

/-! ### Steps -/

/-- The threads that stay blocked are those that did not return. -/
theorem filter_returned {T T' returned : List Thread} (hT : T.Nodup)
    (hperm : T.Perm (returned ++ T')) :
    T'.Perm (T.filter fun t => ¬ returned.contains t) := by
  have hnodup := hperm.nodup_iff.mp hT
  rw [List.nodup_append] at hnodup
  obtain ⟨_, _, hapart⟩ := hnodup
  have hfilter := hperm.filter fun t => decide (¬ returned.contains t = true)
  have hgone : returned.filter (fun t => decide (¬ returned.contains t = true)) = [] := by
    rw [List.filter_eq_nil_iff]
    intro t ht
    simp [ht]
  have hkept : T'.filter (fun t => decide (¬ returned.contains t = true)) = T' := by
    rw [List.filter_eq_self]
    intro t ht
    have hout : t ∉ returned := fun hmem => hapart t hmem t ht rfl
    simp [hout]
  rw [List.filter_append, hgone, hkept, List.nil_append] at hfilter
  exact hfilter.symm

/-- Once roused threads have run, nobody is left roused, and nothing that is held has changed. -/
theorem settle_fits (hfits : Fits orphans age s) :
    let o := s.settle
    Fits orphans age o.state ∧ Rested o.state.signal ∧
      (∀ h, o.state.ticket? h = s.ticket? h) ∧
      Turn s.signal o.state.signal o.effects (List.replicate o.answer.length .resolve) none := by
  obtain ⟨T', hperm, hsound, hrested, hturn⟩ := LawfulSignal.settle hfits.sound
  have heffects : s.settle.effects = (Facilities.settle s.signal).effects := by
    simp only [settle, onSignal, Outcome.andThen, Outcome.lift, Outcome.pure, List.append_nil]
  have hlength : s.settle.answer.length = (Facilities.settle s.signal).answer.length :=
    List.length_mergeSort _
  intro o
  refine ⟨?_, hrested, fun h => by cases h <;> rfl, ?_⟩
  · exact
      { names := hfits.names
        key_names := hfits.key_names
        keyless := hfits.keyless
        threads := hfits.threads.filter _
        sound := LawfulSignal.perm (.refl _) (filter_returned hfits.threads hperm) hsound }
  · show Turn s.signal (Facilities.settle s.signal).state s.settle.effects
      (List.replicate s.settle.answer.length .resolve) none
    rw [heffects, hlength]
    exact hturn

theorem step_effects (s : Session σ ω) (r : Request) :
    (s.step r).effects = (s.request r).effects ++ (s.request r).state.settle.effects := rfl

/-- What a step keeps up: the signal fits the session, and nobody is left roused; and the moves
    that it makes. -/
theorem step_fits (hfits : Fits orphans age s) (rested : Rested s.signal)
    (sparse : Sparse s.signal) (r : Request) :
    Fits (s.orphaned r ++ orphans) (age + 1) (s.step r).state ∧
      Rested (s.step r).state.signal ∧
      (countsOf s.signal).Path (s.stepMoves r) (countsOf (s.step r).state.signal) := by
  have hanswered := request_answered hfits rested sparse r
  obtain ⟨hfits', hrested', _, hturn⟩ := settle_fits hanswered.fits
  refine ⟨hfits', hrested', ?_⟩
  exact hanswered.counts.append hturn.counts

/-! ### Runs -/

/-- The signal has room for its waits before each request and at the end. -/
def Roomy (s : Session σ ω) : List Request → Prop
  | [] => Sparse s.signal
  | r :: rs => Sparse s.signal ∧ Roomy (s.step r).state rs

theorem Uncrowded.roomy {rs : List Request} (h : s.Uncrowded rs) : s.Roomy rs := by
  induction rs generalizing s with
  | nil => exact LawfulSignal.sparse_of_few h
  | cons r rs ih => exact ⟨LawfulSignal.sparse_of_few h.1, ih h.2⟩

omit [LawfulSignal σ ω τ] in
/-- A signal that always has room has it along every run. -/
theorem roomy_of_sparse (h : ∀ s : σ, Sparse s) :
    ∀ (s : Session σ ω) (rs : List Request), s.Roomy rs
  | s, [] => h s.signal
  | s, r :: rs => ⟨h s.signal, roomy_of_sparse h (s.step r).state rs⟩

omit [LawfulSignal σ ω τ] in
theorem Roomy.last {rs : List Request} (h : s.Roomy rs) : Sparse (s.after rs).signal := by
  induction rs generalizing s with
  | nil => exact h
  | cons r rs ih => exact ih h.2

theorem new_fits (observer : Observer) :
    Fits [] 0 (Session.new observer : Session σ ω) where
  names := Named.distinct_nil
  key_names := Named.distinct_nil
  keyless _ := rfl
  threads := .nil
  sound := LawfulSignal.new observer

/-- A run keeps up what a step does. -/
theorem after_fits {rs : List Request} (hfits : Fits orphans age s) (rested : Rested s.signal)
    (hroom : s.Roomy rs) :
    (∃ orphans', Fits orphans' (age + rs.length) (s.after rs)) ∧
      Rested (s.after rs).signal ∧
      (countsOf s.signal).Path (s.runMoves rs) (countsOf (s.after rs).signal) := by
  induction rs generalizing s orphans age with
  | nil => exact ⟨⟨orphans, hfits⟩, rested, .nil _⟩
  | cons r rs ih =>
    obtain ⟨hfits', hrested', hcounts⟩ := step_fits hfits rested hroom.1 r
    obtain ⟨⟨orphans', hlast⟩, hrested'', hcounts'⟩ := ih hfits' hrested' hroom.2
    refine ⟨⟨orphans', ?_⟩, hrested'', hcounts.append hcounts'⟩
    rw [List.length_cons, ← Nat.add_assoc, Nat.add_right_comm]
    exact hlast

/-- A signal acts as the counter along a run: it starts at nothing, the run is a path of the
    counter, and in the state that it leads to every further request acts on the counts as its
    moves do; no more than one release is pending beyond the registered waits, and no more
    releases were taken than the signal was set. -/
structure ActsAsCounter (s : Session σ ω) (rs : List Request) : Prop where
  start : countsOf s.signal = ⟨0, 0⟩
  run : (countsOf s.signal).Path (s.runMoves rs) (countsOf (s.after rs).signal)
  next : ∀ r, (countsOf (s.after rs).signal).Path ((s.after rs).stepMoves r)
    (countsOf ((s.after rs).step r).state.signal)
  capped : AutoReset.pendingReleases (s.after rs).signal
    ≤ AutoReset.registeredWaits (s.after rs).signal + 1
  banked : AutoReset.registeredWaits (s.after rs).signal = 0 →
    AutoReset.pendingReleases (s.after rs).signal ≤ 1
  taken : Counts.taken (s.runMoves rs) + AutoReset.pendingReleases (s.after rs).signal
    ≤ (s.runMoves rs).count .set

theorem acts_as_counter (observer : Observer) {rs : List Request}
    (hroom : (Session.new observer : Session σ ω).Roomy rs) :
    (Session.new observer : Session σ ω).ActsAsCounter rs := by
  have hstart : countsOf (Session.new observer : Session σ ω).signal = ⟨0, 0⟩ :=
    LawfulSignal.new_counts observer
  obtain ⟨⟨orphans, hfits⟩, hrested, hrun⟩ :=
    after_fits (new_fits observer) (LawfulSignal.new_rested observer) hroom
  have hcapped : (countsOf ((Session.new observer : Session σ ω).after rs).signal).Capped :=
    hrun.capped (by rw [hstart]; exact Nat.zero_le _)
  refine ⟨hstart, hrun, fun r => (step_fits hfits hrested hroom.last r).2.2, hcapped, ?_, ?_⟩
  · intro hnone
    have hle : AutoReset.pendingReleases ((Session.new observer : Session σ ω).after rs).signal
        ≤ AutoReset.registeredWaits ((Session.new observer : Session σ ω).after rs).signal + 1 :=
      hcapped
    omega
  · have hbalance := hrun.balance
    rw [hstart, Nat.zero_add] at hbalance
    exact hbalance

/-- Every signal acts as the counter, along every run in which fewer than 2^31 waits are registered
    at once. -/
theorem signals_act_as_counter (observer : Observer) (rs : List Request) :
    ((Session.new observer : Session Queue Queue.Wait).Uncrowded rs →
      (Session.new observer : Session Queue Queue.Wait).ActsAsCounter rs) ∧
    ((Session.new observer : Session Spin Spin.Wait).Uncrowded rs →
      (Session.new observer : Session Spin Spin.Wait).ActsAsCounter rs) ∧
    ((Session.new observer : Session Slim Slim.Wait).Uncrowded rs →
      (Session.new observer : Session Slim Slim.Wait).ActsAsCounter rs) :=
  ⟨fun h => acts_as_counter observer h.roomy, fun h => acts_as_counter observer h.roomy,
    fun h => acts_as_counter observer h.roomy⟩

/-- A waiter that is released past a barging caller, and one that gives up. -/
theorem signals_act_as_counter_barging :
    (Session.new .quiet : Session Queue Queue.Wait).ActsAsCounter
        [.wait "a", .poll "a" 1, .set, .tryWait, .set, .poll "a" 2, .set, .drop "a"] ∧
    (Session.new .quiet : Session Spin Spin.Wait).ActsAsCounter
        [.wait "a", .poll "a" 1, .set, .tryWait, .set, .poll "a" 2, .set, .drop "a"] ∧
    (Session.new .quiet : Session Slim Slim.Wait).ActsAsCounter
        [.wait "a", .poll "a" 1, .set, .tryWait, .set, .poll "a" 2, .set, .drop "a"] := by
  obtain ⟨hqueue, hspin, hslim⟩ := signals_act_as_counter .quiet
    [.wait "a", .poll "a" 1, .set, .tryWait, .set, .poll "a" 2, .set, .drop "a"]
  exact ⟨hqueue (by decide), hspin (by decide), hslim (by decide)⟩

end Conduit.Signal.Session

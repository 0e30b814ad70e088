/-
  Conduit/Proofs/Ring/Sides.lean
  ==============================
  **What one end does to the other.**

  Whatever an end does, it leaves the other end's flag alone, and a task that sleeps in the
  other end's signal sleeps on or has its waker called.  Nothing is assumed of the channel
  here; when the task must be woken is the business of the guards.
-/
import Conduit.Ring.Channel

namespace Conduit.Ring

open Signal (Slim WaitKey)

/-- An operation with these effects leaves a flag alone, and wakes the tasks that it takes out of
    a signal. -/
structure Spares (flag : Channel → Bool) (signal : Channel → Slim) (c : Channel)
    (effects : List Effect) (c' : Channel) : Prop where
  flag : flag c' = flag c
  heeds : ∀ t ∈ (signal c).tasks, t ∈ (signal c').tasks ∨ .woken t.2 ∈ effects

/-- What the writer's end may do to the reader's. -/
abbrev ByWriter := Spares Channel.readerClosed Channel.dataReady

/-- What the reader's end may do to the writer's. -/
abbrev ByReader := Spares Channel.writerClosed Channel.spaceReady

namespace Spares

variable {flag : Channel → Bool} {signal : Channel → Slim} {c c' c'' : Channel}
  {effects effects' : List Effect}

theorem same (h : flag c' = flag c ∧ signal c' = signal c) :
    Spares flag signal c effects c' := by
  refine ⟨h.1, ?_⟩
  intro t ht
  left
  rw [h.2]
  exact ht

theorem trans (h : Spares flag signal c effects c') (h' : Spares flag signal c' effects' c'') :
    Spares flag signal c (effects ++ effects') c'' := by
  refine ⟨h'.flag.trans h.flag, ?_⟩
  intro t ht
  rcases h.heeds t ht with hstill | hwoken
  · rcases h'.heeds t hstill with hstill' | hwoken'
    · exact Or.inl hstill'
    · exact Or.inr (List.mem_append_right _ hwoken')
  · exact Or.inr (List.mem_append_left _ hwoken)

/-- Nothing more is done. -/
theorem finish (h : Spares flag signal c effects c') :
    Spares flag signal c (effects ++ []) c' := by
  rw [List.append_nil]
  exact h

/-- A loop spares what each of its passes spares. -/
theorem loop {σ β : Type} (view : σ → Channel) {pass : σ → Outcome (Option β) σ}
    (each : ∀ s, Spares flag signal (view s) (pass s).effects (view (pass s).state)) (bound : Nat)
    (s : σ) : Spares flag signal (view s) (Outcome.loop pass bound s).effects
      (view (Outcome.loop pass bound s).state) := by
  apply Outcome.loop_along (R := fun s es s' => Spares flag signal (view s) es (view s'))
  · intro s
    exact same ⟨rfl, rfl⟩
  · intro s es s' es' s'' h h'
    exact h.trans h'
  · exact each

end Spares

theorem set_heeds (s : Slim) :
    ∀ t ∈ s.tasks, t ∈ s.set.state.tasks ∨ .woken t.2 ∈ s.set.effects := by
  intro t ht
  simp only [Slim.set, Slim.wakeOne]
  split
  · split
    · rename_i k w tasks htasks
      have hmem : t ∈ (k, w) :: tasks := htasks ▸ ht
      rcases List.mem_cons.mp hmem with rfl | hrest
      · exact Or.inr (List.mem_singleton_self _)
      · exact Or.inl hrest
    · exact Or.inl ht
    · exact Or.inl ht
  · exact Or.inl ht

/-- An end that waits changes its own signal alone. -/
theorem onSpace_spares {α : Type} (c : Channel) (o : Outcome α Slim) :
    ByWriter c (c.onSpace o).effects (c.onSpace o).state := Spares.same ⟨rfl, rfl⟩

theorem onData_spares {α : Type} (c : Channel) (o : Outcome α Slim) :
    ByReader c (c.onData o).effects (c.onData o).state := Spares.same ⟨rfl, rfl⟩

/-! ### The writer's end -/

theorem tryWrite_spares (c : Channel) (src : List UInt8) :
    ByWriter c (c.tryWrite src).effects (c.tryWrite src).state := by
  rw [Channel.tryWrite]
  split
  · exact Spares.same ⟨rfl, rfl⟩
  · exact ⟨rfl, set_heeds c.dataReady⟩

theorem offer_spares (c : Channel) (src : List UInt8) :
    ByWriter c (c.offer src).effects (c.offer src).state := by
  rw [Channel.offer]
  split
  · exact Spares.same ⟨rfl, rfl⟩
  · exact tryWrite_spares c src

theorem closeWriter_spares (c : Channel) :
    ByWriter c c.closeWriter.effects c.closeWriter.state := by
  rw [Channel.closeWriter]
  split
  · exact Spares.same ⟨rfl, rfl⟩
  · exact ⟨rfl, set_heeds c.dataReady⟩

theorem writePass_spares (w : Waker) (src : List UInt8) (s : Keyed) :
    ByWriter s.1 (writePass w src s).effects (writePass w src s).state.1 := by
  rw [writePass]
  split
  · exact Spares.same ⟨rfl, rfl⟩
  · simp only [Outcome.andThen_effects, Outcome.andThen_state]
    refine (tryWrite_spares s.1 src).trans ?_
    split
    · exact Spares.same ⟨rfl, rfl⟩
    · simp only [Outcome.andThen_state]
      split
      · exact Spares.same ⟨rfl, rfl⟩
      · exact Spares.same ⟨rfl, rfl⟩

theorem pollWrite_spares (w : Waker) (src : List UInt8) (s : Keyed) :
    ByWriter s.1 (pollWrite w src s).effects (pollWrite w src s).state.1 := by
  rw [pollWrite]
  split
  · exact Spares.same ⟨rfl, rfl⟩
  · split
    · exact Spares.same ⟨rfl, rfl⟩
    · exact Spares.loop Prod.fst (writePass_spares w src) _ s

theorem writeAllPass_spares (w : Waker) (data : List UInt8) (s : Writing) :
    ByWriter s.1.1 (writeAllPass w data s).effects (writeAllPass w data s).state.1.1 := by
  rw [writeAllPass]
  split
  · exact Spares.same ⟨rfl, rfl⟩
  · simp only [Outcome.andThen_effects, Outcome.andThen_state]
    refine (pollWrite_spares w (data.drop s.2) s.1).trans ?_
    split
    · exact Spares.same ⟨rfl, rfl⟩
    · exact Spares.same ⟨rfl, rfl⟩
    · exact Spares.same ⟨rfl, rfl⟩

theorem pollWriteAll_spares (w : Waker) (data : List UInt8) (s : Writing) :
    ByWriter s.1.1 (pollWriteAll w data s).effects (pollWriteAll w data s).state.1.1 :=
  Spares.loop (fun s : Writing => s.1.1) (writeAllPass_spares w data) _ s

theorem blockingWritePass_spares (mode : WriteMode) (data : List UInt8) (s : Committing) :
    ByWriter s.1 (blockingWritePass mode data s).effects
      (blockingWritePass mode data s).state.1 := by
  rw [blockingWritePass]
  split
  · exact Spares.same ⟨rfl, rfl⟩
  · split
    · exact Spares.same ⟨rfl, rfl⟩
    · simp only [Outcome.andThen_effects, Outcome.andThen_state]
      refine (tryWrite_spares s.1 (data.drop s.2)).trans ?_
      split
      · exact Spares.same ⟨rfl, rfl⟩
      · exact Spares.same ⟨rfl, rfl⟩

theorem blockingWrite_spares (mode : WriteMode) (data : List UInt8) (s : Committing) :
    ByWriter s.1 (blockingWrite mode data s).effects (blockingWrite mode data s).state.1 :=
  Spares.loop Prod.fst (blockingWritePass_spares mode data) _ s

theorem resumeWrite_spares (mode : WriteMode) (data : List UInt8) (s : Committing) :
    ByWriter s.1 (resumeWrite mode data s).effects (resumeWrite mode data s).state.1 := by
  simp only [resumeWrite, Outcome.andThen_effects, Outcome.andThen_state]
  refine (onSpace_spares s.1 _).trans ?_
  split
  · exact blockingWrite_spares mode data (_, s.2)
  · exact Spares.same ⟨rfl, rfl⟩

/-! ### The reader's end -/

theorem tryRead_spares (c : Channel) (limit : Nat) :
    ByReader c (c.tryRead limit).effects (c.tryRead limit).state := by
  rw [Channel.tryRead]
  split
  · exact Spares.same ⟨rfl, rfl⟩
  · exact ⟨rfl, set_heeds c.spaceReady⟩

theorem closeReader_spares (c : Channel) :
    ByReader c c.closeReader.effects c.closeReader.state := by
  rw [Channel.closeReader]
  split
  · exact Spares.same ⟨rfl, rfl⟩
  · exact ⟨rfl, set_heeds c.spaceReady⟩

theorem readPass_spares (w : Waker) (limit : Nat) (s : Keyed) :
    ByReader s.1 (readPass w limit s).effects (readPass w limit s).state.1 := by
  simp only [readPass, Outcome.andThen_effects, Outcome.andThen_state]
  refine (tryRead_spares s.1 limit).trans ?_
  split
  · exact Spares.same ⟨rfl, rfl⟩
  · simp only [Outcome.andThen_state]
    split
    · exact Spares.same ⟨rfl, rfl⟩
    · exact Spares.same ⟨rfl, rfl⟩

theorem pollRead_spares (w : Waker) (limit : Nat) (s : Keyed) :
    ByReader s.1 (pollRead w limit s).effects (pollRead w limit s).state.1 := by
  rw [pollRead]
  split
  · exact Spares.same ⟨rfl, rfl⟩
  · exact Spares.loop Prod.fst (readPass_spares w limit) _ s

theorem blockingReadPass_spares (limit : Nat) (c : Channel) :
    ByReader c (blockingReadPass limit c).effects (blockingReadPass limit c).state := by
  simp only [blockingReadPass, Outcome.andThen_effects, Outcome.andThen_state]
  refine (tryRead_spares c limit).trans ?_
  split
  · exact Spares.same ⟨rfl, rfl⟩
  · exact Spares.same ⟨rfl, rfl⟩

theorem blockingRead_spares (limit : Nat) (c : Channel) :
    ByReader c (blockingRead limit c).effects (blockingRead limit c).state := by
  rw [blockingRead]
  split
  · exact Spares.same ⟨rfl, rfl⟩
  · exact Spares.loop id (blockingReadPass_spares limit) _ c

theorem timedReadPass_spares (limit : Nat) (c : Channel) :
    ByReader c (timedReadPass limit c).effects (timedReadPass limit c).state := by
  simp only [timedReadPass, Outcome.andThen_effects, Outcome.andThen_state]
  refine (tryRead_spares c limit).trans ?_
  split
  · exact Spares.same ⟨rfl, rfl⟩
  · exact Spares.same ⟨rfl, rfl⟩

theorem timedRead_spares (limit : Nat) (c : Channel) :
    ByReader c (timedRead limit c).effects (timedRead limit c).state := by
  rw [timedRead]
  split
  · exact Spares.same ⟨rfl, rfl⟩
  · exact Spares.loop id (timedReadPass_spares limit) _ c

theorem resumeRead_spares (limit : Nat) (c : Channel) :
    ByReader c (resumeRead limit c).effects (resumeRead limit c).state := by
  simp only [resumeRead, Outcome.andThen_effects, Outcome.andThen_state]
  refine (onData_spares c _).trans ?_
  split
  · exact blockingRead_spares limit _
  · exact Spares.same ⟨rfl, rfl⟩

theorem timeUpRead_spares (limit : Nat) (c : Channel) :
    ByReader c (timeUpRead limit c).effects (timeUpRead limit c).state := by
  simp only [timeUpRead, Outcome.andThen_effects, Outcome.andThen_state]
  refine (onData_spares c _).trans ?_
  generalize (c.onData (c.dataReady.timeUp (threadOf .reader))).state = c'
  split
  · exact timedRead_spares limit c'
  · simp only [Outcome.andThen_effects, Outcome.andThen_state]
    refine (tryRead_spares c' limit).trans ?_
    split
    · exact Spares.same ⟨rfl, rfl⟩
    · exact Spares.same ⟨rfl, rfl⟩

end Conduit.Ring

/-
  Conduit/Proofs/Ring/Stalls.lean
  ===============================
  **What the calls of a ring report.**

  A poll reports a stall after it has registered, so it reports one just if it is pending.
  A blocking call reports before it waits, and the signal may let it through at once, since
  a release can be left over from an earlier transfer; it finds the ring as it was, reports
  again, and sleeps.  So a call that sleeps has reported once, and once more for each
  release that was left over; a call that does not sleep has reported nothing, since a left
  over release brings no byte and no room.

  Three loops are built like that (`Stalling`), and the argument is made once for them.
-/
import Conduit.Proofs.Ring.PushPull

namespace Conduit.Ring

open Signal (Slim WaitKey)

/-! ### Reports -/

/-- The stalls among some effects, each with the observer that is told. -/
def stallsOf (es : List Effect) : List (Observer × Side) :=
  es.filterMap fun
    | .reported o (.stalled side) => some (o, side)
    | _ => none

@[simp] theorem stallsOf_nil : stallsOf [] = [] := rfl

@[simp] theorem stallsOf_append (es es' : List Effect) :
    stallsOf (es ++ es') = stallsOf es ++ stallsOf es' := List.filterMap_append

/-- An operation keeps the observer, and tells it so many times that a side stalls. -/
structure Tells (side : Side) (n : Nat) (c : Channel) (es : List Effect) (c' : Channel) : Prop where
  observer : c'.observer = c.observer
  stalls : stallsOf es = List.replicate n (c.observer, side)

namespace Tells

variable {side : Side} {n m : Nat} {c c' c'' : Channel} {es es' : List Effect}

theorem trans (h : Tells side n c es c') (h' : Tells side m c' es' c'') :
    Tells side (n + m) c (es ++ es') c'' := by
  refine ⟨h'.observer.trans h.observer, ?_⟩
  rw [stallsOf_append, h.stalls, h'.stalls, h.observer, List.replicate_append_replicate]

/-- Nothing more is done. -/
theorem finish (h : Tells side n c es c') : Tells side n c (es ++ []) c' := by
  rw [List.append_nil]
  exact h

theorem after_quiet (h : Tells side 0 c es c') (h' : Tells side n c' es' c'') :
    Tells side n c (es ++ es') c'' := by
  have htrans := h.trans h'
  rw [Nat.zero_add] at htrans
  exact htrans

end Tells

/-! ### Signals report no stalls -/

theorem wakeOne_quiet (s : Slim) : stallsOf s.wakeOne.effects = [] := by
  unfold Slim.wakeOne
  split <;> rfl

theorem set_quiet (s : Slim) : stallsOf s.set.effects = [] := by
  unfold Slim.set
  split
  · exact wakeOne_quiet _
  · rfl

theorem tryWait_quiet (s : Slim) : stallsOf s.tryWait.effects = [] := by
  unfold Slim.tryWait
  split
  · rfl
  · rfl
  · exact wakeOne_quiet _

theorem withdraw_quiet (key : WaitKey) (s : Slim) : stallsOf (s.withdraw key).effects = [] := by
  simp only [Slim.withdraw]
  split
  · rfl
  · split
    · exact wakeOne_quiet _
    · rfl

theorem register_quiet (w : Waker) (key : WaitKey) (s : Slim) :
    stallsOf (s.register w key).effects = [] := by
  unfold Slim.register
  split
  · rfl
  · split <;> rfl

theorem pollWait_quiet (w : Waker) (key : WaitKey) (s : Slim) :
    stallsOf (s.pollWait w key).effects = [] := by
  simp only [Slim.pollWait, Outcome.andThen_effects, stallsOf_append, tryWait_quiet]
  split
  · exact withdraw_quiet key _
  · exact register_quiet w key _

theorem block_quiet (t : Thread) (s : Slim) : stallsOf (s.block t).effects = [] := by
  simp only [Slim.block, Outcome.andThen_effects, stallsOf_append, tryWait_quiet]
  split <;> rfl

theorem expire_quiet (s : Slim) : stallsOf s.expire.effects = [] := by
  simp only [Slim.expire, Outcome.andThen_effects, stallsOf_append, tryWait_quiet]
  split <;> rfl

theorem timeUp_quiet (t : Thread) (s : Slim) : stallsOf (s.timeUp t).effects = [] := by
  simp only [Slim.timeUp, Outcome.andThen_effects, stallsOf_append, tryWait_quiet]
  split <;> rfl

theorem resume_quiet (s : Slim) : stallsOf s.resume.effects = [] := by
  unfold Slim.resume
  split
  · rfl
  · simp only [Outcome.andThen_effects, stallsOf_append, tryWait_quiet]
    split <;> rfl

/-! ### Single operations -/

namespace Channel

variable {α : Type} (side : Side) (c : Channel)

theorem onData_tells {o : Outcome α Slim} (hquiet : stallsOf o.effects = []) :
    Tells side 0 c (c.onData o).effects (c.onData o).state := ⟨rfl, hquiet⟩

theorem onSpace_tells {o : Outcome α Slim} (hquiet : stallsOf o.effects = []) :
    Tells side 0 c (c.onSpace o).effects (c.onSpace o).state := ⟨rfl, hquiet⟩

theorem stall_tells : Tells side 1 c (c.stall side).effects c := ⟨rfl, rfl⟩

theorem tryWrite_tells (src : List UInt8) :
    Tells side 0 c (c.tryWrite src).effects (c.tryWrite src).state := by
  rw [tryWrite]
  split
  · exact ⟨rfl, rfl⟩
  · exact ⟨rfl, set_quiet _⟩

theorem offer_tells (src : List UInt8) :
    Tells side 0 c (c.offer src).effects (c.offer src).state := by
  rw [offer]
  split
  · exact ⟨rfl, rfl⟩
  · exact c.tryWrite_tells side src

theorem tryRead_tells (limit : Nat) :
    Tells side 0 c (c.tryRead limit).effects (c.tryRead limit).state := by
  rw [tryRead]
  split
  · exact ⟨rfl, rfl⟩
  · exact ⟨rfl, set_quiet _⟩

theorem closeWriter_tells : Tells side 0 c c.closeWriter.effects c.closeWriter.state := by
  rw [closeWriter]
  split
  · exact ⟨rfl, rfl⟩
  · exact ⟨rfl, set_quiet _⟩

theorem closeReader_tells : Tells side 0 c c.closeReader.effects c.closeReader.state := by
  rw [closeReader]
  split
  · exact ⟨rfl, rfl⟩
  · exact ⟨rfl, set_quiet _⟩

theorem withdrawWriter_tells (key : WaitKey) :
    Tells side 0 c (c.withdrawWriter key).effects (c.withdrawWriter key).state :=
  ⟨rfl, withdraw_quiet key _⟩

theorem withdrawReader_tells (key : WaitKey) :
    Tells side 0 c (c.withdrawReader key).effects (c.withdrawReader key).state :=
  ⟨rfl, withdraw_quiet key _⟩

end Channel

/-! ### Loops that stall -/

/-- What one pass of a waiting loop may do: it gets on or ends, and reports nothing; or it is
    stuck, reports, and is let through by one of the releases that are left over, with nothing
    changed, or sleeps as none is left. -/
inductive Stalling {β σ : Type} (side : Side) (view : σ → Channel) (signal : σ → Slim)
    (Stuck : σ → Prop) (sleeps : β → Bool) (s : σ) (o : Outcome (Option β) σ) : Prop
  | goes_on (free : ¬ Stuck s) (again : o.answer = none) (kept : signal o.state = signal s)
      (tells : Tells side 0 (view s) o.effects (view o.state))
  | ends (free : ¬ Stuck s) (b : β) (answer : o.answer = some b) (awake : sleeps b = false)
      (tells : Tells side 0 (view s) o.effects (view o.state))
  | let_through (stuck : Stuck s) (again : o.answer = none) (still : Stuck o.state)
      (one : (signal s).pendingReleases = (signal o.state).pendingReleases + 1)
      (tells : Tells side 1 (view s) o.effects (view o.state))
  | falls_asleep (stuck : Stuck s) (b : β) (answer : o.answer = some b) (asleep : sleeps b = true)
      (none : (signal s).pendingReleases = 0)
      (tells : Tells side 1 (view s) o.effects (view o.state))

/-- How often a call has reported: not at all if it does not sleep, and else once, and once more
    for each release that was left over. -/
def reports (sleeps : Bool) (leftOver : Nat) : Nat := if sleeps then leftOver + 1 else 0

theorem reports_none (sleeps : Bool) : reports sleeps 0 = sleeps.toNat := by
  cases sleeps <;> rfl

/-- What a waiting loop that is over has done: it sleeps if it was stuck from the start, and has
    reported for every release that was left over. -/
structure Stalled {β σ : Type} (side : Side) (view : σ → Channel) (signal : σ → Slim)
    (Stuck : σ → Prop) (sleeps : β → Bool) (s : σ) (b : β) (es : List Effect) (s' : σ) :
    Prop where
  asleep : Stuck s → sleeps b = true
  tells : Tells side (reports (sleeps b) (signal s).pendingReleases) (view s) es (view s')

namespace Stalling

variable {β γ σ : Type} {side : Side} {view : σ → Channel} {signal : σ → Slim} {Stuck : σ → Prop}
  {sleeps : β → Bool} {s : σ}

/-- A pass may try something in vain first. -/
theorem after {o : Outcome γ Channel} {f : γ → Channel → Outcome (Option β) σ}
    (htried : Tells side 0 (view s) o.effects (view s))
    (h : Stalling side view signal Stuck sleeps s (f o.answer o.state)) :
    Stalling side view signal Stuck sleeps s (o.andThen f) := by
  cases h with
  | goes_on free again kept tells => exact .goes_on free again kept (htried.after_quiet tells)
  | ends free b answer awake tells => exact .ends free b answer awake (htried.after_quiet tells)
  | let_through stuck again still one tells =>
    exact .let_through stuck again still one (htried.after_quiet tells)
  | falls_asleep stuck b answer asleep none tells =>
    exact .falls_asleep stuck b answer asleep none (htried.after_quiet tells)

/-- A pass that is stuck reports, and waits in its signal. -/
theorem waits {o : Outcome Bool σ} {b : β} (hstuck : Stuck s) (hstill : Stuck o.state)
    (htells : Tells side 1 (view s) o.effects (view o.state))
    (htaken : o.answer = true →
      (signal s).pendingReleases = (signal o.state).pendingReleases + 1)
    (hnone : o.answer = false → (signal s).pendingReleases = 0) (hasleep : sleeps b = true) :
    Stalling side view signal Stuck sleeps s
      (o.map fun released => if released then none else some b) := by
  cases hreleased : o.answer with
  | true =>
    refine .let_through hstuck ?_ hstill (htaken hreleased) htells
    rw [Outcome.map_answer, hreleased, if_pos rfl]
  | false =>
    refine .falls_asleep hstuck b ?_ hasleep (hnone hreleased) htells
    rw [Outcome.map_answer, hreleased, if_neg Bool.false_ne_true]

/-- A pass that answers is a loop that is over. -/
theorem last {o : Outcome (Option β) σ} (h : Stalling side view signal Stuck sleeps s o) {b : β}
    (hanswer : o.answer = some b) :
    Stalled side view signal Stuck sleeps s b o.effects o.state := by
  cases h with
  | goes_on free again kept tells =>
    rw [again] at hanswer
    cases hanswer
  | ends free b' answer awake tells =>
    obtain rfl := Option.some.inj (answer.symm.trans hanswer)
    refine ⟨fun hstuck => absurd hstuck free, ?_⟩
    rw [awake]
    exact tells
  | let_through stuck again still one tells =>
    rw [again] at hanswer
    cases hanswer
  | falls_asleep stuck b' answer asleep none tells =>
    obtain rfl := Option.some.inj (answer.symm.trans hanswer)
    refine ⟨fun _ => asleep, ?_⟩
    rw [asleep, none]
    exact tells

/-- A pass that asks for another goes before the rest of the loop. -/
theorem before {o : Outcome (Option β) σ} (h : Stalling side view signal Stuck sleeps s o)
    (hnone : o.answer = none) {b : β} {es : List Effect} {s' : σ}
    (hrest : Stalled side view signal Stuck sleeps o.state b es s') :
    Stalled side view signal Stuck sleeps s b (o.effects ++ es) s' := by
  obtain ⟨hsleeps, hrest⟩ := hrest
  cases h with
  | goes_on free again kept tells =>
    refine ⟨fun hstuck => absurd hstuck free, ?_⟩
    rw [← kept]
    exact tells.after_quiet hrest
  | ends free b' answer awake tells =>
    rw [answer] at hnone
    cases hnone
  | let_through stuck again still one tells =>
    -- the rest is as stuck as before, so it will sleep, with one release less left over
    have hasleep := hsleeps still
    refine ⟨fun _ => hasleep, ?_⟩
    rw [hasleep] at hrest ⊢
    rw [one, reports, if_pos rfl, Nat.add_comm]
    exact tells.trans hrest
  | falls_asleep stuck b' answer asleep none tells =>
    rw [answer] at hnone
    cases hnone

end Stalling

/-- A loop of such passes sleeps if it is stuck from the start, and has reported as often as the
    signal let it through, and once more. -/
theorem stalling_loop {β σ : Type} {side : Side} {view : σ → Channel} {signal : σ → Slim}
    {Stuck : σ → Prop} {sleeps : β → Bool} {pass : σ → Outcome (Option β) σ} {I : σ → Prop}
    {m : σ → Nat}
    (each : ∀ s, I s → Stalling side view signal Stuck sleeps s (pass s))
    (again : ∀ s, I s → (pass s).answer = none → I (pass s).state ∧ m (pass s).state < m s)
    {bound : Nat} {s : σ} (hs : I s) (hbound : m s < bound) :
    ∃ b, (Outcome.loop pass bound s).answer = some b ∧
      Tells side (reports (sleeps b) (signal s).pendingReleases) (view s)
        (Outcome.loop pass bound s).effects (view (Outcome.loop pass bound s).state) := by
  obtain ⟨b, hanswer, hstalled⟩ := Outcome.loop_traces
    (Q := Stalled side view signal Stuck sleeps)
    (fun s b hs hb => (each s hs).last hb)
    (fun s hs hnone => by
      obtain ⟨hkept, hless⟩ := again s hs hnone
      exact ⟨hkept, hless, fun b es s' hrest => (each s hs).before hnone hrest⟩)
    bound s hs hbound
  exact ⟨b, hanswer, hstalled.tells⟩

/-! ### Waiting for a signal -/

/-- Nobody registered leaves one release at most. -/
theorem Attends.left_over {s : Slim} (h : Attends .nobody s) :
    s.pendingReleases = s.isSet.toNat := by
  cases h with
  | nobody hp =>
    rename_i word next observer p
    have hcapped := hp.capped
    show word.signaled.toNat + word.owed.toNat = word.signaled.toNat
    rw [hp.pending_eq, hp.signaled_eq]
    obtain rfl | rfl : p = 0 ∨ p = 1 := by omega
    · rfl
    · rfl

theorem Attends.taken_one {s s' : Slim} (h : Attends .nobody s)
    (hless : s'.pendingReleases < s.pendingReleases) :
    s.pendingReleases = s'.pendingReleases + 1 := by
  have hle := Bool.toNat_le s.isSet
  have heq := h.left_over
  omega

/-- Whoever finds nothing is owed nothing. -/
theorem Attends.tryWait_vain {s : Slim} (h : Attends .nobody s)
    (hnone : s.tryWait.answer = false) : s.pendingReleases = 0 := by
  cases h with
  | nobody hp =>
    rename_i word next observer p
    cases p with
    | zero => exact hp.pending_eq
    | succ p =>
      obtain ⟨word', _, htry⟩ := Attends.tryWait_quiet next [] observer hp
      rw [htry] at hnone
      cases hnone

/-- A wait that nobody else is registered beside: it takes the one release that is left over, or
    there is none. -/
structure LooksOnce (wait : Slim → Outcome Bool Slim) : Prop where
  quiet : ∀ s, stallsOf (wait s).effects = []
  taken : ∀ s, Attends .nobody s → (wait s).answer = true →
    s.pendingReleases = (wait s).state.pendingReleases + 1
  none : ∀ s, Attends .nobody s → (wait s).answer = false → s.pendingReleases = 0

theorem block_answer (t : Thread) (s : Slim) : (s.block t).answer = s.tryWait.answer := by
  rw [Slim.block, Outcome.andThen_answer]
  cases s.tryWait.answer <;> rfl

theorem expire_answer (s : Slim) : s.expire.answer = s.tryWait.answer := by
  rw [Slim.expire, Outcome.andThen_answer]
  cases s.tryWait.answer <;> rfl

theorem block_looksOnce (t : Thread) : LooksOnce (Slim.block t) where
  quiet := block_quiet t
  taken s h htaken := by
    rcases h.block t with ⟨_, _, hless⟩ | ⟨hfalse, _, _⟩
    · exact h.taken_one hless
    · rw [hfalse] at htaken
      cases htaken
  none s h hnone := h.tryWait_vain ((block_answer t s).symm.trans hnone)

theorem expire_looksOnce : LooksOnce Slim.expire where
  quiet := expire_quiet
  taken _ h htaken := h.taken_one (h.expire.2 htaken)
  none s h hnone := h.tryWait_vain ((expire_answer s).symm.trans hnone)

/-! ### Blocking and timed reads -/

open Channel (Guarded)

variable {writer reader : Occupant}

/-- A reader that finds nothing and may still expect something. -/
def Starved (c : Channel) : Prop := c.store.Empty ∧ c.writerClosed = false

theorem Starved.tryRead {c : Channel} (h : Starved c) (hsized : c.store.Sized) (limit : Nat) :
    (c.tryRead limit).answer = [] := by
  rw [Channel.tryRead_answer, ← List.length_eq_zero_iff, (hsized.tryRead limit).1, h.1,
    Nat.min_zero]

/-- One attempt to read, and a wait in the reader's signal if it is in vain. -/
theorem read_stalling {β : Type} {wait : Slim → Outcome Bool Slim} (hwait : LooksOnce wait)
    (returns : List UInt8 → β) (asleep : β) {sleeps : β → Bool}
    (hawake : ∀ bytes, sleeps (returns bytes) = false) (hasleep : sleeps asleep = true)
    {limit : Nat} (hsome : limit ≠ 0) {c : Channel} (h : Guarded writer .nobody c) :
    Stalling .reader id Channel.dataReady Starved sleeps c
      ((c.tryRead limit).andThen fun bytes c =>
        if ¬ bytes.isEmpty ∨ c.writerClosed then .pure (some (returns bytes)) c
        else (c.stall .reader).andThen fun _ c =>
          (c.onData (wait c.dataReady)).map fun released =>
            if released then none else some asleep) := by
  have htried := c.tryRead_tells .reader limit
  have hnone := (h.tryRead limit).2
  by_cases hends : ¬ (c.tryRead limit).answer.isEmpty ∨ (c.tryRead limit).state.writerClosed
  · have hfree : ¬ Starved c := by
      intro hstarved
      rw [hstarved.tryRead h.sized limit, Channel.tryRead_writerClosed, hstarved.2] at hends
      rcases hends with hbytes | hclosed
      · exact hbytes rfl
      · cases hclosed
    refine .ends hfree (returns (c.tryRead limit).answer) ?_ (hawake _) ?_
    · simp only [Outcome.andThen_answer, if_pos hends, Outcome.pure_answer]
    · simp only [Outcome.andThen_effects, Outcome.andThen_state, if_pos hends]
      exact htried.finish
  · rw [not_or, not_not, List.isEmpty_iff, Bool.not_eq_true] at hends
    obtain ⟨hsame, hempty⟩ := hnone hends.1
    rw [hsame] at hends htried
    have hstarved : Starved c := ⟨hempty hsome, hends.2⟩
    have hlooks : ¬ (¬ (c.tryRead limit).answer.isEmpty ∨ c.writerClosed) := by
      rw [hends.1, hends.2]
      decide
    refine .after htried ?_
    rw [hsame, if_neg hlooks]
    exact .waits (o := (c.stall .reader).andThen fun _ c => c.onData (wait c.dataReady))
      hstarved hstarved ((c.stall_tells .reader).trans (c.onData_tells .reader (hwait.quiet _)))
      (hwait.taken _ h.data) (hwait.none _ h.data) hasleep

/-- Whether a blocking call sleeps. -/
def Blocking.isAsleep {α : Type} : Blocking α → Bool
  | .returned _ => false
  | .asleep => true

theorem blockingReadPass_stalling {limit : Nat} (hsome : limit ≠ 0) {c : Channel}
    (h : Guarded writer .nobody c) :
    Stalling .reader id Channel.dataReady Starved Blocking.isAsleep c
      (blockingReadPass limit c) :=
  read_stalling (block_looksOnce (threadOf .reader)) Blocking.returned Blocking.asleep
    (fun _ => rfl) rfl hsome h

theorem blockingRead_tells (limit : Nat) {c : Channel} (h : Guarded writer .nobody c) :
    Tells .reader (reports (blockingRead limit c).answer.isAsleep c.dataReady.pendingReleases) c
      (blockingRead limit c).effects (blockingRead limit c).state := by
  rw [blockingRead]
  split
  · exact ⟨rfl, rfl⟩
  · rename_i hsome
    obtain ⟨b, hanswer, htells⟩ := stalling_loop
      (I := fun c => Guarded writer .nobody c) (m := fun c => c.dataReady.pendingReleases)
      (fun c hc => blockingReadPass_stalling hsome hc)
      (fun c hc hnone => by
        obtain ⟨hkept, _, _, hless⟩ := blockingReadPass_guarded hsome hc
        rw [hnone] at hkept
        exact ⟨hkept, hless hnone⟩)
      h (Nat.lt_succ_self c.dataReady.pendingReleases)
    rw [Outcome.map_answer, Outcome.map_state, Outcome.map_effects, hanswer]
    exact htells

/-- Whether a timed read went to sleep for the time it had. -/
def timesOut : Except ReadTimeout (List UInt8) → Bool
  | .ok _ => false
  | .error _ => true

theorem timedReadPass_stalling {limit : Nat} (hsome : limit ≠ 0) {c : Channel}
    (h : Guarded writer .nobody c) :
    Stalling .reader id Channel.dataReady Starved timesOut c (timedReadPass limit c) :=
  read_stalling expire_looksOnce Except.ok (Except.error ReadTimeout.timeout) (fun _ => rfl) rfl
    hsome h

/-- A timed read that looks again was let through. -/
theorem timedReadPass_again {limit : Nat} {c : Channel} (h : Guarded writer .nobody c)
    (hnone : (timedReadPass limit c).answer = none) :
    (timedReadPass limit c).state.dataReady.pendingReleases < c.dataReady.pendingReleases := by
  revert hnone
  have hsame := (h.tryRead limit).2
  simp only [timedReadPass, Outcome.andThen_answer, Outcome.andThen_state]
  by_cases hends : ¬ (c.tryRead limit).answer.isEmpty ∨ (c.tryRead limit).state.writerClosed
  · rw [if_pos hends]
    intro hnone
    cases hnone
  · rw [if_neg hends]
    rw [not_or, not_not, List.isEmpty_iff] at hends
    rw [(hsame hends.1).1]
    cases hreleased : c.dataReady.expire.answer with
    | true =>
      intro _
      exact h.data.expire.2 hreleased
    | false =>
      simp only [Outcome.andThen_answer, Outcome.map_answer, Channel.onData_answer,
        Channel.stall_state, hreleased]
      intro hnone
      cases hnone

theorem timedRead_tells (limit : Nat) {c : Channel} (h : Guarded writer .nobody c) :
    Tells .reader (reports (timesOut (timedRead limit c).answer) c.dataReady.pendingReleases) c
      (timedRead limit c).effects (timedRead limit c).state := by
  rw [timedRead]
  split
  · exact ⟨rfl, rfl⟩
  · rename_i hsome
    obtain ⟨b, hanswer, htells⟩ := stalling_loop
      (I := fun c => Guarded writer .nobody c) (m := fun c => c.dataReady.pendingReleases)
      (fun c hc => timedReadPass_stalling hsome hc)
      (fun c hc hnone => ⟨timedReadPass_guarded hsome hc, timedReadPass_again hc hnone⟩)
      h (Nat.lt_succ_self c.dataReady.pendingReleases)
    rw [Outcome.map_answer, Outcome.map_state, Outcome.map_effects, hanswer]
    exact htells

/-! ### Blocking writes -/

/-- A writer that has bytes left and no room for any, and may still expect some. -/
def Stuck (mode : WriteMode) (data : List UInt8) (s : Committing) : Prop :=
  mode.isOver s.2 data.length = false ∧ s.1.readerClosed = false ∧ s.1.store.Full

theorem left_of_isOver {mode : WriteMode} {written total : Nat}
    (h : mode.isOver written total = false) : written < total := by
  simp only [WriteMode.isOver, Bool.or_eq_false_iff, decide_eq_false_iff_not] at h
  exact Nat.lt_of_not_le h.1

theorem blockingWritePass_stalling (mode : WriteMode) (data : List UInt8) {s : Committing}
    (h : Guarded .nobody reader s.1) :
    Stalling .writer Prod.fst (fun s : Committing => s.1.spaceReady) (Stuck mode data)
      Blocking.isAsleep s (blockingWritePass mode data s) := by
  have htried := s.1.tryWrite_tells .writer (data.drop s.2)
  have hnone := (h.tryWrite (data.drop s.2)).2
  have hsignal := s.1.tryWrite_spaceReady (data.drop s.2)
  rw [blockingWritePass]
  by_cases hover : mode.isOver s.2 data.length
  · rw [if_pos hover]
    refine .ends ?_ _ rfl rfl ⟨rfl, rfl⟩
    rintro ⟨hleft, _, _⟩
    rw [hover] at hleft
    cases hleft
  · rw [if_neg hover]
    by_cases hclosed : s.1.readerClosed
    · rw [if_pos hclosed]
      refine .ends ?_ _ rfl rfl ⟨rfl, rfl⟩
      rintro ⟨_, hopen, _⟩
      rw [hclosed] at hopen
      cases hopen
    · rw [if_neg hclosed]
      rw [Bool.not_eq_true] at hover hclosed
      by_cases hpos : 0 < (s.1.tryWrite (data.drop s.2)).answer
      · refine .goes_on ?_ ?_ ?_ ?_
        · rintro ⟨_, _, hfull⟩
          rw [Channel.tryWrite_idle h.sized (Or.inr hfull)] at hpos
          exact Nat.lt_irrefl 0 hpos
        · simp only [Outcome.andThen_answer, if_pos hpos, Outcome.pure_answer]
        · simp only [Outcome.andThen_state, if_pos hpos]
          exact hsignal
        · simp only [Outcome.andThen_effects, Outcome.andThen_state, if_pos hpos]
          exact htried.finish
      · obtain ⟨hsame, hfull⟩ := hnone (by omega)
        rw [hsame] at htried
        have hstuck : Stuck mode data s := by
          refine ⟨hover, hclosed, hfull ?_⟩
          rw [Ne, List.drop_eq_nil_iff]
          exact Nat.not_le.mpr (left_of_isOver hover)
        refine .after htried ?_
        rw [hsame, if_neg hpos]
        exact .waits (o := (s.1.stall .writer).andThen fun _ c =>
            (c.onSpace (c.spaceReady.block (threadOf .writer))).lift fun c => (c, s.2))
          hstuck hstuck
          ((s.1.stall_tells .writer).trans (s.1.onSpace_tells .writer (block_quiet _ _)))
          ((block_looksOnce _).taken _ h.space) ((block_looksOnce _).none _ h.space) rfl

theorem blockingWrite_tells (mode : WriteMode) (data : List UInt8) {s : Committing}
    (h : Guarded .nobody reader s.1) :
    Tells .writer
      (reports (blockingWrite mode data s).answer.isAsleep s.1.spaceReady.pendingReleases) s.1
      (blockingWrite mode data s).effects (blockingWrite mode data s).state.1 := by
  obtain ⟨b, hanswer, htells⟩ := stalling_loop
    (I := fun s : Committing => Guarded .nobody reader s.1)
    (m := fun s => data.length - s.2 + s.1.spaceReady.pendingReleases)
    (fun s hs => blockingWritePass_stalling mode data hs)
    (fun s hs hnone => by
      obtain ⟨hkept, _, hless⟩ := blockingWritePass_guarded mode data hs
      rw [hnone] at hkept
      exact ⟨hkept, hless hnone⟩)
    h (Nat.lt_succ_self (data.length - s.2 + s.1.spaceReady.pendingReleases))
  rw [blockingWrite, Outcome.map_answer, Outcome.map_state, Outcome.map_effects, hanswer]
  exact htells

/-! ### Calls that go on -/

/-- A thread that was roused by one release has none left over when it looks again. -/
theorem Attends.resume_spent {t : Thread} {s : Slim} (h : Attends (.thread t) s)
    (hroused : s.roused ≠ []) (hone : s.pendingReleases ≤ 1) :
    s.resume.state.pendingReleases = 0 := by
  cases h with
  | asleep hp => exact absurd rfl hroused
  | roused hp =>
    rename_i word next observer p
    have hpending : p + 1 ≤ 1 := hp.pending_eq ▸ hone
    obtain rfl : p = 0 := by omega
    obtain ⟨word', hword', hresume⟩ := Attends.resume_alone t next observer hp
    rw [hresume]
    exact hword'.leave.pending_eq

/-- A read that goes on and sleeps again reports that once. -/
theorem resumeRead_tells (limit : Nat) {c : Channel}
    (h : Guarded writer (.thread (threadOf .reader)) c) (hroused : c.dataReady.roused ≠ [])
    (hone : c.dataReady.pendingReleases ≤ 1) :
    Tells .reader (resumeRead limit c).answer.isAsleep.toNat c (resumeRead limit c).effects
      (resumeRead limit c).state := by
  obtain ⟨hanswer, hdata⟩ := h.data.resume hroused
  have hfree := h.onData hdata fun hsleeps => absurd hsleeps hdata.not_sleeps_nobody
  have hread := blockingRead_tells limit hfree
  rw [show (c.onData c.dataReady.resume).state.dataReady.pendingReleases = 0 from
    h.data.resume_spent hroused hone, reports_none] at hread
  simp only [resumeRead, Outcome.andThen_answer, Outcome.andThen_state, Outcome.andThen_effects,
    Channel.onData_answer, hanswer, Option.isSome_some, if_true]
  exact (c.onData_tells .reader (resume_quiet c.dataReady)).after_quiet hread

theorem resumeWrite_tells (mode : WriteMode) (data : List UInt8) {s : Committing}
    (h : Guarded (.thread (threadOf .writer)) reader s.1) (hroused : s.1.spaceReady.roused ≠ [])
    (hone : s.1.spaceReady.pendingReleases ≤ 1) :
    Tells .writer (resumeWrite mode data s).answer.isAsleep.toNat s.1
      (resumeWrite mode data s).effects (resumeWrite mode data s).state.1 := by
  obtain ⟨hanswer, hspace⟩ := h.space.resume hroused
  have hfree := h.onSpace hspace fun hsleeps => absurd hsleeps hspace.not_sleeps_nobody
  have hwrite := blockingWrite_tells mode data (s := (_, s.2)) hfree
  rw [show (s.1.onSpace s.1.spaceReady.resume).state.spaceReady.pendingReleases = 0 from
    h.space.resume_spent hroused hone, reports_none] at hwrite
  simp only [resumeWrite, Outcome.andThen_answer, Outcome.andThen_state, Outcome.andThen_effects,
    Channel.onSpace_answer, hanswer, Option.isSome_some, if_true]
  exact (s.1.onSpace_tells .writer (resume_quiet s.1.spaceReady)).after_quiet hwrite

/-- A sleeping thread that nobody roused finds nothing when its time is over. -/
theorem Attends.timeUp_vain {t : Thread} {s : Slim} (h : Attends (.thread t) s)
    (hrested : s.roused = []) : (s.timeUp t).answer = false := by
  cases h with
  | asleep hp =>
    rename_i word next observer
    rcases Slim.timeUp_cases t (s := ⟨word, next, [], [t], [], observer⟩) hp with
      ⟨_, word', _, hcase⟩ | ⟨q, hq, _⟩
    · rw [hcase]
    · omega
  | roused hp => exact absurd hrested (List.cons_ne_nil _ _)

/-- A sleeping read whose time is over reports nothing more. -/
theorem timeUpRead_tells (limit : Nat) {c : Channel}
    (h : Guarded writer (.thread (threadOf .reader)) c) (hrested : c.dataReady.roused = []) :
    Tells .reader 0 c (timeUpRead limit c).effects (timeUpRead limit c).state := by
  have hwaited := c.onData_tells .reader (timeUp_quiet (threadOf .reader) c.dataReady)
  simp only [timeUpRead, Outcome.andThen_state, Outcome.andThen_effects]
  refine hwaited.after_quiet ?_
  rw [Channel.onData_answer, h.data.timeUp_vain hrested]
  generalize (c.onData (c.dataReady.timeUp (threadOf .reader))).state = c'
  simp only [Bool.false_eq_true, if_false, Outcome.andThen_state, Outcome.andThen_effects]
  have htried := c'.tryRead_tells .reader limit
  split
  · exact htried.finish
  · exact htried.finish

/-! ### Polls -/

/-- Whether a poll registered its task. -/
def Poll.isPending {α : Type} : Poll α → Bool
  | .ready _ => false
  | .pending => true

/-- What a poll has told when it is over, or with one pass done: a stall if its task is pending. -/
abbrev PollTells (side : Side) {α : Type} (c : Channel) (r : Option (Poll α)) (es : List Effect)
    (c' : Channel) : Prop :=
  Tells side (r.elim false Poll.isPending).toNat c es c'

theorem readPass_tells (w : Waker) (limit : Nat) (s : Keyed) :
    PollTells .reader s.1 (readPass w limit s).answer (readPass w limit s).effects
      (readPass w limit s).state.1 := by
  have htried := s.1.tryRead_tells .reader limit
  simp only [PollTells, readPass, Outcome.andThen_answer, Outcome.andThen_state,
    Outcome.andThen_effects]
  split
  · exact htried.after_quiet (Channel.withdrawReader_tells _ _ _)
  · simp only [Outcome.andThen_answer, Outcome.andThen_state, Outcome.andThen_effects]
    have hpolled := htried.after_quiet (Channel.onData_tells .reader (s.1.tryRead limit).state
      (pollWait_quiet w s.2 (s.1.tryRead limit).state.dataReady))
    split
    · rw [Outcome.pure_effects, List.append_nil]
      exact hpolled
    · rw [← List.append_assoc]
      exact hpolled.after_quiet (Channel.stall_tells _ _)

/-- A poll comes to an end, and tells what its last pass does. -/
theorem poll_tells {side : Side} {α : Type} {signal : Channel → Slim} {w : Waker}
    {pass : Keyed → Outcome (Option (Poll α)) Keyed} {G : Keyed → Prop}
    (each : ∀ s, G s → G (pass s).state ∧ PassLeaves signal w s (pass s).state (pass s).answer)
    (tells : ∀ s, PollTells side s.1 (pass s).answer (pass s).effects (pass s).state.1)
    {s : Keyed} (h : G s) {o : Outcome (Option (Poll α)) Keyed}
    (ho : o = Outcome.loop pass ((signal s.1).pendingReleases + 1) s) :
    Tells side (o.answer.getD .pending).isPending.toNat s.1 o.effects o.state.1 := by
  obtain ⟨r, hanswer, htells⟩ := Outcome.loop_traces (I := G)
    (Q := fun s (r : Poll α) es s' => Tells side r.isPending.toNat s.1 es s'.1)
    (m := fun s => (signal s.1).pendingReleases)
    (fun s r _ hr => by
      have hpass := tells s
      rw [hr] at hpass
      exact hpass)
    (fun s hs hnone => by
      obtain ⟨hkept, hless⟩ := each s hs
      have hpass := tells s
      rw [hnone] at hless hpass
      exact ⟨hkept, hless, fun _ _ _ hrest => hpass.after_quiet hrest⟩)
    ((signal s.1).pendingReleases + 1) s h (Nat.lt_succ_self _)
  rw [ho, hanswer]
  exact htells

theorem pollRead_tells (w : Waker) (limit : Nat) {s : Keyed}
    (h : Guarded writer (occupant s.2) s.1) :
    Tells .reader (pollRead w limit s).answer.isPending.toNat s.1 (pollRead w limit s).effects
      (pollRead w limit s).state.1 := by
  rw [pollRead]
  split
  · exact ⟨rfl, rfl⟩
  · rename_i hsome
    exact poll_tells (G := fun s => Guarded writer (occupant s.2) s.1)
      (fun s hs => readPass_guarded w hsome hs) (readPass_tells w limit) h rfl

theorem writePass_tells (w : Waker) (src : List UInt8) (s : Keyed) :
    PollTells .writer s.1 (writePass w src s).answer (writePass w src s).effects
      (writePass w src s).state.1 := by
  have htried := s.1.tryWrite_tells .writer src
  rw [writePass]
  split
  · exact Channel.withdrawWriter_tells _ _ _
  · simp only [PollTells, Outcome.andThen_answer, Outcome.andThen_state, Outcome.andThen_effects]
    split
    · exact htried.after_quiet (Channel.withdrawWriter_tells _ _ _)
    · simp only [Outcome.andThen_answer, Outcome.andThen_state, Outcome.andThen_effects]
      have hpolled := htried.after_quiet (Channel.onSpace_tells .writer (s.1.tryWrite src).state
        (pollWait_quiet w s.2 (s.1.tryWrite src).state.spaceReady))
      split
      · rw [Outcome.pure_effects, List.append_nil]
        exact hpolled
      · rw [← List.append_assoc]
        exact hpolled.after_quiet (Channel.stall_tells _ _)

theorem pollWrite_tells (w : Waker) (src : List UInt8) {s : Keyed}
    (h : Guarded (occupant s.2) reader s.1) :
    Tells .writer (pollWrite w src s).answer.isPending.toNat s.1 (pollWrite w src s).effects
      (pollWrite w src s).state.1 := by
  rw [pollWrite]
  split
  · exact ⟨rfl, rfl⟩
  · split
    · exact ⟨rfl, rfl⟩
    · rename_i hne
      have hsome : src ≠ [] := fun hnil => hne (List.isEmpty_iff.mpr hnil)
      exact poll_tells (G := fun s => Guarded (occupant s.2) reader s.1)
        (fun s hs => writePass_guarded w hsome hs) (writePass_tells w src) h rfl

theorem writeAllPass_tells (w : Waker) (data : List UInt8) {s : Writing}
    (h : Guarded (occupant s.1.2) reader s.1.1) :
    PollTells .writer s.1.1 (writeAllPass w data s).answer (writeAllPass w data s).effects
      (writeAllPass w data s).state.1.1 := by
  have hpoll := pollWrite_tells w (data.drop s.2) h
  rw [writeAllPass]
  split
  · exact ⟨rfl, rfl⟩
  · simp only [PollTells, Outcome.andThen_answer, Outcome.andThen_state, Outcome.andThen_effects]
    revert hpoll
    generalize pollWrite w (data.drop s.2) s.1 = o
    obtain ⟨(e | n) | _, keyed, effects⟩ := o
    · exact Tells.finish
    · exact Tells.finish
    · exact Tells.finish

theorem pollWriteAll_tells (w : Waker) (data : List UInt8) {s : Writing}
    (h : Guarded (occupant s.1.2) reader s.1.1) :
    Tells .writer (pollWriteAll w data s).answer.isPending.toNat s.1.1
      (pollWriteAll w data s).effects (pollWriteAll w data s).state.1.1 := by
  obtain ⟨r, hanswer, htells⟩ := Outcome.loop_traces
    (I := fun s : Writing => Guarded (occupant s.1.2) reader s.1.1)
    (Q := fun s (r : Poll (Except RingClosed Unit)) es s' =>
      Tells .writer r.isPending.toNat s.1.1 es s'.1.1)
    (m := fun s => data.length - s.2)
    (fun s r hs hr => by
      have hpass := writeAllPass_tells w data hs
      rw [hr] at hpass
      exact hpass)
    (fun s hs hnone => by
      obtain ⟨hkept, _, hless⟩ := writeAllPass_guarded w data hs
      have hpass := writeAllPass_tells w data hs
      rw [hnone] at hpass
      exact ⟨hkept, hless hnone, fun _ _ _ hrest => hpass.after_quiet hrest⟩)
    (data.length - s.2 + 1) s h (Nat.lt_succ_self _)
  rw [pollWriteAll, Outcome.map_answer, Outcome.map_state, Outcome.map_effects, hanswer]
  exact htells

end Conduit.Ring

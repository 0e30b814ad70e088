/-
  Conduit/Proofs/Ring/Gate.lean
  =============================
  **A signal that one end alone waits in.**

  Each signal of a ring is waited in by one end and set by the other, so it has one
  waiter at most.  `Attends` lists the shapes that leaves: nobody is registered, or a task
  or a thread is, and sleeps with the signal unset or was let go with the signal set.
  Nobody sleeps while the bit is up, so each setting raises it and reaches the sleeper.
-/
import Conduit.Proofs.Signal.Slim

namespace Conduit.Ring

open Signal (Slim WaitKey Word)
open Signal.Slim (tryWait_cases pollWait_down pollWait_up withdraw_cases block_cases expire_cases
  timeUp_cases)

/-- Who is registered with a signal. -/
inductive Occupant
  | nobody
  | task (key : UInt64)
  | thread (t : Thread)

/-- Who is registered under a key. -/
def occupant (key : WaitKey) : Occupant :=
  match key.id with
  | none => .nobody
  | some k => .task k

/-- Somebody sleeps in the signal, and nothing has let it go yet. -/
def Sleeps (s : Slim) : Prop := s.tasks ≠ [] ∨ s.asleep ≠ []

/-- The shapes of a signal with at most one waiter. -/
inductive Attends : Occupant → Slim → Prop
  | nobody {word : Word} {next : UInt64} {observer : Observer} {p : Nat} (hp : word.Stands 0 p) :
      Attends .nobody ⟨word, next, [], [], [], observer⟩
  | registered {word : Word} {next k : UInt64} {observer : Observer} {w : Waker}
      (hp : word.Stands 1 0) : Attends (.task k) ⟨word, next, [(k, w)], [], [], observer⟩
  | woken {word : Word} {next k : UInt64} {observer : Observer} {p : Nat}
      (hp : word.Stands 1 (p + 1)) : Attends (.task k) ⟨word, next, [], [], [], observer⟩
  | asleep {word : Word} {next : UInt64} {observer : Observer} {t : Thread}
      (hp : word.Stands 1 0) : Attends (.thread t) ⟨word, next, [], [t], [], observer⟩
  | roused {word : Word} {next : UInt64} {observer : Observer} {t : Thread} {p : Nat}
      (hp : word.Stands 1 (p + 1)) : Attends (.thread t) ⟨word, next, [], [], [t], observer⟩

namespace Attends

variable {s : Slim} {o : Occupant} {t : Thread}

theorem new (observer : Observer) : Attends .nobody (Slim.new observer) :=
  .nobody Word.stands_zero

theorem sleeps_of_thread (h : Attends (.thread t) s) (rested : s.roused = []) : Sleeps s := by
  cases h with
  | asleep hp => exact Or.inr (List.cons_ne_nil _ _)
  | roused hp => exact absurd rested (List.cons_ne_nil _ _)

theorem not_sleeps_nobody (h : Attends .nobody s) : ¬ Sleeps s := by
  cases h with
  | nobody hp =>
    rintro (hne | hne)
    · exact hne rfl
    · exact hne rfl

/-! ### Setting -/

/-- With nobody asleep only the word changes. -/
theorem set_quiet (word : Word) (next : UInt64) (roused : List Thread) (observer : Observer) :
    (Slim.set ⟨word, next, [], [], roused, observer⟩).state
      = ⟨word.set, next, [], [], roused, observer⟩ := by
  unfold Slim.set
  split <;> rfl

/-- With a sleeper the bit goes up and wakes it. -/
theorem set_sleeper {s : Slim} (hp : s.word.Stands 1 0) :
    s.set = Slim.wakeOne { s with word := s.word.set } := by
  have hcond : ¬ s.word.signaled = true ∧ 0 < s.word.waiters := by
    rw [hp.signaled_eq, UInt64.lt_iff_toNat_lt, hp.waiters_toNat]
    exact ⟨by decide, by decide⟩
  simp only [Slim.set, if_pos hcond]

/-- A signal set once more stays set. -/
theorem set_again {word : Word} {p : Nat} (hp : word.Stands 1 (p + 1)) :
    word.set.Stands 1 (min (p + 1) 1 + 1) := by
  have hup : min (p + 1 + 1) (1 + 1) = min (p + 1) 1 + 1 := by omega
  have hset := hp.set (by decide)
  rw [hup] at hset
  exact hset

/-- Whoever waits is let go. -/
theorem set (h : Attends o s) : Attends o s.set.state ∧ ¬ Sleeps s.set.state := by
  have hquiet {word : Word} {next : UInt64} {roused : List Thread} {observer : Observer} :
      ¬ Sleeps ⟨word, next, [], [], roused, observer⟩ := by
    rintro (hne | hne)
    · exact hne rfl
    · exact hne rfl
  cases h with
  | nobody hp =>
    rw [set_quiet]
    exact ⟨.nobody (hp.set (by decide)), hquiet⟩
  | registered hp =>
    rw [set_sleeper hp]
    exact ⟨.woken (hp.set (by decide)), hquiet⟩
  | woken hp =>
    rw [set_quiet]
    exact ⟨.woken (set_again hp), hquiet⟩
  | asleep hp =>
    rw [set_sleeper hp]
    exact ⟨.roused (hp.set (by decide)), hquiet⟩
  | roused hp =>
    rw [set_quiet]
    exact ⟨.roused (set_again hp), hquiet⟩

/-! ### Waiting -/

/-- With nobody asleep an attempt to take the signal changes the word alone. -/
theorem tryWait_quiet (next : UInt64) (roused : List Thread) (observer : Observer) {word : Word}
    {n p : Nat} (hp : word.Stands n (p + 1)) :
    ∃ word', word'.Stands n p ∧
      Slim.tryWait ⟨word, next, [], [], roused, observer⟩
        = .pure true ⟨word', next, [], [], roused, observer⟩ := by
  rcases tryWait_cases (s := ⟨word, next, [], [], roused, observer⟩) hp with
    ⟨hzero, _⟩ | ⟨hone, word', hword', htry⟩ | ⟨q, hq, word', hword', htry⟩
  · omega
  · obtain rfl : p = 0 := by omega
    exact ⟨word', hword', htry⟩
  · obtain rfl : p = q + 1 := by omega
    exact ⟨word', hword', htry⟩

theorem fewer_pending {s s' : Slim} {n n' p p' : Nat} (hp : s.word.Stands n p)
    (hp' : s'.word.Stands n' p') (h : p' < p) : s'.pendingReleases < s.pendingReleases := by
  simp only [Slim.pendingReleases, hp.pending_eq, hp'.pending_eq]
  exact h

/-- A task that is not asleep leaves without waking anybody. -/
theorem withdraw_quiet (k : UInt64) (word : Word) (next : UInt64) (observer : Observer) :
    (Slim.withdraw ⟨some k⟩ ⟨word, next, [], [], [], observer⟩).state
      = ⟨word.leave, next, [], [], [], observer⟩ := by
  rcases withdraw_cases k ⟨word, next, [], [], [], observer⟩ with hcase | ⟨_, hcase⟩
  · rw [hcase]
    rfl
  · rw [hcase]
    rfl

/-- Giving up a registration leaves nobody. -/
theorem withdraw {key : WaitKey} (h : Attends (occupant key) s) :
    Attends .nobody (s.withdraw key).state := by
  obtain ⟨_ | k⟩ := key
  · exact h
  · cases h with
    | registered hp =>
      have hleave := hp.leave
      have hqueued : (k == k) = true := beq_self_eq_true k
      simp only [Slim.withdraw, List.any_cons, List.eraseP_cons, hqueued, Bool.true_or,
        not_true_eq_false, false_and, if_false, cond_true]
      exact .nobody hleave
    | woken hp =>
      rw [withdraw_quiet]
      exact .nobody hp.leave

/-- A poll takes a release and leaves, or it registers and sleeps under its waker. -/
theorem pollWait (w : Waker) {key : WaitKey} (h : Attends (occupant key) s) :
    ((s.pollWait w key).answer = (true, .fresh) ∧ Attends .nobody (s.pollWait w key).state ∧
      (s.pollWait w key).state.pendingReleases < s.pendingReleases) ∨
    (∃ k, (s.pollWait w key).answer = (false, ⟨some k⟩) ∧
      Attends (.task k) (s.pollWait w key).state ∧
      (s.pollWait w key).state.tasks = [(k, w)] ∧ (s.pollWait w key).effects = []) := by
  obtain ⟨_ | k⟩ := key
  · cases h with
    | @nobody word next observer p hp =>
      cases p with
      | zero =>
        rw [pollWait_down w ⟨none⟩ hp]
        exact Or.inr ⟨next, rfl, .registered (hp.enter (by decide)), rfl, rfl⟩
      | succ p =>
        obtain ⟨word', hword', htry⟩ := tryWait_quiet next [] observer hp
        rw [pollWait_up w ⟨none⟩ hp, htry]
        exact Or.inl ⟨rfl, .nobody hword', fewer_pending hp hword' (Nat.lt_succ_self p)⟩
  · cases h with
    | @registered word next _ observer w' hp =>
      rw [pollWait_down w ⟨some k⟩ hp]
      have hrenewed : (Slim.register w ⟨some k⟩ ⟨word, next, [(k, w')], [], [], observer⟩)
          = .pure ⟨some k⟩ ⟨word, next, [(k, w)], [], [], observer⟩ := by
        simp [Slim.register]
      rw [hrenewed]
      exact Or.inr ⟨k, rfl, .registered hp, rfl, rfl⟩
    | @woken word next _ observer p hp =>
      obtain ⟨word', hword', htry⟩ := tryWait_quiet next [] observer hp
      have hleave := hword'.leave
      rw [pollWait_up w ⟨some k⟩ hp, htry]
      simp only [Outcome.pure_andThen, Outcome.map_answer, Outcome.map_state, withdraw_quiet]
      refine Or.inl ⟨trivial, .nobody hleave, fewer_pending hp hleave ?_⟩
      omega

/-! ### Threads -/

/-- A thread takes a release, or it sleeps. -/
theorem block (t : Thread) (h : Attends .nobody s) :
    ((s.block t).answer = true ∧ Attends .nobody (s.block t).state ∧
      (s.block t).state.pendingReleases < s.pendingReleases) ∨
    ((s.block t).answer = false ∧ Attends (.thread t) (s.block t).state ∧
      (s.block t).state.roused = []) := by
  cases h with
  | @nobody word next observer p hp =>
    rcases block_cases t (s := ⟨word, next, [], [], [], observer⟩) hp (by decide) with
      ⟨rfl, word', hword', hcase⟩ | ⟨hpos, hcase⟩
    · rw [hcase]
      exact Or.inr ⟨rfl, .asleep hword', rfl⟩
    · obtain ⟨p, rfl⟩ := Nat.exists_eq_succ_of_ne_zero (Nat.ne_of_gt hpos)
      obtain ⟨word', hword', htry⟩ := tryWait_quiet next [] observer hp
      rw [hcase, htry]
      exact Or.inl ⟨rfl, .nobody hword', fewer_pending hp hword' (Nat.lt_succ_self p)⟩

/-- A wait without time takes a release, or leaves as it came. -/
theorem expire (h : Attends .nobody s) :
    Attends .nobody s.expire.state ∧
      (s.expire.answer = true → s.expire.state.pendingReleases < s.pendingReleases) := by
  cases h with
  | @nobody word next observer p hp =>
    rcases expire_cases (s := ⟨word, next, [], [], [], observer⟩) hp (by decide) with
      ⟨rfl, word', hword', hcase⟩ | ⟨hpos, hcase⟩
    · rw [hcase]
      refine ⟨.nobody hword', ?_⟩
      intro hfalse
      cases hfalse
    · obtain ⟨p, rfl⟩ := Nat.exists_eq_succ_of_ne_zero (Nat.ne_of_gt hpos)
      obtain ⟨word', hword', htry⟩ := tryWait_quiet next [] observer hp
      rw [hcase, htry]
      refine ⟨.nobody hword', ?_⟩
      intro _
      exact fewer_pending hp hword' (Nat.lt_succ_self p)

/-- A thread that was roused takes a release and leaves. -/
theorem resume_alone (t : Thread) (next : UInt64) (observer : Observer) {word : Word} {p : Nat}
    (hp : word.Stands 1 (p + 1)) :
    ∃ word' : Word, word'.Stands 1 p ∧
      Slim.resume ⟨word, next, [], [], [t], observer⟩
        = .pure (some t) ⟨word'.leave, next, [], [], [], observer⟩ := by
  obtain ⟨word', hword', htry⟩ := tryWait_quiet next [] observer hp
  refine ⟨word', hword', ?_⟩
  simp only [Slim.resume, htry, Outcome.pure_andThen, if_true]

/-- A thread that was roused finds the signal set, and leaves. -/
theorem resume (h : Attends (.thread t) s) (hroused : s.roused ≠ []) :
    s.resume.answer = some t ∧ Attends .nobody s.resume.state := by
  cases h with
  | asleep hp => exact absurd rfl hroused
  | @roused word next observer _ p hp =>
    obtain ⟨word', hword', hresume⟩ := resume_alone t next observer hp
    rw [hresume]
    exact ⟨rfl, .nobody hword'.leave⟩

/-- A thread whose time is over leaves. -/
theorem timeUp (h : Attends (.thread t) s) (rested : s.roused = []) :
    Attends .nobody (s.timeUp t).state := by
  cases h with
  | @asleep word next observer _ hp =>
    have herase : ([t] : List Thread).erase t = [] := List.erase_cons_head t []
    rcases timeUp_cases t (s := ⟨word, next, [], [t], [], observer⟩) hp with
      ⟨_, word', hword', hcase⟩ | ⟨q, hq, _⟩
    · simp only [herase] at hcase
      rw [hcase]
      exact .nobody hword'
    · omega
  | roused hp => exact absurd rested (List.cons_ne_nil _ _)

end Attends

end Conduit.Ring

/-
  Conduit/Proofs/Signal/Slim.lean
  ===============================
  **The books of the signal in a single word.**

  The signal keeps three lists: tasks asleep, threads asleep, threads roused.  A task
  that was woken is on none of them until it polls again, so the only trace of it is the
  number of waiters in the word.  `Books` says how the lists and the word fit the tickets
  and threads that are registered.

  Only a bit that goes up wakes anybody, so what keeps a release from being forgotten is
  `Awake`: while the bit is up and somebody sleeps, somebody else is on the way, a task
  that was woken or a thread that was roused.  It holds after every operation because
  each one that takes somebody off the way either lowers the bit or wakes the next.
-/
import Conduit.Proofs.Signal.Tracked
import Conduit.Proofs.Signal.Word
import Mathlib.Data.List.Perm.Subperm

namespace Conduit.Signal.Slim

/-! ### Books -/

/-- The tasks asleep are some of the registered tickets, all tickets are distinct and older than
    the next one, and no more were given out than the signal's age says. -/
structure Linked (age : Nat) (K : List UInt64) (s : Slim) : Prop where
  distinct : K.Nodup
  tasks_distinct : (s.tasks.map Prod.fst).Nodup
  tasks_registered : ∀ t ∈ s.tasks, t.1 ∈ K
  fresh : ∀ k ∈ K, k.toNat < s.nextKey.toNat
  counted : s.nextKey.toNat ≤ age

/-- While the bit is up and somebody sleeps, a task that was woken or a thread that was roused is
    on the way. -/
def Awake (K : List UInt64) (s : Slim) : Prop :=
  s.word.signaled = true → s.tasks ≠ [] ∨ s.asleep ≠ [] →
    s.tasks.length < K.length ∨ s.roused ≠ []

/-- The word counts `n` waiters; the threads are asleep or roused; and as long as tickets have not
    come round, the tasks are linked to their tickets and nobody sleeps beside a release alone. -/
structure Books (n age : Nat) (K : List UInt64) (T : List Thread) (s : Slim) : Prop where
  stands : ∃ p, s.word.Stands n p
  threads : T.Perm (s.asleep ++ s.roused)
  linked : age < UInt64.size → s.Linked age K
  awake : age < UInt64.size → s.Awake K

/-- The books of a signal with these tickets and threads registered. -/
abbrev Sound (age : Nat) (K : List UInt64) (T : List Thread) (s : Slim) : Prop :=
  s.Books (K.length + T.length) age K T

/-- The waker under which a ticket's task sleeps. -/
def asleepAs (s : Slim) (k : UInt64) : Option Waker := s.tasks.lookup k

instance : Tracked Slim Slim.Wait UInt64 where
  Sound := Sound
  Young age := age < UInt64.size
  Sparse s := s.registeredWaits < 2147483648
  Rested s := s.roused = []
  asleepAs := asleepAs
  ofKey key := ⟨key⟩
  toKey wait := wait.key

variable {s : Slim} {n age p : Nat} {K : List UInt64} {T : List Thread}

theorem Linked.tasks_length_le (h : s.Linked age K) : s.tasks.length ≤ K.length := by
  have hsub : (s.tasks.map Prod.fst) ⊆ K := by
    intro k hk
    obtain ⟨t, ht, rfl⟩ := List.mem_map.mp hk
    exact h.tasks_registered t ht
  simpa using (List.Nodup.subperm h.tasks_distinct hsub).length_le

/-- With the bit down there is nothing to be awake for. -/
theorem awake_of_down (h : s.word.signaled = false) : s.Awake K := by
  intro hup
  rw [h] at hup
  exact absurd hup (by decide)

theorem Linked.older (h : s.Linked age K) : s.Linked (age + 1) K :=
  { h with counted := Nat.le_succ_of_le h.counted }

/-- The links depend on the tasks and the next key alone. -/
theorem Linked.same {s' : Slim} (h : s.Linked age K) (htasks : s'.tasks = s.tasks)
    (hnext : s'.nextKey = s.nextKey) : s'.Linked age K where
  distinct := h.distinct
  tasks_distinct := by rw [htasks]; exact h.tasks_distinct
  tasks_registered := by rw [htasks]; exact h.tasks_registered
  fresh := by rw [hnext]; exact h.fresh
  counted := by rw [hnext]; exact h.counted

theorem Books.older (h : s.Books n age K T) : s.Books n (age + 1) K T where
  stands := h.stands
  threads := h.threads
  linked hyoung := (h.linked (by omega)).older
  awake hyoung := h.awake (by omega)

/-- The pending releases and the waiters, as they are read off the word. -/
theorem countsOf_eq (h : s.word.Stands n p) : countsOf s = ⟨p, n⟩ := by
  show (⟨s.word.signaled.toNat + s.word.owed.toNat, s.word.waiters.toNat⟩ : Counts) = ⟨p, n⟩
  rw [h.pending_eq, h.waiters_toNat]

/-! ### Waking one -/

/-- Who slept under a ticket sleeps on or had its waker called. -/
def Heard (s s' : Slim) (effects : List Effect) : Prop :=
  ∀ k w, s.asleepAs k = some w → s'.asleepAs k = some w ∨ .woken w ∈ effects

/-- A turn, from what the words stand for before and after. -/
theorem turn_of {s' : Slim} {effects : List Effect} {moves : List Move} {n' p' : Nat}
    (hp : s.word.Stands n p) (hp' : s'.word.Stands n' p')
    (hpath : Counts.Path ⟨p, n⟩ moves ⟨p', n'⟩) (hheard : s.Heard s' effects) :
    Turn s s' effects moves none where
  counts := by
    rw [countsOf_eq hp, countsOf_eq hp']
    exact hpath
  heard k w _ hasleep := hheard k w hasleep

theorem wakeOne_word (s : Slim) : s.wakeOne.state.word = s.word := by
  unfold wakeOne
  split <;> rfl

theorem wakeOne_threads (s : Slim) :
    (s.asleep ++ s.roused).Perm (s.wakeOne.state.asleep ++ s.wakeOne.state.roused) := by
  unfold wakeOne
  split
  · exact List.Perm.refl _
  · next t asleep _ hasleep =>
    simp only [Outcome.pure_state, hasleep, List.cons_append, ← List.append_assoc]
    exact (List.perm_append_singleton t _).symm
  · exact List.Perm.refl _

theorem wakeOne_heard (s : Slim) : s.Heard s.wakeOne.state s.wakeOne.effects := by
  intro k w hasleep
  unfold wakeOne
  split
  · next k₀ w₀ tasks htasks =>
    simp only [asleepAs, htasks, List.lookup_cons] at hasleep ⊢
    by_cases hk : k == k₀
    · rw [hk] at hasleep
      obtain rfl := Option.some.inj hasleep
      exact Or.inr (List.mem_singleton.mpr rfl)
    · rw [Bool.not_eq_true] at hk
      rw [hk] at hasleep
      exact Or.inl hasleep
  · exact Or.inl hasleep
  · exact Or.inl hasleep

theorem wakeOne_linked (h : s.Linked age K) : s.wakeOne.state.Linked age K := by
  unfold wakeOne
  split
  · next k w tasks htasks =>
    have hdistinct := h.tasks_distinct
    have hregistered := h.tasks_registered
    rw [htasks] at hdistinct hregistered
    exact
      { distinct := h.distinct
        tasks_distinct := (List.nodup_cons.mp hdistinct).2
        tasks_registered := fun t ht => hregistered t (List.mem_cons_of_mem _ ht)
        fresh := h.fresh
        counted := h.counted }
  · exact { h with }
  · exact h

/-- After waking one, somebody is on the way whenever somebody sleeps. -/
theorem wakeOne_awake (h : s.Linked age K) : s.wakeOne.state.Awake K := by
  intro _ hsleeper
  have hle := h.tasks_length_le
  unfold wakeOne at hsleeper ⊢
  split
  · next k w tasks htasks =>
    rw [htasks, List.length_cons] at hle
    exact Or.inl hle
  · exact Or.inr (by simp)
  · next htasks hasleep =>
    simp [htasks, hasleep] at hsleeper

theorem wakeOne_books (hstands : s.word.Stands n p) (hthreads : T.Perm (s.asleep ++ s.roused))
    (hlinked : age < UInt64.size → s.Linked age K) : s.wakeOne.state.Books n age K T where
  stands := ⟨p, by rw [wakeOne_word]; exact hstands⟩
  threads := hthreads.trans s.wakeOne_threads
  linked hyoung := wakeOne_linked (hlinked hyoung)
  awake hyoung := wakeOne_awake (hlinked hyoung)

/-! ### Taking the signal -/

/-- What an attempt to take the signal leads to: nothing, the last release, or one release of
    several, and then the next waiter is woken. -/
theorem tryWait_cases (h : s.word.Stands n p) :
    (p = 0 ∧ s.tryWait = .pure false s) ∨
    (p = 1 ∧ ∃ w', w'.Stands n 0 ∧ s.tryWait = .pure true { s with word := w' }) ∨
    (∃ q, p = q + 2 ∧ ∃ w', w'.Stands n (q + 1) ∧
      s.tryWait = (wakeOne { s with word := w' }).map fun _ => true) := by
  unfold tryWait
  rcases h.take with ⟨hp, htake⟩ | ⟨hp, w', htake, hw'⟩ | ⟨q, hp, w', htake, hw'⟩
  · exact Or.inl ⟨hp, by rw [htake]⟩
  · exact Or.inr (Or.inl ⟨hp, w', hw', by rw [htake]⟩)
  · exact Or.inr (Or.inr ⟨q, hp, w', hw', by rw [htake]⟩)

theorem tryWait_answer (h : s.word.Stands n p) : s.tryWait.answer = decide (0 < p) := by
  rcases tryWait_cases h with ⟨rfl, htry⟩ | ⟨rfl, w', _, htry⟩ | ⟨q, rfl, w', _, htry⟩ <;>
    simp [htry]

theorem tryWait_stands (h : s.word.Stands n p) : s.tryWait.state.word.Stands n (p - 1) := by
  rcases tryWait_cases h with ⟨rfl, htry⟩ | ⟨rfl, w', hw', htry⟩ | ⟨q, rfl, w', hw', htry⟩
  · rw [htry]
    exact h
  · rw [htry]
    exact hw'
  · rw [htry, Outcome.map_state, wakeOne_word]
    exact hw'

theorem tryWait_heard (h : s.word.Stands n p) :
    s.Heard s.tryWait.state s.tryWait.effects := by
  rcases tryWait_cases h with ⟨_, htry⟩ | ⟨_, w', _, htry⟩ | ⟨q, _, w', _, htry⟩
  · rw [htry]
    exact fun _ _ hasleep => Or.inl hasleep
  · rw [htry]
    exact fun _ _ hasleep => Or.inl hasleep
  · rw [htry]
    exact wakeOne_heard { s with word := w' }

theorem tryWait_turn (h : s.word.Stands n p) :
    Turn s s.tryWait.state s.tryWait.effects (if s.tryWait.answer then [.take] else []) none := by
  refine turn_of h (tryWait_stands h) ?_ (tryWait_heard h)
  rw [tryWait_answer h]
  cases p with
  | zero => exact .nil _
  | succ q => exact .one (.take q n)

/-- Somebody is awake after an attempt, even if nobody was before: a bit that stays up has just
    woken the next. -/
theorem tryWait_books (hp : s.word.Stands n p) (hthreads : T.Perm (s.asleep ++ s.roused))
    (hlinked : age < UInt64.size → s.Linked age K) : s.tryWait.state.Books n age K T := by
  rcases tryWait_cases hp with ⟨rfl, htry⟩ | ⟨_, w', hw', htry⟩ | ⟨q, _, w', hw', htry⟩
  · rw [htry]
    exact
      { stands := ⟨0, hp⟩
        threads := hthreads
        linked := hlinked
        awake := fun _ => awake_of_down hp.signaled_eq }
  · rw [htry]
    exact
      { stands := ⟨0, hw'⟩
        threads := hthreads
        linked := fun hyoung => { hlinked hyoung with }
        awake := fun _ => awake_of_down hw'.signaled_eq }
  · rw [htry, Outcome.map_state]
    exact wakeOne_books hw' hthreads fun hyoung => { hlinked hyoung with }

/-! ### Setting the signal -/

/-- Somebody who sleeps is registered. -/
theorem Books.pos_of_sleeper (h : s.Books n age K T) (young : age < UInt64.size)
    (hsleeper : s.tasks ≠ [] ∨ s.asleep ≠ []) : 0 < K.length + T.length := by
  have htasks := (h.linked young).tasks_length_le
  have hthreads := h.threads.length_eq
  rw [List.length_append] at hthreads
  rcases hsleeper with hne | hne
  · have hpos := List.length_pos_iff.mpr hne
    omega
  · have hpos := List.length_pos_iff.mpr hne
    omega

theorem set_sound (h : s.Sound age K T) (sparse : K.length + T.length < 2147483648) :
    s.set.state.Sound age K T := by
  obtain ⟨p, hp⟩ := h.stands
  have hset := hp.set sparse
  unfold Slim.set
  simp only []
  split
  · exact wakeOne_books hset h.threads fun hyoung => { h.linked hyoung with }
  · next hquiet =>
    refine
      { stands := ⟨_, hset⟩
        threads := h.threads
        linked := fun hyoung => { h.linked hyoung with }
        awake := fun hyoung _ hsleeper => ?_ }
    by_cases hup : s.word.signaled = true
    · exact h.awake hyoung hup hsleeper
    · -- a bit that goes up without a waiter wakes nobody, but then nobody sleeps
      have hpos := h.pos_of_sleeper hyoung hsleeper
      have hwaiters : 0 < s.word.waiters := by
        rw [UInt64.lt_iff_toNat_lt, hp.waiters_toNat]
        exact hpos
      exact absurd ⟨hup, hwaiters⟩ hquiet

theorem set_counts (hp : s.word.Stands n p) (sparse : n < 2147483648) :
    countsOf s.set.state = ⟨min (p + 1) (n + 1), n⟩ := by
  apply countsOf_eq
  have hset := hp.set sparse
  unfold Slim.set
  simp only []
  split
  · rw [wakeOne_word]
    exact hset
  · exact hset

theorem set_heard (s : Slim) : s.Heard s.set.state s.set.effects := by
  unfold Slim.set
  simp only []
  split
  · exact wakeOne_heard { s with word := s.word.set }
  · exact fun _ _ hasleep => Or.inl hasleep

/-! ### Withdrawing -/

theorem key_ne_of_mem_eraseP {l : List (UInt64 × Waker)} {k : UInt64}
    (h : (l.map Prod.fst).Nodup) : ∀ t ∈ l.eraseP (fun t => t.1 == k), t.1 ≠ k := by
  induction l with
  | nil => simp
  | cons t₀ l ih =>
    rw [List.map_cons, List.nodup_cons] at h
    intro t ht
    by_cases hk : t₀.1 = k
    · simp only [List.eraseP_cons, hk, beq_self_eq_true, cond_true] at ht
      intro heq
      exact h.1 (List.mem_map.mpr ⟨t, ht, heq.trans hk.symm⟩)
    · simp only [List.eraseP_cons, beq_eq_false_iff_ne.mpr hk, cond_false,
        List.mem_cons] at ht
      rcases ht with rfl | ht
      · exact hk
      · exact ih h.2 t ht

theorem lookup_eraseP_ne {l : List (UInt64 × Waker)} {k k' : UInt64} (h : k' ≠ k) :
    (l.eraseP fun t => t.1 == k).lookup k' = l.lookup k' := by
  induction l with
  | nil => rfl
  | cons t₀ l ih =>
    obtain ⟨k₀, w₀⟩ := t₀
    by_cases hk : k₀ = k
    · subst hk
      simp [List.lookup_cons, beq_eq_false_iff_ne.mpr h]
    · simp only [List.eraseP_cons, beq_eq_false_iff_ne.mpr hk, cond_false, List.lookup_cons, ih]

/-- The signal without the registration of a key, before anybody is woken in its place. -/
def without (k : UInt64) (s : Slim) : Slim :=
  { s with tasks := s.tasks.eraseP fun t => t.1 == k, word := s.word.leave }

@[simp] theorem without_word (k : UInt64) (s : Slim) : (s.without k).word = s.word.leave := by
  cases s
  rfl

@[simp] theorem without_tasks (k : UInt64) (s : Slim) :
    (s.without k).tasks = s.tasks.eraseP fun t => t.1 == k := by
  cases s
  rfl

@[simp] theorem without_asleep (k : UInt64) (s : Slim) : (s.without k).asleep = s.asleep := by
  cases s
  rfl

@[simp] theorem without_roused (k : UInt64) (s : Slim) : (s.without k).roused = s.roused := by
  cases s
  rfl

@[simp] theorem without_nextKey (k : UInt64) (s : Slim) : (s.without k).nextKey = s.nextKey := by
  cases s
  rfl

/-- A withdrawal takes the registration out, and wakes the next if the bit is up and the task had
    been woken for it. -/
theorem withdraw_cases (k : UInt64) (s : Slim) :
    (s.withdraw ⟨some k⟩ = (s.without k).wakeOne.map fun _ => true) ∨
    ((s.word.signaled = true → s.tasks.any (fun t => t.1 == k) = true) ∧
      s.withdraw ⟨some k⟩ = .pure true (s.without k)) := by
  simp only [withdraw, without]
  split
  · exact Or.inl rfl
  · next hquiet =>
    refine Or.inr ⟨fun hup => ?_, rfl⟩
    by_contra hqueued
    exact hquiet ⟨hqueued, hup⟩

theorem without_linked {k : UInt64} (h : s.Linked age (k :: K)) :
    (s.without k).Linked age K where
  distinct := (List.nodup_cons.mp h.distinct).2
  tasks_distinct := by
    rw [without_tasks]
    exact h.tasks_distinct.sublist (List.eraseP_sublist.map Prod.fst)
  tasks_registered t ht := by
    rw [without_tasks] at ht
    have hmem := h.tasks_registered t (List.mem_of_mem_eraseP ht)
    have hne := key_ne_of_mem_eraseP h.tasks_distinct t ht
    exact (List.mem_cons.mp hmem).resolve_left hne
  fresh k' hk' := by
    rw [without_nextKey]
    exact h.fresh k' (List.mem_cons_of_mem _ hk')
  counted := by
    rw [without_nextKey]
    exact h.counted

theorem withdraw_books {k : UInt64} (h : s.Books (n + 1) age (k :: K) T) :
    (s.withdraw ⟨some k⟩).state.Books n age K T := by
  obtain ⟨p, hp⟩ := h.stands
  have hleave : (s.without k).word.Stands n (min p (n + 1)) := by
    rw [without_word]
    exact hp.leave
  have hthreads : T.Perm ((s.without k).asleep ++ (s.without k).roused) := by
    rw [without_asleep, without_roused]
    exact h.threads
  rcases withdraw_cases k s with hcase | ⟨hqueued, hcase⟩
  · rw [hcase, Outcome.map_state]
    exact wakeOne_books hleave hthreads fun hyoung => without_linked (h.linked hyoung)
  · rw [hcase, Outcome.pure_state]
    refine
      { stands := ⟨_, hleave⟩
        threads := hthreads
        linked := fun hyoung => without_linked (h.linked hyoung)
        awake := fun hyoung hup hsleeper => ?_ }
    have hup' : s.word.signaled = true := by
      rw [hleave.signaled_eq, decide_eq_true_eq] at hup
      rw [hp.signaled_eq, decide_eq_true_eq]
      omega
    obtain ⟨t, ht, htk⟩ := List.any_eq_true.mp (hqueued hup')
    have hlength : (s.tasks.eraseP fun t => t.1 == k).length = s.tasks.length - 1 :=
      List.length_eraseP_of_mem ht htk
    have hpos := List.length_pos_of_mem ht
    have hawake := h.awake hyoung hup' (Or.inl (List.ne_nil_of_mem ht))
    rw [List.length_cons] at hawake
    rw [without_tasks, without_roused, hlength]
    rcases hawake with hlt | hroused
    · exact Or.inl (by omega)
    · exact Or.inr hroused

theorem withdraw_counts {k : UInt64} (hp : s.word.Stands (n + 1) p) :
    countsOf (s.withdraw ⟨some k⟩).state = ⟨min p (n + 1), n⟩ := by
  apply countsOf_eq
  rcases withdraw_cases k s with hcase | ⟨_, hcase⟩
  · rw [hcase, Outcome.map_state, wakeOne_word, without_word]
    exact hp.leave
  · rw [hcase, Outcome.pure_state, without_word]
    exact hp.leave

theorem withdraw_heard (k : UInt64) (s : Slim) (k' : UInt64) (w : Waker) (hne : k' ≠ k)
    (hasleep : s.asleepAs k' = some w) :
    (s.withdraw ⟨some k⟩).state.asleepAs k' = some w ∨
      .woken w ∈ (s.withdraw ⟨some k⟩).effects := by
  have hwithout : (s.without k).asleepAs k' = some w := by
    rw [asleepAs, without_tasks, lookup_eraseP_ne hne]
    exact hasleep
  rcases withdraw_cases k s with hcase | ⟨_, hcase⟩
  · rw [hcase]
    exact wakeOne_heard _ k' w hwithout
  · rw [hcase]
    exact Or.inl hwithout

/-! ### Registering -/

theorem register_new (w : Waker) (s : Slim) :
    s.register w .fresh = .pure ⟨some s.nextKey⟩
      { s with
        nextKey := s.nextKey + 1
        tasks := s.tasks ++ [(s.nextKey, w)]
        word := s.word.enter } := rfl

/-- A task that registers for the first time gets the next key. -/
theorem register_new_books (w : Waker) (h : s.Books n age K T)
    (hdown : s.word.signaled = false) (hroom : n + 1 < 4294967296) :
    (s.register w .fresh).state.Books (n + 1) (age + 1) (s.nextKey :: K) T := by
  obtain ⟨p, hp⟩ := h.stands
  have henter := hp.enter hroom
  have hdown' : s.word.enter.signaled = false := by
    rw [henter.signaled_eq, ← hp.signaled_eq]
    exact hdown
  rw [register_new, Outcome.pure_state]
  refine
    { stands := ⟨p, henter⟩
      threads := h.threads
      linked := fun hyoung => ?_
      awake := fun _ => awake_of_down hdown' }
  have hold := h.linked (by omega)
  have hcounted := hold.counted
  have hnew : s.nextKey ∉ K := fun hmem => Nat.lt_irrefl _ (hold.fresh _ hmem)
  have hnext : (s.nextKey + 1).toNat = s.nextKey.toNat + 1 := by
    have h1 : (1 : UInt64).toNat = 1 := rfl
    have hsize : UInt64.size = 18446744073709551616 := rfl
    rw [UInt64.toNat_add, h1]
    omega
  refine
    { distinct := List.nodup_cons.mpr ⟨hnew, hold.distinct⟩
      tasks_distinct := ?_
      tasks_registered := fun t ht => ?_
      fresh := fun k hk => ?_
      counted := by rw [hnext]; omega }
  · rw [List.map_append, List.nodup_append]
    refine ⟨hold.tasks_distinct, by simp, ?_⟩
    rintro k hk k' hk' rfl
    obtain ⟨t, ht, rfl⟩ := List.mem_map.mp hk
    have hkey : t.1 = s.nextKey := by simpa using hk'
    exact hnew (hkey ▸ hold.tasks_registered t ht)
  · rcases List.mem_append.mp ht with hmem | hmem
    · exact List.mem_cons_of_mem _ (hold.tasks_registered t hmem)
    · obtain rfl := List.mem_singleton.mp hmem
      exact List.mem_cons_self
  · rw [hnext]
    rcases List.mem_cons.mp hk with rfl | hmem
    · exact Nat.lt_succ_self _
    · exact Nat.lt_succ_of_lt (hold.fresh k hmem)

theorem register_new_asleepAs (w : Waker) (h : s.Linked age K) :
    (s.register w .fresh).state.asleepAs s.nextKey = some w := by
  have hnew : s.tasks.lookup s.nextKey = none := by
    rw [List.lookup_eq_none_iff]
    intro t ht
    have hlt := h.fresh _ (h.tasks_registered t ht)
    exact bne_iff_ne.mpr fun heq => Nat.lt_irrefl _ (heq ▸ hlt)
  rw [register_new, Outcome.pure_state, asleepAs, List.lookup_append, hnew]
  simp

/-- A task that is registered already sleeps under its new waker, at its place in the line or,
    if it had been woken, at its end. -/
theorem register_old_cases (w : Waker) (k : UInt64) (s : Slim) :
    ((∃ t ∈ s.tasks, t.1 = k) ∧ s.register w ⟨some k⟩ = .pure ⟨some k⟩
      { s with tasks := s.tasks.map fun t => if t.1 == k then (k, w) else t }) ∨
    ((∀ t ∈ s.tasks, t.1 ≠ k) ∧ s.register w ⟨some k⟩ = .pure ⟨some k⟩
      { s with tasks := s.tasks ++ [(k, w)] }) := by
  by_cases hqueued : (s.tasks.any fun t => t.1 == k) = true
  · refine Or.inl ⟨?_, ?_⟩
    · obtain ⟨t, ht, htk⟩ := List.any_eq_true.mp hqueued
      exact ⟨t, ht, eq_of_beq htk⟩
    · simp only [register, hqueued, if_true]
  · refine Or.inr ⟨fun t ht htk => hqueued ?_, ?_⟩
    · exact List.any_eq_true.mpr ⟨t, ht, beq_iff_eq.mpr htk⟩
    · simp only [register, hqueued]
      rfl

theorem map_renew_keys (l : List (UInt64 × Waker)) (k : UInt64) (w : Waker) :
    (l.map fun t => if t.1 == k then (k, w) else t).map Prod.fst = l.map Prod.fst := by
  rw [List.map_map]
  apply List.map_congr_left
  intro t _
  by_cases hk : t.1 = k <;> simp [hk]

theorem register_old_books {k : UInt64} (w : Waker) (h : s.Books n age (k :: K) T)
    (hdown : s.word.signaled = false) :
    (s.register w ⟨some k⟩).state.Books n age (k :: K) T := by
  rcases register_old_cases w k s with ⟨⟨t₀, ht₀, hk₀⟩, hcase⟩ | ⟨hout, hcase⟩
  · rw [hcase, Outcome.pure_state]
    refine
      { stands := h.stands
        threads := h.threads
        linked := fun hyoung => ?_
        awake := fun _ => awake_of_down hdown }
    have hold := h.linked hyoung
    refine { hold with tasks_distinct := ?_, tasks_registered := fun t ht => ?_ }
    · rw [map_renew_keys]
      exact hold.tasks_distinct
    · have hmem : t.1 ∈ s.tasks.map Prod.fst := by
        rw [← map_renew_keys s.tasks k w]
        exact List.mem_map_of_mem ht
      obtain ⟨t', ht', heq⟩ := List.mem_map.mp hmem
      rw [← heq]
      exact hold.tasks_registered t' ht'
  · rw [hcase, Outcome.pure_state]
    refine
      { stands := h.stands
        threads := h.threads
        linked := fun hyoung => ?_
        awake := fun _ => awake_of_down hdown }
    have hold := h.linked hyoung
    refine { hold with tasks_distinct := ?_, tasks_registered := fun t ht => ?_ }
    · rw [List.map_append, List.nodup_append]
      refine ⟨hold.tasks_distinct, by simp, ?_⟩
      rintro k₁ hk₁ k₂ hk₂ rfl
      obtain ⟨t, ht, rfl⟩ := List.mem_map.mp hk₁
      exact hout t ht (by simpa using hk₂)
    · rcases List.mem_append.mp ht with hmem | hmem
      · exact hold.tasks_registered t hmem
      · obtain rfl := List.mem_singleton.mp hmem
        exact List.mem_cons_self

theorem lookup_renew {l : List (UInt64 × Waker)} {k : UInt64} (w : Waker)
    (h : ∃ t ∈ l, t.1 = k) :
    (l.map fun t => if t.1 == k then (k, w) else t).lookup k = some w := by
  induction l with
  | nil => simp at h
  | cons t₀ l ih =>
    obtain ⟨k₀, w₀⟩ := t₀
    by_cases hk : k₀ = k
    · simp [hk]
    · have hne : (k == k₀) = false := beq_eq_false_iff_ne.mpr (Ne.symm hk)
      obtain ⟨t, ht, htk⟩ := h
      have ht' : t ∈ l := by
        rcases List.mem_cons.mp ht with rfl | hmem
        · exact absurd htk hk
        · exact hmem
      simp only [List.map_cons, beq_eq_false_iff_ne.mpr hk, Bool.false_eq_true, if_false,
        List.lookup_cons, hne]
      exact ih ⟨t, ht', htk⟩

theorem lookup_renew_ne {l : List (UInt64 × Waker)} {k k' : UInt64} (w : Waker) (h : k' ≠ k) :
    (l.map fun t => if t.1 == k then (k, w) else t).lookup k' = l.lookup k' := by
  induction l with
  | nil => rfl
  | cons t₀ l ih =>
    obtain ⟨k₀, w₀⟩ := t₀
    by_cases hk : k₀ = k
    · subst hk
      simp only [List.map_cons, beq_self_eq_true, if_true, List.lookup_cons,
        beq_eq_false_iff_ne.mpr h, ih]
    · simp only [List.map_cons, beq_eq_false_iff_ne.mpr hk, Bool.false_eq_true, if_false,
        List.lookup_cons, ih]

theorem register_old_asleepAs (w : Waker) (k : UInt64) (s : Slim) :
    (s.register w ⟨some k⟩).state.asleepAs k = some w := by
  rcases register_old_cases w k s with ⟨hqueued, hcase⟩ | ⟨hout, hcase⟩
  · rw [hcase]
    exact lookup_renew w hqueued
  · have hnone : s.tasks.lookup k = none := by
      rw [List.lookup_eq_none_iff]
      exact fun t ht => bne_iff_ne.mpr (Ne.symm (hout t ht))
    rw [hcase, Outcome.pure_state, asleepAs, List.lookup_append, hnone]
    simp

theorem register_old_keeps (w : Waker) {k k' : UInt64} (s : Slim) (hne : k' ≠ k) (w' : Waker)
    (hasleep : s.asleepAs k' = some w') :
    (s.register w ⟨some k⟩).state.asleepAs k' = some w' := by
  rcases register_old_cases w k s with ⟨_, hcase⟩ | ⟨_, hcase⟩
  · rw [hcase, Outcome.pure_state, asleepAs, lookup_renew_ne w hne]
    exact hasleep
  · rw [hcase, Outcome.pure_state, asleepAs, List.lookup_append]
    have hlookup : s.tasks.lookup k' = some w' := hasleep
    rw [hlookup]
    rfl

theorem register_new_turn (w : Waker) (hp : s.word.Stands n p) (hroom : n + 1 < 4294967296) :
    Turn s (s.register w .fresh).state (s.register w .fresh).effects [.join] none := by
  rw [register_new]
  refine turn_of hp (hp.enter hroom) (.one (.join p n)) fun k w' hasleep => Or.inl ?_
  rw [Outcome.pure_state, asleepAs, List.lookup_append]
  have hlookup : s.tasks.lookup k = some w' := hasleep
  rw [hlookup]
  rfl

theorem register_old_turn (w : Waker) (k : UInt64) (hp : s.word.Stands n p) :
    Turn s (s.register w ⟨some k⟩).state (s.register w ⟨some k⟩).effects [] (some k) where
  counts := by
    have hword : (s.register w ⟨some k⟩).state.word = s.word := by
      rcases register_old_cases w k s with ⟨_, hcase⟩ | ⟨_, hcase⟩ <;> rw [hcase] <;> rfl
    rw [countsOf_eq hp, countsOf_eq (hword ▸ hp)]
    exact .nil _
  heard k' w' hne hasleep :=
    Or.inl (register_old_keeps w s (fun heq => hne (congrArg some heq.symm)) w' hasleep)

/-! ### Polling -/

theorem tryWait_down (h : s.word.Stands n 0) : s.tryWait = .pure false s := by
  rcases tryWait_cases h with ⟨_, htry⟩ | ⟨hone, _⟩ | ⟨q, hq, _⟩
  · exact htry
  · exact absurd hone (by decide)
  · omega

theorem tryWait_up (h : s.word.Stands n (p + 1)) : s.tryWait.answer = true := by
  rw [tryWait_answer h]
  exact decide_eq_true (Nat.succ_pos p)

/-- Whoever takes a release and leaves drops none of the others. -/
theorem take_leave_stands (h : s.word.Stands (n + 1) (p + 1)) :
    s.tryWait.state.word.leave.Stands n p := by
  have hcapped := h.capped
  have hmin : min p (n + 1) = p := by omega
  have hleave := (tryWait_stands h).leave
  rw [Nat.add_sub_cancel, hmin] at hleave
  exact hleave

/-- A poll that finds no release registers. -/
theorem pollWait_down (w : Waker) (key : WaitKey) (h : s.word.Stands n 0) :
    s.pollWait w key = (s.register w key).map fun key => (false, key) := by
  simp only [pollWait, tryWait_down h, Outcome.pure_andThen, Bool.false_eq_true, if_false]

/-- A poll that takes a release gives up its registration. -/
theorem pollWait_up (w : Waker) (key : WaitKey) (h : s.word.Stands n (p + 1)) :
    s.pollWait w key
      = s.tryWait.andThen fun _ s => (s.withdraw key).map fun _ => (true, .fresh) := by
  have hanswer := tryWait_up h
  simp only [pollWait, Outcome.andThen, hanswer, if_true]

/-- Whoever takes a release and then gives up its registration has its wait resolved. -/
theorem take_withdraw_turn {k : UInt64} {q : Nat} (hp : s.word.Stands (n + 1) (q + 1)) :
    let o := s.tryWait.andThen fun _ s => (s.withdraw ⟨some k⟩).map fun _ => (true, WaitKey.fresh)
    Turn s o.state o.effects [.resolve] (some k) := by
  intro o
  have hcapped := hp.capped
  refine ⟨?_, fun k' w hne hasleep => ?_⟩
  · have hmin : min q (n + 1) = q := by omega
    have hcounts := withdraw_counts (k := k) (tryWait_stands hp)
    rw [Nat.add_sub_cancel, hmin] at hcounts
    rw [countsOf_eq hp]
    show Counts.Path _ _ (countsOf (s.tryWait.state.withdraw ⟨some k⟩).state)
    rw [hcounts]
    exact .one (.resolve q n)
  · have hne' : k' ≠ k := fun heq => hne (congrArg some heq.symm)
    rcases tryWait_heard hp k' w hasleep with hstill | hwoken
    · rcases withdraw_heard k s.tryWait.state k' w hne' hstill with hstill' | hwoken'
      · exact Or.inl hstill'
      · exact Or.inr (List.mem_append.mpr (Or.inr hwoken'))
    · exact Or.inr (List.mem_append.mpr (Or.inl hwoken))

/-- The first poll of a task takes a release, or registers the task under a new ticket. -/
theorem poll_idle (w : Waker) (h : s.Sound age K T)
    (sparse : K.length + T.length < 2147483648) :
    let o := s.pollWait w .fresh
    (o.answer = (true, .fresh) ∧ o.state.Sound (age + 1) K T ∧
      Turn s o.state o.effects [.take] none) ∨
    (∃ k, o.answer = (false, ⟨some k⟩) ∧ o.state.Sound (age + 1) (k :: K) T ∧
      Turn s o.state o.effects [.join] none ∧
      (age < UInt64.size → o.state.asleepAs k = some w)) := by
  obtain ⟨p, hp⟩ := h.stands
  have hroom : K.length + T.length + 1 < 4294967296 := by omega
  intro o
  cases p with
  | zero =>
    have ho : o = _ := pollWait_down w .fresh hp
    have hbooks := register_new_books w h hp.signaled_eq hroom
    have hcount : (s.nextKey :: K).length + T.length = K.length + T.length + 1 := by
      rw [List.length_cons]
      omega
    refine Or.inr ⟨s.nextKey, ?_, ?_, ?_, fun hyoung => ?_⟩
    · rw [ho, register_new]
      rfl
    · rw [ho, Outcome.map_state, Sound, hcount]
      exact hbooks
    · rw [ho]
      exact register_new_turn w hp hroom
    · rw [ho, Outcome.map_state]
      exact register_new_asleepAs w (h.linked hyoung)
  | succ q =>
    have ho : o = _ := pollWait_up w .fresh hp
    refine Or.inl ⟨?_, ?_, ?_⟩
    · rw [ho]
      rfl
    · rw [ho]
      exact (tryWait_books hp h.threads h.linked).older
    · rw [ho]
      have hturn := tryWait_turn hp
      rw [tryWait_up hp] at hturn
      simpa [withdraw, WaitKey.fresh] using hturn

/-- Another poll of a registered task takes a release and ends the registration, or leaves the
    task asleep under its new waker. -/
theorem poll_registered {k : UInt64} (w : Waker) (h : s.Sound age (k :: K) T) :
    let o := s.pollWait w ⟨some k⟩
    (o.answer = (true, .fresh) ∧ o.state.Sound (age + 1) K T ∧
      Turn s o.state o.effects [.resolve] (some k)) ∨
    (o.answer = (false, ⟨some k⟩) ∧ o.state.Sound (age + 1) (k :: K) T ∧
      Turn s o.state o.effects [] (some k) ∧ o.state.asleepAs k = some w) := by
  obtain ⟨p, hp⟩ := h.stands
  have hcount : (k :: K).length + T.length = K.length + T.length + 1 := by
    rw [List.length_cons]
    omega
  intro o
  cases p with
  | zero =>
    have ho : o = _ := pollWait_down w ⟨some k⟩ hp
    refine Or.inr ⟨?_, ?_, ?_, ?_⟩
    · rw [ho]
      rcases register_old_cases w k s with ⟨_, hcase⟩ | ⟨_, hcase⟩ <;> rw [hcase] <;> rfl
    · rw [ho]
      exact (register_old_books w h hp.signaled_eq).older
    · rw [ho]
      exact register_old_turn w k hp
    · rw [ho]
      exact register_old_asleepAs w k s
  | succ q =>
    have ho : o = _ := pollWait_up w ⟨some k⟩ hp
    have htried := tryWait_books hp h.threads h.linked
    have hleft := tryWait_stands hp
    rw [hcount] at htried hleft
    refine Or.inl ⟨?_, ?_, ?_⟩
    · rw [ho]
      rfl
    · rw [ho]
      exact (withdraw_books htried).older
    · rw [ho]
      exact take_withdraw_turn (hcount ▸ hp)

/-! ### Threads -/

/-- Another number of waiters in the word, for the same releases. -/
theorem Books.recount {m : Nat} {w' : Word} (h : s.Books m age K T) (hp : s.word.Stands m p)
    (hp' : w'.Stands n p) : ({ s with word := w' } : Slim).Books n age K T where
  stands := ⟨p, hp'⟩
  threads := h.threads
  linked hyoung := (h.linked hyoung).same rfl rfl
  awake hyoung hup := by
    refine h.awake hyoung ?_
    rw [hp.signaled_eq, ← hp'.signaled_eq]
    exact hup

/-- A thread takes a release; if there is none it falls asleep. -/
theorem block_cases (t : Thread) (hp : s.word.Stands n p) (hroom : n + 1 < 4294967296) :
    (p = 0 ∧ ∃ w', w'.Stands (n + 1) 0 ∧
      s.block t = .pure false { s with word := w', asleep := s.asleep ++ [t] }) ∨
    (0 < p ∧ s.block t = s.tryWait) := by
  cases p with
  | zero =>
    refine Or.inl ⟨rfl, s.word.enter, hp.enter hroom, ?_⟩
    simp only [block, tryWait_down hp, Outcome.pure_andThen, Bool.false_eq_true, if_false]
  | succ q =>
    refine Or.inr ⟨Nat.succ_pos q, ?_⟩
    have hanswer := tryWait_up hp
    simp only [block, Outcome.andThen, hanswer, if_true, Outcome.pure_answer,
      Outcome.pure_state, Outcome.pure_effects, List.append_nil]
    rw [← hanswer]

theorem block_lawful (t : Thread) (h : s.Sound age K T)
    (sparse : K.length + T.length < 2147483648) :
    let o := s.block t
    (o.answer = true ∧ o.state.Sound age K T ∧ Turn s o.state o.effects [.take] none) ∨
    (o.answer = false ∧ o.state.Sound age K (t :: T) ∧ Turn s o.state o.effects [.join] none) := by
  obtain ⟨p, hp⟩ := h.stands
  simp only []
  rcases block_cases t hp (by omega) with ⟨rfl, w', hw', hcase⟩ | ⟨hpos, hcase⟩
  · rw [hcase]
    refine Or.inr ⟨rfl, ?_, ?_⟩
    · exact
        { stands := ⟨0, hw'⟩
          threads := by
            simp only [Outcome.pure_state, List.append_assoc, List.singleton_append]
            exact (h.threads.cons t).trans List.perm_middle.symm
          linked := fun hyoung => (h.linked hyoung).same rfl rfl
          awake := fun _ => awake_of_down hw'.signaled_eq }
    · exact turn_of hp hw' (.one (.join 0 _)) fun _ _ hasleep => Or.inl hasleep
  · rw [hcase]
    have hanswer := tryWait_answer hp
    rw [decide_eq_true hpos] at hanswer
    have hturn := tryWait_turn hp
    rw [hanswer] at hturn
    exact Or.inl ⟨hanswer, tryWait_books hp h.threads h.linked, hturn⟩

/-- A wait that is over at once takes a release; if there is none it registers and leaves. -/
theorem expire_cases (hp : s.word.Stands n p) (hroom : n + 1 < 4294967296) :
    (p = 0 ∧ ∃ w', w'.Stands n 0 ∧ s.expire
      = ⟨false, { s with word := w' }, [.reported s.observer .waitCancelled]⟩) ∨
    (0 < p ∧ s.expire = s.tryWait) := by
  cases p with
  | zero =>
    have hleave := (hp.enter hroom).leave
    rw [Nat.zero_min] at hleave
    refine Or.inl ⟨rfl, s.word.enter.leave, hleave, ?_⟩
    simp only [expire, tryWait_down hp, Outcome.pure_andThen, Bool.false_eq_true, if_false]
  | succ q =>
    refine Or.inr ⟨Nat.succ_pos q, ?_⟩
    have hanswer := tryWait_up hp
    simp only [expire, Outcome.andThen, hanswer, if_true, Outcome.pure_answer,
      Outcome.pure_state, Outcome.pure_effects, List.append_nil]
    rw [← hanswer]

theorem expire_lawful (h : s.Sound age K T) (sparse : K.length + T.length < 2147483648) :
    let o := s.expire
    o.state.Sound age K T ∧
      Turn s o.state o.effects (if o.answer then [.take] else [.join, .withdraw]) none := by
  obtain ⟨p, hp⟩ := h.stands
  simp only []
  rcases expire_cases hp (by omega) with ⟨rfl, w', hw', hcase⟩ | ⟨hpos, hcase⟩
  · rw [hcase]
    refine ⟨?_, turn_of hp hw' ?_ fun _ _ hasleep => Or.inl hasleep⟩
    · exact
        { stands := ⟨0, hw'⟩
          threads := h.threads
          linked := fun hyoung => (h.linked hyoung).same rfl rfl
          awake := fun _ => awake_of_down hw'.signaled_eq }
    · have hwithdraw := Counts.Step.withdraw 0 (K.length + T.length)
      rw [Nat.zero_min] at hwithdraw
      exact .cons (.join 0 _) (.one hwithdraw)
  · rw [hcase]
    have hanswer := tryWait_answer hp
    rw [decide_eq_true hpos] at hanswer
    have hturn := tryWait_turn hp
    rw [hanswer] at hturn ⊢
    exact ⟨tryWait_books hp h.threads h.linked, hturn⟩

/-- The signal without a sleeping thread. -/
def without_thread (t : Thread) (s : Slim) : Slim := { s with asleep := s.asleep.erase t }

/-- A thread whose time is over tries for a release, and leaves with it or without. -/
theorem timeUp_cases (t : Thread) (hp : s.word.Stands (n + 1) p) :
    (p = 0 ∧ ∃ w', w'.Stands n 0 ∧ s.timeUp t
      = ⟨false, { s with asleep := s.asleep.erase t, word := w' },
        [.reported s.observer .waitCancelled]⟩) ∨
    (∃ q, p = q + 1 ∧ ∃ w', w'.Stands n q ∧ s.timeUp t
      = (s.without_thread t).tryWait.andThen fun _ s => .pure true { s with word := w' }) := by
  have hp₁ : (s.without_thread t).word.Stands (n + 1) p := hp
  cases p with
  | zero =>
    have hleave := hp.leave
    rw [Nat.zero_min] at hleave
    refine Or.inl ⟨rfl, s.word.leave, hleave, ?_⟩
    have hdown := tryWait_down hp₁
    simp only [without_thread] at hdown
    simp only [timeUp, hdown, Outcome.pure_andThen, Bool.false_eq_true, if_false]
  | succ q =>
    refine Or.inr ⟨q, rfl, _, take_leave_stands hp₁, ?_⟩
    have hanswer := tryWait_up hp₁
    simp only [without_thread] at hanswer
    simp only [timeUp, without_thread, Outcome.andThen, hanswer, if_true, Outcome.pure_answer,
      Outcome.pure_state, Outcome.pure_effects]

theorem timeUp_lawful {t : Thread} (h : s.Sound age K (t :: T)) (rested : s.roused = []) :
    let o := s.timeUp t
    o.state.Sound age K T ∧
      Turn s o.state o.effects (if o.answer then [.resolve] else [.withdraw]) none := by
  obtain ⟨p, hp⟩ := h.stands
  rw [List.length_cons, ← Nat.add_assoc] at hp
  have hthreads : T.Perm (s.asleep.erase t ++ s.roused) := by
    have herase := h.threads.erase t
    rw [rested, List.append_nil, List.erase_cons_head] at herase
    rw [rested, List.append_nil]
    exact herase
  simp only []
  rcases timeUp_cases t hp with ⟨rfl, w', hw', hcase⟩ | ⟨q, rfl, w', hw', hcase⟩
  · rw [hcase]
    refine ⟨?_, turn_of hp hw' ?_ fun _ _ hasleep => Or.inl hasleep⟩
    · exact
        { stands := ⟨0, hw'⟩
          threads := hthreads
          linked := fun hyoung => (h.linked hyoung).same rfl rfl
          awake := fun _ => awake_of_down hw'.signaled_eq }
    · have hwithdraw := Counts.Step.withdraw 0 (K.length + T.length)
      rw [Nat.zero_min] at hwithdraw
      exact .one hwithdraw
  · have hp₁ : (s.without_thread t).word.Stands (K.length + T.length + 1) (q + 1) := hp
    have htried : (s.without_thread t).tryWait.state.Books _ age K T :=
      tryWait_books hp₁ hthreads fun hyoung => (h.linked hyoung).same rfl rfl
    have hheard : s.Heard _ (s.without_thread t).tryWait.effects := tryWait_heard hp₁
    rw [hcase]
    refine ⟨htried.recount (tryWait_stands hp₁) hw', ?_⟩
    simp only [Outcome.andThen, Outcome.pure_answer, Outcome.pure_state, Outcome.pure_effects,
      if_true, List.append_nil]
    exact turn_of hp hw' (.one (.resolve q _)) hheard

/-! ### Roused threads -/

/-- The signal with other threads roused. -/
def withRoused (roused : List Thread) (s : Slim) : Slim := { s with roused := roused }

/-- A roused thread takes a release and leaves, or sleeps again. -/
theorem resume_cases {t : Thread} {rest : List Thread} (hroused : s.roused = t :: rest)
    (hp : s.word.Stands (n + 1) p) :
    (p = 0 ∧ s.resume = .pure none { s with roused := rest, asleep := s.asleep ++ [t] }) ∨
    (∃ q, p = q + 1 ∧ ∃ w', w'.Stands n q ∧ s.resume
      = (s.withRoused rest).tryWait.andThen fun _ s => .pure (some t) { s with word := w' }) := by
  have hp₁ : (s.withRoused rest).word.Stands (n + 1) p := hp
  cases p with
  | zero =>
    refine Or.inl ⟨rfl, ?_⟩
    have hdown := tryWait_down hp₁
    simp only [withRoused] at hdown
    simp only [resume, hroused, hdown, Outcome.pure_andThen, Bool.false_eq_true, if_false]
  | succ q =>
    refine Or.inr ⟨q, rfl, _, take_leave_stands hp₁, ?_⟩
    have hanswer := tryWait_up hp₁
    simp only [withRoused] at hanswer
    simp only [resume, hroused, withRoused, Outcome.andThen, hanswer, if_true,
      Outcome.pure_answer, Outcome.pure_state, Outcome.pure_effects]

theorem wakeOne_roused (s : Slim) :
    s.wakeOne.state.roused.length ≤ s.roused.length + 1 := by
  unfold wakeOne
  split
  · exact Nat.le_succ _
  · simp
  · exact Nat.le_succ _

theorem tryWait_roused (hp : s.word.Stands n p) :
    s.tryWait.state.roused.length ≤ s.roused.length + 1 := by
  rcases tryWait_cases hp with ⟨_, htry⟩ | ⟨_, w', _, htry⟩ | ⟨q, _, w', _, htry⟩
  · rw [htry]
    exact Nat.le_succ _
  · rw [htry]
    exact Nat.le_succ _
  · rw [htry, Outcome.map_state]
    exact wakeOne_roused { s with word := w' }

/-- How many more runs the roused threads can take: a run takes one of them off, and at most one
    that is asleep is roused by it; or it falls asleep for good. -/
def unrest (s : Slim) : Nat := 2 * s.asleep.length + 3 * s.roused.length

theorem resume_lawful {t : Thread} {rest : List Thread} (hroused : s.roused = t :: rest)
    (h : s.Sound age K T) :
    let o := s.resume
    (∃ T', T.Perm (o.answer.toList ++ T') ∧ o.state.Sound age K T') ∧
      Turn s o.state o.effects (List.replicate o.answer.toList.length .resolve) none ∧
      o.state.unrest < s.unrest := by
  obtain ⟨p, hp⟩ := h.stands
  have hmem : t ∈ T := by
    rw [h.threads.mem_iff, hroused]
    exact List.mem_append_right _ List.mem_cons_self
  obtain ⟨T₁, hT⟩ : ∃ T₁, T.Perm (t :: T₁) := ⟨T.erase t, List.perm_cons_erase hmem⟩
  have hcount : K.length + T.length = K.length + T₁.length + 1 := by
    rw [hT.length_eq, List.length_cons]
    omega
  have hthreads : (t :: T₁).Perm (s.asleep ++ t :: rest) := hT.symm.trans (hroused ▸ h.threads)
  have hothers : T₁.Perm (s.asleep ++ rest) :=
    (List.perm_cons t).mp (hthreads.trans List.perm_middle)
  rw [hcount] at hp
  simp only []
  rcases resume_cases hroused hp with ⟨rfl, hcase⟩ | ⟨q, rfl, w', hw', hcase⟩
  · rw [hcase]
    refine ⟨⟨T, List.Perm.refl _, ?_⟩, ?_, ?_⟩
    · exact
        { stands := ⟨0, hcount ▸ hp⟩
          threads := by
            simp only [Outcome.pure_state, List.append_assoc, List.singleton_append]
            exact hroused ▸ h.threads
          linked := fun hyoung => (h.linked hyoung).same rfl rfl
          awake := fun _ => awake_of_down hp.signaled_eq }
    · exact turn_of hp hp (.nil _) fun _ _ hasleep => Or.inl hasleep
    · simp only [unrest, Outcome.pure_state, hroused, List.length_append, List.length_cons,
        List.length_nil]
      omega
  · have hp₁ : (s.withRoused rest).word.Stands (K.length + T₁.length + 1) (q + 1) := hp
    have htried : (s.withRoused rest).tryWait.state.Books _ age K T₁ :=
      tryWait_books hp₁ hothers fun hyoung => (h.linked hyoung).same rfl rfl
    have hheard : s.Heard _ (s.withRoused rest).tryWait.effects := tryWait_heard hp₁
    rw [hcase]
    refine ⟨⟨T₁, hT, htried.recount (tryWait_stands hp₁) hw'⟩, ?_, ?_⟩
    · simp only [Outcome.andThen, Outcome.pure_answer, Outcome.pure_state, Outcome.pure_effects,
        List.append_nil]
      exact turn_of hp hw' (.one (.resolve q _)) hheard
    · have hlength := htried.threads.length_eq
      have hroused' : (s.withRoused rest).tryWait.state.roused.length ≤ rest.length + 1 :=
        tryWait_roused hp₁
      rw [hothers.length_eq, List.length_append, List.length_append] at hlength
      simp only [unrest, Outcome.andThen_state, Outcome.pure_state, hroused, List.length_cons]
      omega

/-- With enough runs every roused thread has returned or sleeps again. -/
theorem runRoused_lawful (fuel : Nat) : ∀ {s : Slim} {T : List Thread}, s.Sound age K T →
    s.unrest ≤ fuel →
    let o := s.runRoused fuel
    ∃ T', T.Perm (o.answer ++ T') ∧ o.state.Sound age K T' ∧ o.state.roused = [] ∧
      Turn s o.state o.effects (List.replicate o.answer.length .resolve) none := by
  induction fuel with
  | zero =>
    intro s T h hfuel
    have hroused : s.roused = [] := by
      apply List.eq_nil_of_length_eq_zero
      unfold unrest at hfuel
      omega
    exact ⟨T, List.Perm.refl _, h, hroused, .refl s none⟩
  | succ fuel ih =>
    intro s T h hfuel
    cases hroused : s.roused with
    | nil =>
      have hrun : s.runRoused (fuel + 1) = .pure [] s := by
        simp only [runRoused, hroused, List.isEmpty_nil, if_true]
      simp only [hrun]
      exact ⟨T, List.Perm.refl _, h, hroused, .refl s none⟩
    | cons t rest =>
      have hrun : s.runRoused (fuel + 1)
          = s.resume.andThen fun t s => (runRoused fuel s).map fun ts => t.toList ++ ts := by
        simp only [runRoused, hroused, List.isEmpty_cons, Bool.false_eq_true, if_false]
      obtain ⟨⟨T₁, hT₁, hsound₁⟩, hturn₁, hless⟩ := resume_lawful hroused h
      obtain ⟨T₂, hT₂, hsound₂, hrested, hturn₂⟩ := ih hsound₁ (by omega)
      simp only [hrun]
      refine ⟨T₂, ?_, hsound₂, hrested, ?_⟩
      · refine hT₁.trans ?_
        simp only [Outcome.andThen_answer, Outcome.map_answer, List.append_assoc]
        exact hT₂.append_left _
      · have hturn := hturn₁.trans hturn₂
        rw [← List.replicate_add, ← List.length_append] at hturn
        exact hturn

/-! ### The laws -/

theorem new_sound (observer : Observer) : (Slim.new observer).Sound 0 [] [] where
  stands := ⟨0, Word.stands_zero⟩
  threads := .refl _
  linked _ := ⟨.nil, .nil, by simp [Slim.new], by simp, Nat.le_refl _⟩
  awake _ := awake_of_down rfl

theorem Books.perm {K' : List UInt64} {T' : List Thread} (h : s.Books n age K T)
    (hK : K.Perm K') (hT : T.Perm T') : s.Books n age K' T' where
  stands := h.stands
  threads := hT.symm.trans h.threads
  linked hyoung :=
    have hlinked := h.linked hyoung
    { distinct := hK.nodup_iff.mp hlinked.distinct
      tasks_distinct := hlinked.tasks_distinct
      tasks_registered := fun t ht => hK.mem_iff.mp (hlinked.tasks_registered t ht)
      fresh := fun k hk => hlinked.fresh k (hK.mem_iff.mpr hk)
      counted := hlinked.counted }
  awake hyoung := by
    have hawake := h.awake hyoung
    rw [Awake, ← hK.length_eq]
    exact hawake

/-- A release that is pending while somebody is registered has a task on the way, once the roused
    threads have run. -/
theorem Books.awake_task (h : s.Sound age K T) (young : age < UInt64.size) (rested : s.roused = [])
    (up : s.word.signaled = true) (registered : 0 < K.length + T.length) :
    ∃ k ∈ K, s.asleepAs k = none := by
  have hlinked := h.linked young
  have hless : s.tasks.length < K.length := by
    by_cases hsleeper : s.tasks ≠ [] ∨ s.asleep ≠ []
    · exact (h.awake young up hsleeper).resolve_right fun hne => hne rested
    · have hthreads := h.threads.length_eq
      rw [not_or, not_not, not_not] at hsleeper
      rw [hsleeper.2, rested, List.append_nil, List.length_nil] at hthreads
      rw [hsleeper.1, List.length_nil]
      omega
  -- more tickets than sleeping tasks: one of them belongs to no sleeping task
  by_contra hnone
  have hsub : K ⊆ s.tasks.map Prod.fst := by
    intro k hk
    by_contra hout
    refine hnone ⟨k, hk, ?_⟩
    rw [asleepAs, List.lookup_eq_none_iff]
    intro t ht
    exact bne_iff_ne.mpr fun heq => hout (List.mem_map.mpr ⟨t, ht, heq.symm⟩)
  have hle := (List.Nodup.subperm hlinked.distinct hsub).length_le
  rw [List.length_map] at hle
  omega

theorem Sound.registered (h : s.Sound age K T) : s.registeredWaits = K.length + T.length := by
  obtain ⟨p, hp⟩ := h.stands
  exact hp.waiters_toNat

theorem signaled_of_pending (h : s.Sound age K T) (hpending : 0 < s.pendingReleases) :
    s.word.signaled = true := by
  obtain ⟨p, hp⟩ := h.stands
  rw [pendingReleases, hp.pending_eq] at hpending
  rw [hp.signaled_eq]
  exact decide_eq_true hpending

/-- Giving up a registration and reporting it. -/
theorem cancelWait_lawful {k : UInt64} (h : s.Sound age (k :: K) T) :
    let o := s.cancelWait ⟨some k⟩
    o.state.Sound age K T ∧ Turn s o.state o.effects [.withdraw] (some k) := by
  have hcount : (k :: K).length + T.length = K.length + T.length + 1 := by
    rw [List.length_cons]
    omega
  have hbooks : s.Books (K.length + T.length + 1) age (k :: K) T := hcount ▸ h
  obtain ⟨p, hp⟩ := hbooks.stands
  simp only [cancelWait, Outcome.andThen_state, Outcome.andThen_effects]
  refine ⟨withdraw_books hbooks, ?_, fun k' w hne hasleep => ?_⟩
  · rw [countsOf_eq hp, withdraw_counts hp]
    exact .one (.withdraw p _)
  · have hne' : k' ≠ k := fun heq => hne (congrArg some heq.symm)
    exact (withdraw_heard k s k' w hne' hasleep).imp_right (List.mem_append_left _)

theorem stage_eq (key : WaitKey) :
    (key = .fresh ∧ Staged.stage (Wait.mk key) = .idle) ∨
    ∃ k, key = ⟨some k⟩ ∧ Staged.stage (Wait.mk key) = .registered k := by
  obtain ⟨id⟩ := key
  cases id with
  | none => exact Or.inl ⟨rfl, rfl⟩
  | some k => exact Or.inr ⟨k, rfl, rfl⟩

instance : LawfulSignal Slim Slim.Wait UInt64 where
  young_of_le hle young := Nat.lt_of_le_of_lt hle young
  sparse_of_few few := few
  new := new_sound
  new_counts observer :=
    countsOf_eq (show (Slim.new observer).word.Stands 0 0 from Word.stands_zero)
  new_rested _ := rfl
  perm hK hT h := by
    have hbooks := Books.perm h hK hT
    rw [hK.length_eq, hT.length_eq] at hbooks
    exact hbooks
  older h := Books.older h
  distinct h young := (Books.linked h young).distinct
  registered h := Sound.registered h
  awake h young rested pending registered :=
    Books.awake_task h young rested (signaled_of_pending h pending)
      (Sound.registered h ▸ registered)
  set {age K T s} h sparse := by
    have hfew : K.length + T.length < 2147483648 := Sound.registered h ▸ sparse
    obtain ⟨p, hp⟩ := Books.stands h
    refine ⟨set_sound h hfew, ⟨?_, fun k w _ hasleep => set_heard s k w hasleep⟩⟩
    rw [countsOf_eq hp]
    exact set_counts hp hfew ▸ .one (.set p _)
  tryWait h := by
    obtain ⟨p, hp⟩ := Books.stands h
    exact ⟨tryWait_books hp (Books.threads h) (Books.linked h), tryWait_turn hp⟩
  wait_idle := rfl
  poll_idle {age K T s wait} w hwait h sparse := by
    have hfew : K.length + T.length < 2147483648 := Sound.registered h ▸ sparse
    obtain ⟨key⟩ := wait
    rcases stage_eq key with ⟨rfl, _⟩ | ⟨k, rfl, hstage⟩
    · rcases poll_idle w h hfew with ⟨hanswer, hsound, hturn⟩ | ⟨k, hanswer, hsound, hturn, hsleeps⟩
      · exact Or.inl ⟨congrArg Prod.fst hanswer,
          congrArg (fun r => (Staged.stage (Wait.mk r.2)).ticket?) hanswer, hsound, hturn⟩
      · exact Or.inr ⟨congrArg Prod.fst hanswer, k,
          congrArg (fun r => Staged.stage (Wait.mk r.2)) hanswer, hsound, hturn, hsleeps⟩
    · exact absurd (hstage.symm.trans hwait) (by simp)
  poll_registered {age K T s wait t} w hwait h := by
    obtain ⟨key⟩ := wait
    rcases stage_eq key with ⟨rfl, hstage⟩ | ⟨k, rfl, hstage⟩
    · exact absurd (hstage.symm.trans hwait) (by simp)
    · obtain rfl : k = t := by simpa using hstage.symm.trans hwait
      rcases poll_registered w h with ⟨hanswer, hsound, hturn⟩ | ⟨hanswer, hsound, hturn, hsleeps⟩
      · exact Or.inl ⟨congrArg Prod.fst hanswer,
          congrArg (fun r => (Staged.stage (Wait.mk r.2)).ticket?) hanswer, hsound, hturn⟩
      · exact Or.inr ⟨congrArg Prod.fst hanswer,
          congrArg (fun r => Staged.stage (Wait.mk r.2)) hanswer, hsound, hturn, hsleeps⟩
  poll_over {s wait} w hwait := by
    obtain ⟨key⟩ := wait
    rcases stage_eq key with ⟨_, hstage⟩ | ⟨k, _, hstage⟩ <;>
      exact absurd (hstage.symm.trans hwait) (by simp)
  drop_registered {age K T s wait t} hwait h := by
    obtain ⟨key⟩ := wait
    rcases stage_eq key with ⟨rfl, hstage⟩ | ⟨k, rfl, hstage⟩
    · exact absurd (hstage.symm.trans hwait) (by simp)
    · obtain rfl : k = t := by simpa using hstage.symm.trans hwait
      exact cancelWait_lawful h
  drop_other {s wait} hwait := by
    obtain ⟨key⟩ := wait
    rcases stage_eq key with ⟨rfl, _⟩ | ⟨k, rfl, hstage⟩
    · rfl
    · rw [hstage] at hwait
      exact absurd hwait (by simp [Stage.ticket?])
  block hoffered age K T s id h sparse := by
    obtain rfl := Option.some.inj hoffered
    exact block_lawful id h (Sound.registered h ▸ sparse)
  expire hoffered age K T s h sparse := by
    rcases hoffered with hoffered | hoffered <;>
    · obtain rfl := Option.some.inj hoffered
      exact expire_lawful h (Sound.registered h ▸ sparse)
  timeUp hoffered age K T s id h rested := by
    obtain rfl := Option.some.inj hoffered
    exact timeUp_lawful h rested
  settle h := runRoused_lawful _ h (Nat.le_refl _)
  key_stage _ := ⟨id, fun key => by cases key with | mk id => cases id <;> rfl⟩
  ofKey_toKey _ _ := rfl
  pollKey hoffered w key s := by
    obtain rfl := Option.some.inj hoffered
    rfl
  cancelKey hoffered key s := by
    obtain rfl := Option.some.inj hoffered
    rfl

end Conduit.Signal.Slim

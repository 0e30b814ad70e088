/-
  Conduit/Proofs/Signal/Dated.lean
  ================================
  **Keys that are given out once.**

  The signal in a single word gives out its keys one after another, so a key is new as
  long as they have not come round, however many waiters there are; and it owes releases
  only while its bit is up, whatever becomes of the number of waiters on top of the word.
  Neither needs the books of the signal, and both hold where the books no longer do.

  All operations but the registration of a task give out no key and queue nobody
  (`Wanes`), so a registration is the only one that has to be looked at.
-/
import Conduit.Proofs.Signal.Runs

namespace Conduit.Signal

/-! ### The word -/

namespace Word

/-- What is owed is backed by the bit: nothing is owed while it is down. -/
def Backed (w : Word) : Prop := w.signaled = false → w.owed = 0

variable {w : Word}

theorem backed_zero : (⟨0⟩ : Word).Backed := fun _ => rfl

theorem signaled_iff (w : Word) : w.signaled = true ↔ w.bits.toNat % 2 = 1 := by
  have hbit := w.holds_fields.bits
  cases hup : w.signaled <;> rw [hup] at hbit <;> simp at hbit ⊢ <;> omega

theorem signaled_congr {v : Word} (h : v.bits.toNat % 2 = w.bits.toNat % 2) :
    v.signaled = w.signaled := by
  rw [Bool.eq_iff_iff, signaled_iff, signaled_iff, h]

theorem owed_bits (w : Word) : w.owed.toNat = w.bits.toNat / 2 % 2147483648 := rfl

theorem enter_bits (w : Word) :
    w.enter.bits.toNat = (w.bits.toNat + 4294967296) % 18446744073709551616 := by
  have h32 : (4294967296 : UInt64).toNat = 4294967296 := rfl
  rw [enter, UInt64.toNat_add, h32]

theorem enter_signaled (w : Word) : w.enter.signaled = w.signaled := by
  have hbits := enter_bits w
  exact signaled_congr (by omega)

theorem enter_owed (w : Word) : w.enter.owed = w.owed := by
  have hbits := enter_bits w
  rw [← UInt64.toNat_inj, owed_bits, owed_bits]
  omega

theorem Backed.enter (h : w.Backed) : w.enter.Backed := by
  intro hdown
  rw [enter_owed]
  exact h ((enter_signaled w).symm.trans hdown)

/-- A packed word has the bit that it was given. -/
theorem pack_signaled (waiters owed : UInt64) (up : Bool) :
    (pack waiters owed up).signaled = up := by
  have hbit : (if up then (1 : UInt64) else 0).toNat = up.toNat := by cases up <;> rfl
  have h32 : (4294967296 : UInt64).toNat = 4294967296 := rfl
  have h2 : (2 : UInt64).toNat = 2 := rfl
  have hbits : (pack waiters owed up).bits.toNat % 2 = up.toNat % 2 := by
    simp only [pack, UInt64.toNat_add, UInt64.toNat_mul, hbit, h32, h2]
    omega
  rw [Bool.eq_iff_iff, signaled_iff, hbits]
  cases up <;> simp

theorem pack_owed_zero (waiters : UInt64) : (pack waiters 0 false).owed = 0 := by
  have hzero : (0 : UInt64).toNat = 0 := rfl
  have hbits : (pack waiters 0 false).bits.toNat
      = waiters.toNat * 4294967296 % 18446744073709551616 := by
    simp [pack]
  rw [← UInt64.toNat_inj, owed_bits, hbits, hzero]
  omega

theorem min_zero (n : UInt64) : min 0 n = 0 := if_pos (Nat.zero_le _)

/-- One waiter less is all that happens to a word that owes nothing. -/
theorem leave_of_down (h : w.owed = 0) : w.leave = pack (w.waiters - 1) w.owed w.signaled := by
  rw [leave, h, min_zero]

theorem Backed.leave (h : w.Backed) : w.leave.Backed := by
  intro hdown
  rw [Word.leave, pack_signaled] at hdown
  rw [leave_of_down (h hdown), hdown, h hdown]
  exact pack_owed_zero _

theorem backed_set (w : Word) : w.set.Backed := by
  have hup : w.set.signaled = true := by
    rw [signaled_iff]
    unfold Word.set
    split
    · next hdown =>
      rw [signaled_iff] at hdown
      have hbits : (w.bits + 1).toNat = (w.bits.toNat + 1) % 18446744073709551616 := rfl
      show (w.bits + 1).toNat % 2 = 1
      omega
    · next hup =>
      rw [not_not, signaled_iff] at hup
      split
      · have hbits : (w.bits + 2).toNat = (w.bits.toNat + 2) % 18446744073709551616 := rfl
        show (w.bits + 2).toNat % 2 = 1
        omega
      · exact hup
  intro hdown
  exact absurd (hup.symm.trans hdown) (by simp)

/-- What taking the signal leaves in the word is backed. -/
theorem Backed.take (h : w.Backed) : w.take.2.Backed := by
  rcases w.holds_fields.take with ⟨_, htake⟩ | ⟨_, _, w', htake, hw'⟩ | ⟨_, n, _, w', htake, hw'⟩
  · rw [htake]
    exact h
  · rw [htake]
    exact fun _ => UInt64.toNat_inj.mp hw'.owed_toNat
  · rw [htake]
    exact fun hdown => absurd (hw'.signaled_eq.symm.trans hdown) (by simp)

/-- A waiter that comes and goes leaves a word that owes nothing as it was, even if the number of
    waiters ran over in between. -/
theorem leave_enter (hdown : w.signaled = false) (howed : w.owed = 0) : w.enter.leave = w := by
  have hfields := w.holds_fields.bits
  have hlt := w.holds_fields.waiters_lt
  have henter := enter_bits w
  have hzero : (0 : UInt64).toNat = 0 := rfl
  have hone : (1 : UInt64).toNat = 1 := rfl
  have hwaiters : w.enter.waiters.toNat = w.enter.bits.toNat / 4294967296 := rfl
  have hpack : (pack (w.enter.waiters - 1) 0 false).bits.toNat
      = (w.enter.waiters - 1).toNat * 4294967296 % 18446744073709551616 := by
    simp [pack]
  rw [hdown, howed, hzero, Bool.toNat_false] at hfields
  rw [leave_of_down ((enter_owed w).trans howed), enter_owed, enter_signaled, howed, hdown]
  have hbits : (pack (w.enter.waiters - 1) 0 false).bits = w.bits := by
    rw [← UInt64.toNat_inj, hpack, UInt64.toNat_sub, hone, hwaiters, henter]
    generalize w.waiters.toNat = n at hfields hlt
    by_cases hroom : n + 1 < 4294967296
    · have hless : (w.bits.toNat + 4294967296) % 18446744073709551616 / 4294967296 = n + 1 := by
        omega
      omega
    · have hover : (w.bits.toNat + 4294967296) % 18446744073709551616 / 4294967296 = 0 := by
        omega
      omega
  cases w
  exact congrArg Word.mk hbits

end Word

/-! ### Operations that register nobody -/

namespace Slim

/-- From one state of the signal to another no key is given out and nobody is queued, and nothing
    is owed beyond a bit that is down if nothing was. -/
structure Wanes (s s' : Slim) : Prop where
  next : s'.nextKey = s.nextKey
  tasks : s'.tasks.Sublist s.tasks
  backed : s.word.Backed → s'.word.Backed

variable {s s' s'' : Slim}

theorem Wanes.refl (s : Slim) : s.Wanes s := ⟨rfl, .refl _, id⟩

theorem Wanes.trans (h : s.Wanes s') (h' : s'.Wanes s'') : s.Wanes s'' where
  next := h'.next.trans h.next
  tasks := h'.tasks.trans h.tasks
  backed hbacked := h'.backed (h.backed hbacked)

/-- The threads do not matter, and of the word only that what is owed is backed. -/
theorem Wanes.recount (h : s.Wanes s') {word : Word} (asleep roused : List Thread)
    (hbacked : s'.word.Backed → word.Backed) :
    s.Wanes { s' with word := word, asleep := asleep, roused := roused } :=
  ⟨h.next, h.tasks, fun hs => hbacked (h.backed hs)⟩

theorem wakeOne_wanes (s : Slim) : s.Wanes s.wakeOne.state := by
  unfold wakeOne
  split
  · next htasks => exact ⟨rfl, htasks ▸ List.sublist_cons_self _ _, id⟩
  · exact (Wanes.refl s).recount _ _ id
  · exact .refl s

theorem set_wanes (s : Slim) : s.Wanes s.set.state := by
  have hword : s.Wanes { s with word := s.word.set } :=
    (Wanes.refl s).recount _ _ fun _ => s.word.backed_set
  unfold set
  split
  · exact hword.trans (wakeOne_wanes _)
  · exact hword

theorem tryWait_wanes (s : Slim) : s.Wanes s.tryWait.state := by
  have htaken : s.Wanes { s with word := s.word.take.2 } :=
    (Wanes.refl s).recount _ _ fun h => h.take
  unfold tryWait
  split
  · exact .refl s
  · next word htake =>
    rw [htake] at htaken
    exact htaken
  · next word htake =>
    rw [htake] at htaken
    exact htaken.trans (wakeOne_wanes _)

/-- An attempt in vain finds the bit down and changes nothing. -/
theorem tryWait_vain (h : s.tryWait.answer = false) :
    s.word.signaled = false ∧ s.tryWait = .pure false s := by
  rcases s.word.holds_fields.take with ⟨hdown, htake⟩ | ⟨_, _, w', htake, _⟩ | ⟨_, n, _, w', htake, _⟩
  · exact ⟨hdown, by simp only [tryWait, htake]⟩
  · simp only [tryWait, htake, Outcome.pure_answer] at h
    exact absurd h (by simp)
  · simp only [tryWait, htake, Outcome.map_answer] at h
    exact absurd h (by simp)

theorem withdraw_wanes (key : WaitKey) (s : Slim) : s.Wanes (s.withdraw key).state := by
  obtain ⟨_ | k⟩ := key
  · exact .refl s
  · have hwithout : s.Wanes (s.without k) :=
      ⟨s.without_nextKey k, by rw [without_tasks]; exact List.eraseP_sublist,
        by rw [without_word]; exact fun h => h.leave⟩
    rcases withdraw_cases k s with hcase | ⟨_, hcase⟩
    · rw [hcase]
      exact hwithout.trans (wakeOne_wanes _)
    · rw [hcase]
      exact hwithout

theorem cancelWait_wanes (key : WaitKey) (s : Slim) : s.Wanes (s.cancelWait key).state := by
  rw [cancelWait, Outcome.andThen_state]
  exact withdraw_wanes key s

theorem block_wanes (t : Thread) (s : Slim) : s.Wanes (s.block t).state := by
  rw [block, Outcome.andThen_state]
  split
  · exact tryWait_wanes s
  · exact (tryWait_wanes s).recount _ _ fun h => h.enter

theorem expire_wanes (s : Slim) : s.Wanes s.expire.state := by
  rw [expire, Outcome.andThen_state]
  split
  · exact tryWait_wanes s
  · exact (tryWait_wanes s).recount _ _ fun h => h.enter.leave

theorem timeUp_wanes (t : Thread) (s : Slim) : s.Wanes (s.timeUp t).state := by
  have hawake : s.Wanes { s with asleep := s.asleep.erase t } := (Wanes.refl s).recount _ _ id
  rw [timeUp, Outcome.andThen_state]
  exact (hawake.trans (tryWait_wanes _)).recount _ _ fun h => h.leave

theorem resume_wanes (s : Slim) : s.Wanes s.resume.state := by
  unfold resume
  split
  · exact .refl s
  · next t roused _ =>
    have hrunning : s.Wanes { s with roused := roused } := (Wanes.refl s).recount _ _ id
    have htried := hrunning.trans (tryWait_wanes _)
    rw [Outcome.andThen_state]
    split
    · exact htried.recount _ _ fun h => h.leave
    · exact htried.recount _ _ id

theorem runRoused_wanes (fuel : Nat) : ∀ s : Slim, s.Wanes (s.runRoused fuel).state := by
  induction fuel with
  | zero => exact .refl
  | succ fuel ih =>
    intro s
    unfold runRoused
    split
    · exact .refl s
    · exact (resume_wanes s).trans (ih _)

/-! ### Keys in order -/

/-- The keys of the queued tasks are distinct and were given out before the next one, which is no
    further on than the signal's age says; and what is owed is backed. -/
structure Dated (age : Nat) (s : Slim) : Prop where
  distinct : (s.tasks.map Prod.fst).Nodup
  before : ∀ t ∈ s.tasks, t.1.toNat < s.nextKey.toNat
  counted : s.nextKey.toNat ≤ age
  backed : s.word.Backed

/-- A key that is registered was given out before this one. -/
def Before (next : UInt64) (key : WaitKey) : Prop := ∀ k, key.id = some k → k.toNat < next.toNat

variable {age : Nat} {key : WaitKey}

theorem before_of_fresh {next : UInt64} (h : key = .fresh) : Before next key := by
  intro k hk
  rw [h] at hk
  exact absurd hk (by simp [WaitKey.fresh])

theorem Before.mono {next next' : UInt64} (h : Before next key)
    (hle : next.toNat ≤ next'.toNat) : Before next' key :=
  fun k hk => Nat.lt_of_lt_of_le (h k hk) hle

theorem Dated.wanes (h : s.Dated age) (hwanes : s.Wanes s') : s'.Dated age where
  distinct := h.distinct.sublist (hwanes.tasks.map Prod.fst)
  before t ht := hwanes.next ▸ h.before t (hwanes.tasks.subset ht)
  counted := hwanes.next ▸ h.counted
  backed := hwanes.backed h.backed

theorem Dated.older (h : s.Dated age) : s.Dated (age + 1) :=
  { h with counted := Nat.le_succ_of_le h.counted }

/-- The next key is not in the queue. -/
theorem Dated.next_new (h : s.Dated age) : ∀ t ∈ s.tasks, t.1 ≠ s.nextKey :=
  fun t ht heq => Nat.lt_irrefl _ (heq ▸ h.before t ht)

/-- The key after the next one is further on, as long as keys have not come round. -/
theorem Dated.next_succ (h : s.Dated age) (hyoung : age + 1 < UInt64.size) :
    (s.nextKey + 1).toNat = s.nextKey.toNat + 1 := by
  have hcounted := h.counted
  have hone : (1 : UInt64).toNat = 1 := rfl
  have hsize : UInt64.size = 18446744073709551616 := rfl
  rw [UInt64.toNat_add, hone]
  omega

theorem tasks_join {l : List (UInt64 × Waker)} {k : UInt64} (w : Waker)
    (hdistinct : (l.map Prod.fst).Nodup) (hnew : ∀ t ∈ l, t.1 ≠ k) :
    ((l ++ [(k, w)]).map Prod.fst).Nodup := by
  rw [List.map_append, List.nodup_append]
  refine ⟨hdistinct, List.pairwise_singleton _ _, fun k₁ hk₁ k₂ hk₂ heq => ?_⟩
  obtain ⟨t, ht, rfl⟩ := List.mem_map.mp hk₁
  exact hnew t ht (heq.trans (List.mem_singleton.mp hk₂))

/-- A registration queues a key that was given out before or gives out the next one. -/
theorem register_dated (w : Waker) (h : s.Dated age) (hyoung : age + 1 < UInt64.size)
    (hkey : Before s.nextKey key) :
    let o := s.register w key
    o.state.Dated (age + 1) ∧ s.nextKey.toNat ≤ o.state.nextKey.toNat ∧
      Before o.state.nextKey o.answer := by
  obtain ⟨_ | k⟩ := key
  · have hsucc := h.next_succ hyoung
    have hcounted := h.counted
    rw [show (⟨none⟩ : WaitKey) = .fresh from rfl, register_new]
    refine ⟨⟨tasks_join w h.distinct h.next_new, fun t ht => ?_, ?_, h.backed.enter⟩, ?_, ?_⟩
    · show t.1.toNat < (s.nextKey + 1).toNat
      rw [hsucc]
      rcases List.mem_append.mp ht with hmem | hmem
      · exact Nat.lt_succ_of_lt (h.before t hmem)
      · rw [List.mem_singleton.mp hmem]
        exact Nat.lt_succ_self _
    · show (s.nextKey + 1).toNat ≤ age + 1
      omega
    · show s.nextKey.toNat ≤ (s.nextKey + 1).toNat
      omega
    · intro k hk
      obtain rfl := Option.some.inj hk
      show s.nextKey.toNat < (s.nextKey + 1).toNat
      omega
  · have hk := hkey k rfl
    rcases register_old_cases w k s with ⟨_, hcase⟩ | ⟨hnew, hcase⟩
    · rw [hcase]
      refine ⟨⟨?_, fun t ht => ?_, Nat.le_succ_of_le h.counted, h.backed⟩, Nat.le_refl _, hkey⟩
      · rw [Outcome.pure_state, map_renew_keys]
        exact h.distinct
      · obtain ⟨t', ht', rfl⟩ := List.mem_map.mp ht
        split
        · exact hk
        · exact h.before t' ht'
    · rw [hcase]
      refine ⟨⟨tasks_join w h.distinct hnew, fun t ht => ?_, Nat.le_succ_of_le h.counted,
        h.backed⟩, Nat.le_refl _, hkey⟩
      rcases List.mem_append.mp ht with hmem | hmem
      · exact h.before t hmem
      · rw [List.mem_singleton.mp hmem]
        exact hk

/-- A poll in vain registers its key. -/
theorem pollWait_vain (w : Waker) (key : WaitKey) (h : s.tryWait.answer = false) :
    s.pollWait w key = (s.register w key).map fun key => (false, key) := by
  rw [pollWait, (tryWait_vain h).2]
  rfl

/-- A poll that gets the signal gives its key up. -/
theorem pollWait_got (w : Waker) (key : WaitKey) (h : s.tryWait.answer = true) :
    s.pollWait w key
      = s.tryWait.andThen fun _ s => (s.withdraw key).map fun _ => (true, .fresh) := by
  simp only [pollWait, Outcome.andThen, h, if_true]

theorem pollWait_dated (w : Waker) (h : s.Dated age) (hyoung : age + 1 < UInt64.size)
    (hkey : Before s.nextKey key) :
    let o := s.pollWait w key
    o.state.Dated (age + 1) ∧ s.nextKey.toNat ≤ o.state.nextKey.toNat ∧
      Before o.state.nextKey o.answer.2 := by
  cases hanswer : s.tryWait.answer with
  | false =>
    rw [pollWait_vain w key hanswer]
    exact register_dated w h hyoung hkey
  | true =>
    have hwanes := (tryWait_wanes s).trans (withdraw_wanes key s.tryWait.state)
    rw [pollWait_got w key hanswer]
    refine ⟨(h.wanes hwanes).older, ?_, before_of_fresh rfl⟩
    rw [Outcome.andThen_state, Outcome.map_state]
    exact Nat.le_of_eq (congrArg UInt64.toNat hwanes.next.symm)

/-- A poll that a cancellation may end leaves its key registered, or withdraws it. -/
theorem race_dated (w : Waker) {wait : Slim.Wait} (c : Cancellation) (h : s.Dated age)
    (hyoung : age + 1 < UInt64.size) (hkey : Before s.nextKey wait.key) :
    let o := raceCancel w wait c s
    o.state.Dated (age + 1) ∧ s.nextKey.toNat ≤ o.state.nextKey.toNat ∧
      ∀ wait', o.answer.1 = .pending wait' → Before o.state.nextKey wait'.key := by
  obtain ⟨hdated, hnext, hafter⟩ := pollWait_dated w h hyoung hkey
  have hpoll : (AutoReset.poll w wait s).state = (s.pollWait w wait.key).state := rfl
  have hwait : (AutoReset.poll w wait s).answer.2.key = (s.pollWait w wait.key).answer.2 := rfl
  rw [← hpoll] at hdated hnext
  rw [← hpoll, ← hwait] at hafter
  simp only [raceCancel, Outcome.andThen_state, Outcome.andThen_answer]
  generalize AutoReset.poll w wait s = o at hdated hnext hafter
  split
  · exact ⟨hdated, hnext, fun wait' hrace => absurd hrace (by simp)⟩
  · split
    · have hwanes := cancelWait_wanes o.answer.2.key o.state
      refine ⟨hdated.wanes hwanes, ?_, fun wait' hrace => absurd hrace (by simp)⟩
      rw [Outcome.map_state]
      exact hwanes.next ▸ hnext
    · refine ⟨hdated, hnext, fun wait' hrace => ?_⟩
      obtain rfl := Race.pending.inj hrace
      exact hafter

end Slim

/-! ### Sessions -/

namespace Session

/-- A thread whose time is over leaves a signal in which it was blocked. -/
theorem request_timeUp_state {σ ω : Type} [Facilities σ ω]
    {timeUp : Thread → σ → Outcome Bool σ} (hoffered : Facilities.timeUp? = some timeUp)
    (s : Session σ ω) (id : Thread) :
    (s.request (.timeUp id)).state
      = if s.blocked.contains id then
          { s with signal := (timeUp id s.signal).state, blocked := s.blocked.erase id }
        else s := by
  simp only [request, offered, hoffered]
  split <;> rfl

open Slim (Dated Before)

variable {s s' : Session Slim Slim.Wait} {age : Nat}

/-- The keys that the signal has queued and those that the session holds are in order. -/
structure InDate (age : Nat) (s : Session Slim Slim.Wait) : Prop where
  signal : s.signal.Dated age
  waits : ∀ e ∈ s.waits, Before s.signal.nextKey e.2.wait.key
  keys : ∀ e ∈ s.keys, Before s.signal.nextKey e.2

theorem new_inDate (observer : Observer) :
    (Session.new observer : Session Slim Slim.Wait).InDate 0 where
  signal := ⟨.nil, by simp [Session.new, AutoReset.new, Slim.new], Nat.le_refl _, Word.backed_zero⟩
  waits := by simp [Session.new]
  keys := by simp [Session.new]

/-- What is held after an operation was held before or was given out by then. -/
theorem InDate.step (h : s.InDate age) (hsignal : s'.signal.Dated (age + 1))
    (hnext : s.signal.nextKey.toNat ≤ s'.signal.nextKey.toNat)
    (hwaits : ∀ e ∈ s'.waits, e ∈ s.waits ∨ Before s'.signal.nextKey e.2.wait.key)
    (hkeys : ∀ e ∈ s'.keys, e ∈ s.keys ∨ Before s'.signal.nextKey e.2) :
    s'.InDate (age + 1) where
  signal := hsignal
  waits e he := (hwaits e he).elim (fun hmem => (h.waits e hmem).mono hnext) id
  keys e he := (hkeys e he).elim (fun hmem => (h.keys e hmem).mono hnext) id

/-- An operation that gives out no key. -/
theorem InDate.wanes (h : s.InDate age) (hwanes : s.signal.Wanes s'.signal)
    (hwaits : ∀ e ∈ s'.waits, e ∈ s.waits ∨ e.2.wait.key = .fresh)
    (hkeys : ∀ e ∈ s'.keys, e ∈ s.keys ∨ e.2 = .fresh) : s'.InDate (age + 1) := by
  refine h.step (h.signal.wanes hwanes).older (hwanes.next ▸ Nat.le_refl _) (fun e he => ?_)
    fun e he => ?_
  · exact (hwaits e he).imp_right Slim.before_of_fresh
  · exact (hkeys e he).imp_right Slim.before_of_fresh

/-- An operation on the signal alone that gives out no key. -/
theorem InDate.alone (h : s.InDate age) (hwanes : s.signal.Wanes s'.signal)
    (hwaits : s'.waits = s.waits) (hkeys : s'.keys = s.keys) : s'.InDate (age + 1) :=
  h.wanes hwanes (fun _ he => Or.inl (hwaits ▸ he)) fun _ he => Or.inl (hkeys ▸ he)

/-- A request that is refused. -/
theorem InDate.older (h : s.InDate age) : s.InDate (age + 1) := h.alone (.refl _) rfl rfl

theorem mem_of_mem_put {α : Type} {m : Named α} {k : String} {a : α} {e : String × α}
    (h : e ∈ m.put k a) : e ∈ m ∨ e.2 = a := by
  rcases List.mem_cons.mp h with rfl | hmem
  · exact Or.inr rfl
  · exact Or.inl (List.mem_of_mem_filter hmem)

theorem replace_inDate (h : s.InDate age) (id : String) {held : Held Slim.Wait}
    (hfresh : held.wait.key = .fresh) : (s.replace id held).state.InDate (age + 1) := by
  have hput : ∀ e ∈ s.waits.put id held, e ∈ s.waits ∨ e.2.wait.key = .fresh := fun e he =>
    (mem_of_mem_put he).imp_right fun heq => by rw [heq, hfresh]
  unfold replace
  split
  · exact h.wanes (Slim.cancelWait_wanes _ _) hput fun _ he => Or.inl he
  · exact h.wanes (.refl _) hput fun _ he => Or.inl he

theorem poll_inDate (h : s.InDate age) (hyoung : age + 1 < UInt64.size) (id : String)
    (w : Waker) : (s.poll id w).state.InDate (age + 1) := by
  unfold poll
  split
  · exact h.older
  · next wait hget =>
    have hmem : (id, Held.plain wait) ∈ s.waits := Named.mem_of_get? hget
    obtain ⟨hdated, hnext, hkey⟩ :=
      Slim.pollWait_dated w h.signal hyoung (h.waits _ hmem)
    refine h.step hdated hnext (fun e he => ?_) fun _ he => Or.inl he
    refine (mem_of_mem_put he).imp_right fun heq => ?_
    rw [heq]
    exact hkey
  · next wait hget =>
    have hmem : (id, Held.cancellable wait) ∈ s.waits := Named.mem_of_get? hget
    have hkey : Before s.signal.nextKey wait.key := h.waits _ hmem
    obtain ⟨hdated, hnext, hpending⟩ :=
      Slim.race_dated w ((s.cancellations.get? id).getD ⟨false, none⟩) h.signal hyoung hkey
    simp only [Outcome.andThen_state, onSignal, Outcome.lift_state, Outcome.lift_answer]
    generalize raceCancel w wait ((s.cancellations.get? id).getD ⟨false, none⟩) s.signal = o
      at hdated hnext hpending
    cases hanswer : o.answer.1 with
    | released | cancelled =>
      exact h.step hdated hnext (fun _ he => Or.inl (List.mem_of_mem_filter he))
        fun _ he => Or.inl he
    | pending wait' =>
      refine h.step hdated hnext (fun e he => ?_) fun _ he => Or.inl he
      refine (mem_of_mem_put he).imp_right fun heq => ?_
      rw [heq]
      exact hpending wait' hanswer

theorem request_inDate (h : s.InDate age) (hyoung : age + 1 < UInt64.size) (r : Request) :
    (s.request r).state.InDate (age + 1) := by
  cases r with
  | set => exact h.alone (Slim.set_wanes _) rfl rfl
  | tryWait => exact h.alone (Slim.tryWait_wanes _) rfl rfl
  | wait id => exact replace_inDate h id rfl
  | waitOrCancel id fired =>
    have hcancellations : InDate age
        { s with cancellations := s.cancellations.put id ⟨fired, none⟩ } :=
      ⟨h.signal, h.waits, h.keys⟩
    exact replace_inDate hcancellations id rfl
  | fire id =>
    simp only [request]
    split
    · exact h.alone (.refl _) rfl rfl
    · exact h.older
  | poll id w => exact poll_inDate h hyoung id w
  | drop id =>
    simp only [request]
    split
    · exact h.wanes (Slim.cancelWait_wanes _ _) (fun _ he => Or.inl (List.mem_of_mem_filter he))
        fun _ he => Or.inl he
    · exact h.older
  | debug id =>
    simp only [request]
    split <;> exact h.older
  | newKey id => exact h.wanes (.refl _) (fun _ he => Or.inl he) fun _ he => mem_of_mem_put he
  | pollKey id w =>
    simp only [request]
    cases hget : s.keys.get? id with
    | none => exact h.older
    | some key =>
      obtain ⟨hdated, hnext, hkey⟩ :=
        Slim.pollWait_dated w h.signal hyoung (h.keys _ (Named.mem_of_get? hget))
      refine h.step hdated hnext (fun _ he => Or.inl he) fun e he => ?_
      refine (mem_of_mem_put he).imp_right fun heq => ?_
      rw [heq]
      exact hkey
  | cancelKey id =>
    simp only [request]
    cases s.keys.get? id with
    | none => exact h.older
    | some key =>
      exact h.wanes (Slim.cancelWait_wanes _ _) (fun _ he => Or.inl he)
        fun _ he => mem_of_mem_put he
  | keyInfo id =>
    simp only [request]
    cases s.keys.get? id <;> exact h.older
  | waiters => exact h.older
  | isSet => exact h.older
  | expire => exact h.alone (Slim.expire_wanes _) rfl rfl
  | pastDeadline => exact h.alone (Slim.expire_wanes _) rfl rfl
  | block id =>
    have hwanes := Slim.block_wanes id s.signal
    simp only [request, offered, Facilities.block?]
    split
    · exact h.older
    · simp only [Outcome.andThen_state, onSignal, Outcome.lift_state]
      split <;> exact h.alone hwanes rfl rfl
  | timeUp id =>
    have hoffered : Facilities.timeUp? = some Slim.timeUp := rfl
    rw [request_timeUp_state hoffered]
    split
    · exact h.alone (Slim.timeUp_wanes id s.signal) rfl rfl
    · exact h.older
  | unknown => exact h.older

/-- A request dates the signal and the keys anew; roused threads do not register anybody. -/
theorem step_inDate (h : s.InDate age) (hyoung : age + 1 < UInt64.size) (r : Request) :
    (s.step r).state.InDate (age + 1) := by
  have hrequest := request_inDate h hyoung r
  have hwanes := Slim.runRoused_wanes (2 * (s.request r).state.signal.asleep.length
    + 3 * (s.request r).state.signal.roused.length) (s.request r).state.signal
  exact
    { signal := hrequest.signal.wanes hwanes
      waits := fun e he => hwanes.next ▸ hrequest.waits e he
      keys := fun e he => hwanes.next ▸ hrequest.keys e he }

theorem after_inDate {rs : List Request} (h : s.InDate age)
    (hyoung : age + rs.length < UInt64.size) : (s.after rs).InDate (age + rs.length) := by
  induction rs generalizing s age with
  | nil => exact h
  | cons r rs ih =>
    rw [List.length_cons, ← Nat.add_assoc, Nat.add_right_comm] at hyoung ⊢
    exact ih (step_inDate h (by omega) r) hyoung

end Session

end Conduit.Signal

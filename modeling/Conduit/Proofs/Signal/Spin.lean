/-
  Conduit/Proofs/Signal/Spin.lean
  ===============================
  **The books of the signal that counts permits.**

  A permit belongs to nobody, so a notified waiter may find that it is gone.  What the
  signal keeps up instead is a number: at least as many waiters are notified as there
  are permits for them (`Books.enough`).  Taking a permit past the queue lowers one side,
  a waiter that takes one leaves with its mark, and a waiter that gives up its mark
  passes it on; `slack` is how many notified waiters are missing in between.

  The two counters are read off their word by `Counters.Holds`, as the fields of the
  signal in a single word are.
-/
import Conduit.Proofs.Signal.Line

namespace Conduit.Signal

/-! ### The counters -/

namespace Counters

/-- The word stands for so many permits and so many waiters. -/
structure Holds (c : Counters) (permits waiters : Nat) : Prop where
  word : c.word.toNat = waiters * 4294967296 + permits
  permits_lt : permits < 4294967296

variable {c : Counters} {p n : Nat}

theorem Holds.waiters_lt (h : c.Holds p n) : n < 4294967296 := by
  have hlt := c.word.toNat_lt
  have hword := h.word
  omega

theorem Holds.permits_toNat (h : c.Holds p n) : c.permits.toNat = p := by
  have hlt := h.permits_lt
  have hmod : c.permits.toNat = c.word.toNat % 4294967296 := rfl
  rw [hmod, h.word]
  omega

theorem Holds.waiters_toNat (h : c.Holds p n) : c.waiters.toNat = n := by
  have hlt := h.permits_lt
  have hlt' := h.waiters_lt
  have hdiv : c.waiters.toNat = c.word.toNat / 4294967296 % 4294967296 := rfl
  rw [hdiv, h.word]
  omega

theorem Holds.permits_pos (h : c.Holds p n) : 0 < c.permits ↔ 0 < p := by
  rw [UInt32.lt_iff_toNat_lt, h.permits_toNat]
  rfl

theorem holds_zero : (⟨0⟩ : Counters).Holds 0 0 := ⟨rfl, by decide⟩

theorem holds_pack (permits waiters : UInt32) :
    (pack permits waiters).Holds permits.toNat waiters.toNat := by
  have hp := permits.toNat_lt
  have hn := waiters.toNat_lt
  refine ⟨?_, hp⟩
  have h32 : (4294967296 : UInt64).toNat = 4294967296 := rfl
  simp only [pack, UInt64.toNat_add, UInt64.toNat_mul, UInt32.toNat_toUInt64, h32]
  omega

theorem Holds.takePermit (h : c.Holds (p + 1) n) : c.takePermit.Holds p n := by
  have hword := h.word
  have hlt := h.permits_lt
  have hlt' := h.waiters_lt
  have h1 : (1 : UInt64).toNat = 1 := rfl
  refine ⟨?_, by omega⟩
  rw [Counters.takePermit, UInt64.toNat_sub, h1, hword]
  omega

theorem Holds.enter (h : c.Holds p n) (hroom : n + 1 < 4294967296) : c.enter.Holds p (n + 1) := by
  have hlt := h.permits_lt
  have h32 : (4294967296 : UInt64).toNat = 4294967296 := rfl
  refine ⟨?_, hlt⟩
  rw [Counters.enter, UInt64.toNat_add, h32, h.word]
  omega

theorem Holds.claim (h : c.Holds (p + 1) (n + 1)) : c.claim.Holds p n := by
  have hlt := h.permits_lt
  have hlt' := h.waiters_lt
  have h1 : (1 : UInt64).toNat = 1 := rfl
  have h32 : (4294967296 : UInt64).toNat = 4294967296 := rfl
  refine ⟨?_, by omega⟩
  rw [Counters.claim, UInt64.toNat_sub, UInt64.toNat_sub, h1, h32, h.word]
  omega

theorem Holds.leave (h : c.Holds p (n + 1)) : c.leave.Holds (min p (n + 1)) n := by
  have hlt' := h.waiters_lt
  have h1 : (1 : UInt32).toNat = 1 := rfl
  have hwaiters : (c.waiters - 1).toNat = n := by
    rw [UInt32.toNat_sub, h1, h.waiters_toNat]
    omega
  have hnext : (c.waiters - 1 + 1).toNat = n + 1 := by
    rw [UInt32.toNat_add, h1, hwaiters]
    omega
  have hmin : (min c.permits (c.waiters - 1 + 1)).toNat = min p (n + 1) := by
    rw [← h.permits_toNat, ← hnext]
    show (if c.permits ≤ c.waiters - 1 + 1 then c.permits else c.waiters - 1 + 1).toNat = _
    split
    · next hle => exact (Nat.min_eq_left (UInt32.le_iff_toNat_le.mp hle)).symm
    · next hle =>
      have hlt := UInt32.lt_iff_toNat_lt.mp (UInt32.not_le.mp hle)
      exact (Nat.min_eq_right (Nat.le_of_lt hlt)).symm
  have hpack := holds_pack (min c.permits (c.waiters - 1 + 1)) (c.waiters - 1)
  rw [hwaiters, hmin] at hpack
  exact hpack

end Counters

namespace Spin

/-! ### Books -/

/-- How many waiters of a line are notified. -/
def notified (l : Line) : Nat := l.countP fun n => n.mark == .notified

/-- There are `p` permits, never more than one beyond the waiters; the queue is the roll of the
    tickets, with tasks alone and nobody cancelled; and but for `slack` of them, as many waiters
    are notified as there are permits for them. -/
structure Books (slack p : Nat) (K : List Nat) (T : List Thread) (s : Spin) : Prop where
  roll : Roll K T s.nextTicket s.queue
  alone : T = []
  counters : s.counters.Holds p s.queue.length
  capped : p ≤ s.queue.length + 1
  standing : ∀ n ∈ s.queue, n.mark ≠ .cancelled
  enough : min p s.queue.length ≤ notified s.queue + slack

/-- The books of a signal with these tickets registered. -/
def Sound (_age : Nat) (K : List Nat) (T : List Thread) (s : Spin) : Prop :=
  ∃ p, s.Books 0 p K T

instance : Tracked Spin Spin.Wait Nat where
  Sound := Sound
  Young _ := True
  Sparse s := s.registeredWaits < 4294967295
  Rested _ := True
  asleepAs s := s.queue.sleeperAt
  ofKey _ := .init
  toKey _ := .fresh

variable {s : Spin} {slack p t : Nat} {K : List Nat} {T : List Thread} {n : Node} {l : Line}

theorem Books.countsOf_eq (h : s.Books slack p K T) : countsOf s = ⟨p, s.queue.length⟩ := by
  show (⟨s.counters.permits.toNat, s.queue.length⟩ : Counts) = _
  rw [h.counters.permits_toNat]

theorem notified_perm {l' : Line} (h : l.Perm l') : notified l = notified l' := h.countP_eq _

theorem notified_cons_of_notified (h : n.mark = .notified) :
    notified (n :: l) = notified l + 1 := by
  simp [notified, h]

theorem notified_cons_of_pending (h : n.mark = .pending) : notified (n :: l) = notified l := by
  simp [notified, h]

/-- A node that stands is pending or notified. -/
theorem mark_cases (h : n.mark ≠ .cancelled) : n.mark = .pending ∨ n.mark = .notified := by
  cases hmark : n.mark with
  | pending => exact Or.inl rfl
  | notified => exact Or.inr rfl
  | cancelled => exact absurd hmark h

/-! ### Notifying -/

/-- Notifying the next waiter makes up for one that is missing. -/
theorem notifyNext_books (h : s.Books 1 p K T) : s.notifyNext.state.Books 0 p K T := by
  unfold notifyNext
  rcases Line.notifyFirst_cases s.queue with ⟨hnone, hall⟩ | ⟨front, n, back, hqueue, hn, hsome⟩
  · rw [hnone]
    -- nobody is pending, so everybody is notified already
    have hfull : notified s.queue = s.queue.length := by
      unfold notified
      rw [List.countP_eq_length]
      intro n hn
      rcases mark_cases (h.standing n hn) with hmark | hmark
      · exact absurd hmark (hall n hn)
      · exact beq_iff_eq.mpr hmark
    refine { h with enough := ?_ }
    show min p s.queue.length ≤ notified s.queue + 0
    rw [hfull]
    exact Nat.min_le_right _ _
  · rw [hsome]
    have hfaces : (front ++ { n with mark := Mark.notified } :: back).map Node.face
        = s.queue.map Node.face := by
      rw [hqueue, List.map_append, List.map_append]
      rfl
    have hlength : (front ++ { n with mark := Mark.notified } :: back).length
        = s.queue.length := by
      rw [hqueue, List.length_append, List.length_append, List.length_cons, List.length_cons]
    refine
      { roll := h.roll.congr hfaces
        alone := h.alone
        counters := by rw [hlength]; exact h.counters
        capped := by rw [hlength]; exact h.capped
        standing := fun m hm => ?_
        enough := ?_ }
    · rcases List.mem_append.mp hm with hmem | hmem
      · exact h.standing m (hqueue ▸ List.mem_append_left _ hmem)
      · rcases List.mem_cons.mp hmem with rfl | hmem
        · exact fun hcancelled => absurd hcancelled (by simp)
        · exact h.standing m (hqueue ▸ List.mem_append_right _ (List.mem_cons_of_mem _ hmem))
    · have henough := h.enough
      have hbefore : notified s.queue = notified (front ++ back) := by
        rw [hqueue, notified_perm List.perm_middle, notified_cons_of_pending hn]
      have hafter : notified (front ++ { n with mark := Mark.notified } :: back)
          = notified (front ++ back) + 1 := by
        rw [notified_perm List.perm_middle, notified_cons_of_notified rfl]
      rw [hlength, hafter]
      rw [hbefore] at henough
      exact henough

theorem notifyNext_heard (s : Spin) (k : Nat) (w : Waker) (h : s.queue.sleeperAt k = some w) :
    s.notifyNext.state.queue.sleeperAt k = some w ∨ .woken w ∈ s.notifyNext.effects := by
  unfold notifyNext
  rcases Line.notifyFirst_cases s.queue with ⟨hnone, _⟩ | ⟨front, n, back, hqueue, _, hsome⟩
  · rw [hnone]
    exact Or.inl h
  · rw [hsome]
    exact Line.sleeperAt_notify (hqueue ▸ h)

theorem notifyNext_turn (h : s.Books 1 p K T) :
    Turn s s.notifyNext.state s.notifyNext.effects [] none where
  counts := by
    have hlength : s.notifyNext.state.queue.length = s.queue.length := by
      rw [(notifyNext_books h).roll.length_eq, h.roll.length_eq]
    rw [h.countsOf_eq, (notifyNext_books h).countsOf_eq, hlength]
    exact .nil _
  heard k w _ := notifyNext_heard s k w

/-! ### Setting and taking -/

/-- Setting the signal leaves a full one alone, banks a permit when nobody waits, and else makes a
    permit and notifies a waiter for it. -/
theorem set_cases (h : s.Books 0 p K T) (sparse : s.queue.length < 4294967295) :
    (p = s.queue.length + 1 ∧ s.set = .pure () s) ∨
    (p = 0 ∧ s.queue.length = 0 ∧ ∃ c, c.Holds 1 0 ∧
      s.set = .pure () { s with counters := c }) ∨
    (p ≤ s.queue.length ∧ 0 < s.queue.length ∧ ∃ c, c.Holds (p + 1) s.queue.length ∧
      s.set = notifyNext { s with counters := c }) := by
  have hcapped := h.capped
  have hwaiters : s.counters.waiters = 0 ↔ s.queue.length = 0 := by
    rw [← UInt32.toNat_inj, h.counters.waiters_toNat]
    rfl
  have hfull : s.counters.waiters < s.counters.permits ↔ s.queue.length < p := by
    rw [UInt32.lt_iff_toNat_lt, h.counters.waiters_toNat, h.counters.permits_toNat]
  unfold set
  by_cases hempty : s.queue.length = 0
  · simp only [hwaiters.mpr hempty, if_true]
    by_cases hpos : 0 < p
    · refine Or.inl ⟨by omega, ?_⟩
      simp only [h.counters.permits_pos.mpr hpos, if_true]
    · have hnone : ¬ 0 < s.counters.permits := fun hlt => hpos (h.counters.permits_pos.mp hlt)
      exact Or.inr (Or.inl ⟨by omega, hempty, .pack 1 0, Counters.holds_pack 1 0, if_neg hnone⟩)
  · have hsome : ¬ s.counters.waiters = 0 := fun heq => hempty (hwaiters.mp heq)
    simp only [hsome, if_false]
    by_cases hlt : s.queue.length < p
    · exact Or.inl ⟨by omega, if_pos (hfull.mpr hlt)⟩
    · have hroom : ¬ s.counters.waiters < s.counters.permits := fun h => hlt (hfull.mp h)
      have hpack := Counters.holds_pack (s.counters.permits + 1) s.counters.waiters
      have h1 : (1 : UInt32).toNat = 1 := rfl
      have hnext : (s.counters.permits + 1).toNat = p + 1 := by
        rw [UInt32.toNat_add, h.counters.permits_toNat, h1]
        omega
      rw [hnext, h.counters.waiters_toNat] at hpack
      exact Or.inr (Or.inr ⟨by omega, by omega, _, hpack, if_neg hroom⟩)

theorem set_lawful (h : s.Sound 0 K T) (sparse : s.queue.length < 4294967295) :
    s.set.state.Sound 0 K T ∧ Turn s s.set.state s.set.effects [.set] none := by
  obtain ⟨p, hp⟩ := h
  rcases set_cases hp sparse with ⟨rfl, hcase⟩ | ⟨rfl, hempty, c, hc, hcase⟩
      | ⟨hle, hpos, c, hc, hcase⟩
  · rw [hcase]
    refine ⟨⟨_, hp⟩, ?_, fun _ _ _ hasleep => Or.inl hasleep⟩
    have hset := Counts.Step.set (s.queue.length + 1) s.queue.length
    rw [Nat.min_eq_right (Nat.le_succ _)] at hset
    rw [Outcome.pure_state, hp.countsOf_eq]
    exact .one hset
  · rw [hcase, Outcome.pure_state]
    have hbooks : ({ s with counters := c } : Spin).Books 0 1 K T :=
      { roll := hp.roll
        alone := hp.alone
        counters := by
          show c.Holds 1 s.queue.length
          rw [hempty]
          exact hc
        capped := Nat.succ_le_succ (Nat.zero_le _)
        standing := hp.standing
        enough := by
          show min 1 s.queue.length ≤ _
          rw [hempty]
          exact Nat.zero_le _ }
    refine ⟨⟨1, hbooks⟩, ?_, fun _ _ _ hasleep => Or.inl hasleep⟩
    have hset := Counts.Step.set 0 s.queue.length
    rw [Nat.min_eq_left (by omega)] at hset
    rw [hp.countsOf_eq, hbooks.countsOf_eq]
    exact .one hset
  · rw [hcase]
    have henough := hp.enough
    have hbooks : ({ s with counters := c } : Spin).Books 1 (p + 1) K T :=
      { roll := hp.roll
        alone := hp.alone
        counters := hc
        capped := Nat.succ_le_succ hle
        standing := hp.standing
        enough := by
          show min (p + 1) s.queue.length ≤ notified s.queue + 1
          omega }
    refine ⟨⟨_, notifyNext_books hbooks⟩, ?_, (notifyNext_turn hbooks).heard⟩
    have hset := Counts.Step.set p s.queue.length
    rw [Nat.min_eq_left (Nat.succ_le_succ hle)] at hset
    have hcounts := hbooks.countsOf_eq
    rw [hp.countsOf_eq]
    have hturn := (notifyNext_turn hbooks).counts
    rw [hcounts] at hturn
    exact (Counts.Path.one hset).append hturn

/-- Whoever asks takes a permit, if there is one, past the queue. -/
theorem tryWait_cases (h : s.Books 0 p K T) :
    (p = 0 ∧ s.tryWait = .pure false s) ∨
    (∃ q, p = q + 1 ∧ ∃ c, c.Holds q s.queue.length ∧
      s.tryWait = .pure true { s with counters := c }) := by
  cases p with
  | zero =>
    have hnone : ¬ 0 < s.counters.permits :=
      fun hlt => absurd (h.counters.permits_pos.mp hlt) (by decide)
    exact Or.inl ⟨rfl, if_neg hnone⟩
  | succ q =>
    have hsome := h.counters.permits_pos.mpr (Nat.succ_pos q)
    exact Or.inr ⟨q, rfl, _, h.counters.takePermit, if_pos hsome⟩

theorem take_books {q : Nat} {c : Counters} (h : s.Books 0 (q + 1) K T)
    (hc : c.Holds q s.queue.length) : ({ s with counters := c } : Spin).Books 0 q K T := by
  have hcapped := h.capped
  have henough := h.enough
  exact
    { roll := h.roll
      alone := h.alone
      counters := hc
      capped := by
        show q ≤ s.queue.length + 1
        omega
      standing := h.standing
      enough := by
        show min q s.queue.length ≤ notified s.queue + 0
        omega }

theorem tryWait_lawful (h : s.Sound 0 K T) :
    s.tryWait.state.Sound 0 K T ∧
      Turn s s.tryWait.state s.tryWait.effects (if s.tryWait.answer then [.take] else []) none := by
  obtain ⟨p, hp⟩ := h
  rcases tryWait_cases hp with ⟨_, hcase⟩ | ⟨q, rfl, c, hc, hcase⟩
  · rw [hcase]
    exact ⟨⟨p, hp⟩, .refl s none⟩
  · rw [hcase]
    have hbooks := take_books hp hc
    refine ⟨⟨q, hbooks⟩, ?_, fun _ _ _ hasleep => Or.inl hasleep⟩
    rw [hp.countsOf_eq, Outcome.pure_state, hbooks.countsOf_eq]
    exact .one (.take q _)

/-! ### Polling -/

/-- Whoever finds no permit joins the queue. -/
theorem enqueue_lawful (w : Waker) (h : s.Books 0 0 K T)
    (sparse : s.queue.length < 4294967295) :
    let o := s.enqueue w
    o.state.Sound 0 (s.nextTicket :: K) T ∧ Turn s o.state o.effects [.join] none ∧
      o.state.queue.sleeperAt s.nextTicket = some w := by
  have hlength : (s.enqueue w).state.queue.length = s.queue.length + 1 := by
    simp [enqueue]
  have hbooks : (s.enqueue w).state.Books 0 0 (s.nextTicket :: K) T :=
    { roll := (h.roll.join_task w .pending).perm (List.perm_append_singleton _ _).symm
      alone := h.alone
      counters := by
        rw [hlength]
        exact h.counters.enter (by omega)
      capped := Nat.zero_le _
      standing := fun n hn => by
        rcases List.mem_append.mp hn with hmem | hmem
        · exact h.standing n hmem
        · obtain rfl := List.mem_singleton.mp hmem
          exact fun hcancelled => absurd hcancelled (by simp)
      enough := by
        rw [Nat.zero_min]
        exact Nat.zero_le _ }
  refine ⟨⟨0, hbooks⟩, ⟨?_, fun k w' _ hasleep => Or.inl (Line.sleeperAt_append hasleep)⟩, ?_⟩
  · rw [h.countsOf_eq, hbooks.countsOf_eq, hlength]
    exact .one (.join 0 _)
  · show Line.sleeperAt (s.queue ++ [⟨s.nextTicket, .pending, .task w⟩]) s.nextTicket = some w
    rw [Line.sleeperAt, Line.find_append, h.roll.find_next, Option.none_or,
      Line.find_cons_eq rfl]
    rfl

theorem poll_idle (w : Waker) (h : s.Sound 0 K T) (sparse : s.queue.length < 4294967295) :
    let o := s.poll w .init
    (o.answer = (true, .done) ∧ o.state.Sound 0 K T ∧
      Turn s o.state o.effects [.take] none) ∨
    (o.answer = (false, .queued s.nextTicket) ∧ o.state.Sound 0 (s.nextTicket :: K) T ∧
      Turn s o.state o.effects [.join] none ∧
      o.state.queue.sleeperAt s.nextTicket = some w) := by
  obtain ⟨p, hp⟩ := h
  rcases tryWait_cases hp with ⟨rfl, htry⟩ | ⟨q, rfl, c, hc, htry⟩
  · have hcase : s.poll w .init
        = (s.enqueue w).map fun ticket => (false, .queued ticket) := by
      simp [poll, htry]
    rw [hcase]
    exact Or.inr ⟨rfl, enqueue_lawful w hp sparse⟩
  · have hcase : s.poll w .init = .pure (true, .done) { s with counters := c } := by
      simp [poll, htry]
    have hbooks := take_books hp hc
    rw [hcase]
    refine Or.inl ⟨rfl, ⟨q, hbooks⟩, ?_, fun _ _ _ hasleep => Or.inl hasleep⟩
    rw [hp.countsOf_eq, Outcome.pure_state, hbooks.countsOf_eq]
    exact .one (.take q _)

/-- Nobody in the queue is a thread. -/
theorem Books.task (h : s.Books slack p K T) (hn : n ∈ s.queue) : n.thread? = none := by
  have hthreads := h.roll.threads
  rw [h.alone] at hthreads
  exact List.filterMap_eq_nil_iff.mp hthreads.nil_eq.symm n hn

/-- A registered ticket is in the queue. -/
theorem Books.find (h : s.Books slack p (t :: K) T) :
    ∃ n, s.queue.find t = some n ∧ n.thread? = none ∧
      (n.mark = .pending ∨ n.mark = .notified) := by
  obtain ⟨n, hn, rfl, htask⟩ := h.roll.exists_task List.mem_cons_self
  exact ⟨n, Line.find_of_mem h.roll.distinct hn, htask, mark_cases (h.standing n hn)⟩

/-- Changing nodes in place, as long as they stay who they are and nobody is cancelled. -/
theorem update_books {f : Node → Node} (h : s.Books slack p K T)
    (hface : ∀ n, n.thread? = none → (f n).face = n.face)
    (hmark : ∀ n, n.mark ≠ .cancelled → (f n).mark ≠ .cancelled)
    (henough : min p s.queue.length ≤ notified (s.queue.update t f) + slack) :
    ({ s with queue := s.queue.update t f } : Spin).Books slack p K T := by
  have hlength : (s.queue.update t f).length = s.queue.length := List.length_map _
  exact
    { roll := h.roll.congr (Line.update_faces fun n hn _ => hface n (h.task hn))
      alone := h.alone
      counters := by
        show s.counters.Holds p (s.queue.update t f).length
        rw [hlength]
        exact h.counters
      capped := by
        show p ≤ (s.queue.update t f).length + 1
        rw [hlength]
        exact h.capped
      standing := fun n hn => by
        obtain ⟨m, hm, rfl⟩ := List.mem_map.mp hn
        have hstands := h.standing m hm
        split
        · exact hmark m hstands
        · exact hstands
      enough := by
        show min p (s.queue.update t f).length ≤ _
        rw [hlength]
        exact henough }

theorem notified_register (w : Waker) (l : Line) :
    notified (l.update t (Node.register w)) = notified l := by
  simp only [notified, Line.update, List.countP_map]
  congr 1
  funext n
  simp only [Function.comp_apply]
  split <;> rfl

/-- A waiter stores its waker. -/
theorem register_books (w : Waker) (h : s.Books slack p K T) :
    ({ s with queue := s.queue.update t (Node.register w) } : Spin).Books slack p K T := by
  refine update_books h (fun n htask => ?_) (fun n hmark => hmark) ?_
  · simp only [Node.face, htask]
    rfl
  · rw [notified_register]
    exact h.enough

/-- The signal with a notified waiter pending again. -/
def rearmed (t : Nat) (s : Spin) : Spin := { s with queue := s.queue.update t Node.rearm }

/-- Without a permit a notified waiter may be pending again. -/
theorem rearm_books (h : s.Books 0 0 K T) : (s.rearmed t).Books 0 0 K T := by
  refine update_books h (fun n _ => ?_) (fun n hmark => ?_) ?_
  · unfold Node.rearm
    split <;> rfl
  · unfold Node.rearm
    split
    · simp
    · exact hmark
  · rw [Nat.zero_min]
    exact Nat.zero_le _

/-- The turn of a poll that leaves its waiter in the queue. -/
theorem update_turn {f : Node → Node} {effects : List Effect} (h : s.Books slack p K T)
    (h' : ({ s with queue := s.queue.update t f } : Spin).Books slack p K T)
    (hf : ∀ n, (f n).ticket = n.ticket) :
    Turn s { s with queue := s.queue.update t f } effects [] (some t) where
  counts := by
    have hlength : (s.queue.update t f).length = s.queue.length := List.length_map _
    rw [h.countsOf_eq, h'.countsOf_eq, hlength]
    exact .nil _
  heard k w hne hasleep := by
    refine Or.inl ?_
    show (s.queue.update t f).sleeperAt k = some w
    rw [Line.sleeperAt_update_ne hf fun heq => hne (congrArg some heq.symm)]
    exact hasleep

theorem rearm_ticket (n : Node) : n.rearm.ticket = n.ticket := by
  unfold Node.rearm
  split <;> rfl

theorem pollPass_pending (w : Waker) (hfind : s.queue.find t = some n)
    (hmark : n.mark = .pending) : pollPass w t s
      = .pure (some false) { s with queue := s.queue.update t (Node.register w) } := by
  simp [pollPass, Line.isNotified, hfind, hmark]

theorem pollPass_notified (w : Waker) (h : s.Books 0 p K T) (hfind : s.queue.find t = some n)
    (hmark : n.mark = .notified) :
    (p = 0 ∧ pollPass w t s = .pure none (s.rearmed t)) ∨
    (0 < p ∧ pollPass w t s
      = .pure (some true) { s with counters := s.counters.claim, queue := s.queue.remove t }) := by
  by_cases hpos : 0 < p
  · refine Or.inr ⟨hpos, ?_⟩
    simp [pollPass, Line.isNotified, hfind, hmark, acquireQueued, h.counters.permits_pos.mpr hpos,
      Outcome.map, Outcome.pure]
  · refine Or.inl ⟨by omega, ?_⟩
    have hnone : ¬ 0 < s.counters.permits := fun hlt => hpos (h.counters.permits_pos.mp hlt)
    simp [pollPass, Line.isNotified, hfind, hmark, acquireQueued, hnone, rearmed, Outcome.map,
      Outcome.pure]

/-- A notified waiter that takes a permit leaves the queue with its mark. -/
theorem claim_books {q : Nat} (h : s.Books 0 (q + 1) (t :: K) T)
    (hfind : s.queue.find t = some n) (htask : n.thread? = none) (hmark : n.mark = .notified) :
    ({ s with counters := s.counters.claim, queue := s.queue.remove t } : Spin).Books 0 q K T ∧
      s.queue.length = (s.queue.remove t).length + 1 := by
  have hperm := Line.perm_remove hfind
  have hlength := hperm.length_eq
  have hnotified := notified_perm hperm
  have hcapped := h.capped
  have henough := h.enough
  have hcounters := h.counters
  rw [List.length_cons] at hlength
  rw [notified_cons_of_notified hmark] at hnotified
  rw [hlength] at hcounters
  refine ⟨?_, hlength⟩
  exact
    { roll := (h.roll.perm hperm).leave_task (Line.find_ticket hfind) htask
      alone := h.alone
      counters := hcounters.claim
      capped := by
        show q ≤ (s.queue.remove t).length + 1
        omega
      standing := fun m hm => h.standing m (List.mem_of_mem_eraseP hm)
      enough := by
        show min q (s.queue.remove t).length ≤ notified (s.queue.remove t) + 0
        omega }

/-- A poll of a queued waiter takes a permit if it was notified and there is one; else it is
    pending under its new waker. -/
theorem poll_registered (w : Waker) (h : s.Sound 0 (t :: K) T) :
    let o := s.poll w (.queued t)
    (o.answer = (true, .done) ∧ o.state.Sound 0 K T ∧
      Turn s o.state o.effects [.resolve] (some t)) ∨
    (o.answer = (false, .queued t) ∧ o.state.Sound 0 (t :: K) T ∧
      Turn s o.state o.effects [] (some t) ∧ o.state.queue.sleeperAt t = some w) := by
  obtain ⟨p, hp⟩ := h
  obtain ⟨n, hfind, htask, hmark | hmark⟩ := hp.find
  · have hcase : s.poll w (.queued t) = .pure (false, .queued t)
        { s with queue := s.queue.update t (Node.register w) } := by
      simp [poll, Outcome.loop, pollPass_pending w hfind hmark, Outcome.map, Outcome.pure]
    have hbooks := register_books (t := t) w hp
    rw [hcase]
    exact Or.inr ⟨rfl, ⟨p, hbooks⟩, update_turn hp hbooks fun _ => rfl,
      Line.sleeperAt_register w hfind hmark⟩
  · rcases pollPass_notified w hp hfind hmark with ⟨rfl, hpass⟩ | ⟨hpos, hpass⟩
    · -- the permit is gone: the first pass makes the waiter pending, the second finds it so
      have hfind₁ : (s.rearmed t).queue.find t = some n.rearm := by
        show (s.queue.update t Node.rearm).find t = _
        rw [Line.find_update rearm_ticket, hfind]
        rfl
      have hmark₁ : n.rearm.mark = .pending := by simp [Node.rearm, hmark]
      have hcase : s.poll w (.queued t) = .pure (false, .queued t)
          { s.rearmed t with queue := (s.rearmed t).queue.update t (Node.register w) } := by
        simp [poll, Outcome.loop, hpass, pollPass_pending w hfind₁ hmark₁, Outcome.map,
          Outcome.pure]
      have hrearmed : (s.rearmed t).Books 0 0 (t :: K) T := rearm_books hp
      have hbooks := register_books (t := t) w hrearmed
      rw [hcase]
      refine Or.inr ⟨rfl, ⟨0, hbooks⟩, ?_, Line.sleeperAt_register w hfind₁ hmark₁⟩
      have hturn₁ : Turn s (s.rearmed t) [] [] (some t) := update_turn hp hrearmed rearm_ticket
      have hturn₂ : Turn (s.rearmed t) _ [] [] (some t) := update_turn hrearmed hbooks fun _ => rfl
      exact hturn₁.trans hturn₂
    · have hcase : s.poll w (.queued t) = .pure (true, .done)
          { s with counters := s.counters.claim, queue := s.queue.remove t } := by
        simp [poll, Outcome.loop, hpass, Outcome.map, Outcome.pure]
      obtain ⟨q, rfl⟩ : ∃ q, p = q + 1 := ⟨p - 1, by omega⟩
      obtain ⟨hbooks, hlength⟩ := claim_books hp hfind htask hmark
      rw [hcase]
      refine Or.inl ⟨rfl, ⟨q, hbooks⟩, ?_, fun k w' hne hasleep => Or.inl ?_⟩
      · rw [hp.countsOf_eq, Outcome.pure_state, hbooks.countsOf_eq, hlength]
        exact .one (.resolve q _)
      · show (s.queue.remove t).sleeperAt k = some w'
        rw [Line.sleeperAt_remove_ne fun heq => hne (congrArg some heq.symm)]
        exact hasleep

/-! ### Withdrawing -/

/-- A waiter that gives up; if it was notified, the next has to be notified in its place. -/
theorem leave_books (h : s.Books 0 p (t :: K) T) (hfind : s.queue.find t = some n)
    (htask : n.thread? = none) (hmark : n.mark = .pending ∨ n.mark = .notified) :
    ({ s with queue := s.queue.remove t, counters := s.counters.leave } : Spin).Books
        (if n.mark = .notified then 1 else 0) (min p s.queue.length) K T ∧
      s.queue.length = (s.queue.remove t).length + 1 := by
  have hperm := Line.perm_remove hfind
  have hlength := hperm.length_eq
  have hnotified := notified_perm hperm
  have henough := h.enough
  rw [List.length_cons] at hlength
  have hcounters := h.counters
  rw [hlength] at hcounters henough
  refine ⟨?_, hlength⟩
  exact
    { roll := (h.roll.perm hperm).leave_task (Line.find_ticket hfind) htask
      alone := h.alone
      counters := by
        rw [hlength]
        exact hcounters.leave
      capped := by
        rw [hlength]
        exact Nat.min_le_right _ _
      standing := fun m hm => h.standing m (List.mem_of_mem_eraseP hm)
      enough := by
        show min (min p s.queue.length) (s.queue.remove t).length
          ≤ notified (s.queue.remove t) + _
        rw [hlength]
        rcases hmark with hmark | hmark
        · rw [notified_cons_of_pending hmark] at hnotified
          simp only [hmark, reduceCtorEq, if_false]
          omega
        · rw [notified_cons_of_notified hmark] at hnotified
          simp only [hmark, if_true]
          omega }

theorem withdraw_lawful (h : s.Sound 0 (t :: K) T) :
    let o := s.withdraw t
    o.state.Sound 0 K T ∧ Turn s o.state o.effects [.withdraw] (some t) := by
  obtain ⟨p, hp⟩ := h
  obtain ⟨n, hfind, htask, hmark⟩ := hp.find
  obtain ⟨hbooks, hlength⟩ := leave_books hp hfind htask hmark
  have hcounts : (countsOf s).Path [.withdraw]
      (countsOf ({ s with queue := s.queue.remove t, counters := s.counters.leave } : Spin)) := by
    rw [hp.countsOf_eq, hbooks.countsOf_eq, hlength]
    exact .one (.withdraw p _)
  have hheard : ∀ k w, some t ≠ some k → s.queue.sleeperAt k = some w →
      (s.queue.remove t).sleeperAt k = some w := by
    intro k w hne hasleep
    rw [Line.sleeperAt_remove_ne fun heq => hne (congrArg some heq.symm)]
    exact hasleep
  rcases hmark with hmark | hmark
  · have hcase : s.withdraw t = ⟨(),
        { s with queue := s.queue.remove t, counters := s.counters.leave },
        [.reported s.observer .waitCancelled]⟩ := by
      simp [withdraw, hfind, Node.cancel?, hmark]
    simp only [hmark, reduceCtorEq, if_false] at hbooks
    rw [hcase]
    exact ⟨⟨_, hbooks⟩, hcounts, fun k w hne hasleep => Or.inl (hheard k w hne hasleep)⟩
  · simp only [hmark, if_true] at hbooks
    by_cases hpos : 0 < min p s.queue.length
    · have hcase : s.withdraw t = notifyNext
          { s with queue := s.queue.remove t, counters := s.counters.leave } := by
        have hpermits := hbooks.counters.permits_pos.mpr hpos
        simp [withdraw, hfind, Node.cancel?, hmark, hpermits]
      rw [hcase]
      refine ⟨⟨_, notifyNext_books hbooks⟩, ?_, fun k w hne hasleep => ?_⟩
      · exact hcounts.append (notifyNext_turn hbooks).counts
      · exact notifyNext_heard _ k w (hheard k w hne hasleep)
    · have hcase : s.withdraw t = .pure ()
          { s with queue := s.queue.remove t, counters := s.counters.leave } := by
        have hpermits : ¬ 0 < s.counters.leave.permits :=
          fun hlt => hpos (hbooks.counters.permits_pos.mp hlt)
        simp [withdraw, hfind, Node.cancel?, hmark, hpermits]
      have hzero : min p s.queue.length = 0 := by omega
      rw [hzero] at hbooks
      rw [hcase]
      refine ⟨⟨0, { hbooks with enough := ?_ }⟩, hcounts,
        fun k w hne hasleep => Or.inl (hheard k w hne hasleep)⟩
      rw [Nat.zero_min]
      exact Nat.zero_le _

/-! ### The laws -/

theorem new_books (observer : Observer) : (Spin.new observer).Books 0 0 [] [] where
  roll := .nil
  alone := rfl
  counters := Counters.holds_zero
  capped := Nat.zero_le _
  standing := by simp [Spin.new]
  enough := Nat.zero_le _

/-- A permit while somebody waits has a notified waiter. -/
theorem Sound.awake_task (h : s.Sound 0 K T) (pending : 0 < s.pendingReleases)
    (registered : 0 < s.registeredWaits) : ∃ k ∈ K, s.queue.sleeperAt k = none := by
  obtain ⟨p, hp⟩ := h
  have hpos : 0 < p := by
    unfold pendingReleases at pending
    rw [hp.counters.permits_toNat] at pending
    exact pending
  have hwaiters : 0 < s.queue.length := registered
  have hnotified : 0 < notified s.queue := by
    have henough := hp.enough
    omega
  obtain ⟨n, hn, hmark⟩ := List.countP_pos_iff.mp hnotified
  refine ⟨n.ticket, hp.roll.ticket_mem hn (hp.task hn), ?_⟩
  rw [Line.sleeperAt, Line.find_of_mem hp.roll.distinct hn]
  refine Node.sleeper?_of_not_pending ?_
  rw [eq_of_beq hmark]
  simp

instance : LawfulSignal Spin Spin.Wait Nat where
  young_of_le _ _ := trivial
  sparse_of_few few := Nat.lt_trans few (by decide)
  new observer := ⟨0, new_books observer⟩
  new_counts observer := (new_books observer).countsOf_eq
  new_rested _ := trivial
  perm hK hT := fun ⟨p, h⟩ => ⟨p, { h with
    roll := h.roll.perm_held hK hT
    alone := (h.alone ▸ hT).nil_eq.symm }⟩
  older h := h
  distinct := fun ⟨_, h⟩ _ => h.roll.nodup
  registered := fun ⟨_, h⟩ => h.roll.length_eq
  awake h _ _ pending registered := Sound.awake_task h pending registered
  set h sparse := set_lawful h sparse
  tryWait h := tryWait_lawful h
  wait_idle := rfl
  poll_idle {age K T s wait} w hwait h sparse := by
    cases wait with
    | init =>
      rcases poll_idle w h sparse with ⟨hanswer, hsound, hturn⟩ | ⟨hanswer, hsound, hturn, hsleeps⟩
      · exact Or.inl ⟨congrArg Prod.fst hanswer,
          congrArg (fun r => (Staged.stage r.2).ticket?) hanswer, hsound, hturn⟩
      · exact Or.inr ⟨congrArg Prod.fst hanswer, s.nextTicket,
          congrArg (fun r => Staged.stage r.2) hanswer, hsound, hturn, fun _ => hsleeps⟩
    | queued ticket => exact absurd hwait (by simp [Staged.stage])
    | done => exact absurd hwait (by simp [Staged.stage])
  poll_registered {age K T s wait t} w hwait h := by
    cases wait with
    | queued ticket =>
      obtain rfl : ticket = t := by simpa [Staged.stage] using hwait
      rcases poll_registered w h with ⟨hanswer, hsound, hturn⟩ | ⟨hanswer, hsound, hturn, hsleeps⟩
      · exact Or.inl ⟨congrArg Prod.fst hanswer,
          congrArg (fun r => (Staged.stage r.2).ticket?) hanswer, hsound, hturn⟩
      · exact Or.inr ⟨congrArg Prod.fst hanswer,
          congrArg (fun r => Staged.stage r.2) hanswer, hsound, hturn, hsleeps⟩
    | init => exact absurd hwait (by simp [Staged.stage])
    | done => exact absurd hwait (by simp [Staged.stage])
  poll_over {s wait} w hwait := by
    cases wait with
    | done => rfl
    | init => exact absurd hwait (by simp [Staged.stage])
    | queued ticket => exact absurd hwait (by simp [Staged.stage])
  drop_registered {age K T s wait t} hwait h := by
    cases wait with
    | queued ticket =>
      obtain rfl : ticket = t := by simpa [Staged.stage] using hwait
      exact withdraw_lawful h
    | init => exact absurd hwait (by simp [Staged.stage])
    | done => exact absurd hwait (by simp [Staged.stage])
  drop_other {s wait} hwait := by
    cases wait with
    | queued ticket => exact absurd hwait (by simp [Staged.stage, Stage.ticket?])
    | init => rfl
    | done => rfl
  block hoffered := absurd hoffered (by simp [Facilities.block?])
  expire hoffered :=
    absurd hoffered (by simp [Facilities.expire?, Facilities.pastDeadline?])
  timeUp hoffered := absurd hoffered (by simp [Facilities.timeUp?])
  settle {age K T s} h := ⟨T, .refl _, h, trivial, .refl s none⟩
  key_stage hoffered := absurd hoffered (by simp [Facilities.pollKey?])
  ofKey_toKey hoffered := absurd hoffered (by simp [Facilities.pollKey?])
  pollKey hoffered := absurd hoffered (by simp [Facilities.pollKey?])
  cancelKey hoffered := absurd hoffered (by simp [Facilities.cancelKey?])

end Spin

end Conduit.Signal

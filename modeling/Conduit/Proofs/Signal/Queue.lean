/-
  Conduit/Proofs/Signal/Queue.lean
  ================================
  **The books of the signal that hands itself over.**

  A waiter is in the line until the signal is handed to it, and then among those that
  own one, so the roll is called over both lists.  Two facts make the signal behave: in
  the line everybody is pending, so that the front of the line is who is released next;
  and nobody is in the line while the signal is banked, so that whoever asks finds it.
-/
import Conduit.Proofs.Signal.Line

namespace Conduit.Signal.Queue

/-- The waiters in the line and those that were handed the signal hold these tickets; in the line
    all are pending, and nobody is there while the signal is banked. -/
structure Sound (_age : Nat) (K : List Nat) (T : List Thread) (q : Queue) : Prop where
  roll : Roll K T q.nextTicket (q.line ++ q.handed)
  pending : ∀ n ∈ q.line, n.mark = .pending
  lone : q.banked = true → q.line = []

instance : Tracked Queue Queue.Wait Nat where
  Sound := Sound
  Young _ := True
  Sparse _ := True
  Rested q := q.handed.filterMap Node.thread? = []
  asleepAs q := q.line.sleeperAt
  ofKey _ := .init
  toKey _ := .fresh

variable {q : Queue} {age t : Nat} {K : List Nat} {T : List Thread} {n : Node}

theorem countsOf_eq (q : Queue) :
    countsOf q = ⟨q.banked.toNat + q.handed.length, q.line.length + q.handed.length⟩ := rfl

theorem Sound.registered (h : q.Sound age K T) : q.registeredWaits = K.length + T.length := by
  rw [← h.roll.length_eq, List.length_append]
  rfl

/-- Somebody in the line means that nothing is banked. -/
theorem Sound.not_banked (h : q.Sound age K T) (hn : n ∈ q.line) : q.banked = false := by
  cases hbanked : q.banked with
  | false => rfl
  | true =>
    rw [h.lone hbanked] at hn
    exact absurd hn (by simp)

/-! ### Setting and taking -/

/-- Setting the signal hands it to the front of the line, or banks it if there is none. -/
theorem set_cases (h : ∀ n ∈ q.line, n.mark = .pending) :
    (q.line = [] ∧ q.set = .pure () { q with line := [], banked := true }) ∨
    (∃ n rest, q.line = n :: rest ∧ q.set
      = ⟨(), { q with line := rest, handed := q.handed ++ [{ n with mark := .notified }] },
        ({ n with mark := .notified } : Node).rouse⟩) := by
  cases hline : q.line with
  | nil =>
    refine Or.inl ⟨rfl, ?_⟩
    simp only [set, hline, Line.dequeue]
  | cons n rest =>
    have hmark : n.mark = .pending := h n (hline ▸ List.mem_cons_self)
    refine Or.inr ⟨n, rest, rfl, ?_⟩
    simp only [set, hline, Line.dequeue, Node.notify?, hmark, if_true]

theorem set_sound (h : q.Sound age K T) : q.set.state.Sound age K T := by
  rcases set_cases h.pending with ⟨hline, hcase⟩ | ⟨n, rest, hline, hcase⟩
  · rw [hcase]
    exact
      { roll := by
          have hroll := h.roll
          rw [hline] at hroll
          exact hroll
        pending := by simp
        lone := fun _ => rfl }
  · rw [hcase]
    have hroll := h.roll
    rw [hline] at hroll
    refine
      { roll := ?_
        pending := fun m hm => h.pending m (hline ▸ List.mem_cons_of_mem _ hm)
        lone := fun hbanked => ?_ }
    · have hmoved : Roll K T q.nextTicket (rest ++ (q.handed ++ [n])) := by
        refine hroll.perm ?_
        rw [← List.append_assoc]
        exact (List.perm_append_singleton n _).symm
      refine hmoved.congr ?_
      simp only [List.map_append, List.map_cons, List.map_nil]
      rfl
    · exact absurd (h.lone hbanked) (by simp [hline])

theorem set_counts (h : q.Sound age K T) : countsOf q.set.state
    = ⟨min ((countsOf q).pending + 1) ((countsOf q).registered + 1), (countsOf q).registered⟩ := by
  rcases set_cases h.pending with ⟨hline, hcase⟩ | ⟨n, rest, hline, hcase⟩
  · rw [hcase, countsOf_eq, countsOf_eq, hline, Outcome.pure_state]
    have hle := q.banked.toNat_le
    simp only [Bool.toNat_true, List.length_nil, Counts.mk.injEq, and_true]
    omega
  · have hbanked := h.not_banked (n := n) (hline ▸ List.mem_cons_self)
    rw [hcase, countsOf_eq, countsOf_eq, hline, hbanked]
    simp only [Bool.toNat_false, List.length_append, List.length_cons, List.length_nil,
      Counts.mk.injEq]
    omega

theorem set_heard (h : ∀ n ∈ q.line, n.mark = .pending) (k : Nat) (w : Waker)
    (hasleep : q.line.sleeperAt k = some w) :
    q.set.state.line.sleeperAt k = some w ∨ .woken w ∈ q.set.effects := by
  rcases set_cases h with ⟨hline, hcase⟩ | ⟨n, rest, hline, hcase⟩
  · rw [hline] at hasleep
    exact absurd hasleep (by simp [Line.sleeperAt, Line.find])
  · rw [hcase]
    rw [hline, Line.sleeperAt] at hasleep
    by_cases hticket : n.ticket = k
    · rw [Line.find_cons_eq hticket] at hasleep
      exact Or.inr (Node.mem_rouse_of_sleeper? hasleep _)
    · rw [Line.find_cons_ne hticket] at hasleep
      exact Or.inl hasleep

theorem set_turn (h : q.Sound age K T) : Turn q q.set.state q.set.effects [.set] none where
  counts := by
    rw [set_counts h]
    exact .one (.set _ _)
  heard k w _ := set_heard h.pending k w

theorem tryWait_sound (h : q.Sound age K T) : q.tryWait.state.Sound age K T :=
  { roll := h.roll
    pending := h.pending
    lone := by simp [tryWait] }

theorem tryWait_turn (q : Queue) :
    Turn q q.tryWait.state q.tryWait.effects (if q.tryWait.answer then [.take] else []) none where
  counts := by
    rw [countsOf_eq, countsOf_eq]
    cases hbanked : q.banked with
    | false =>
      simp only [tryWait, Outcome.pure_answer, Outcome.pure_state, hbanked]
      exact .nil _
    | true =>
      simp only [tryWait, Outcome.pure_answer, Outcome.pure_state, hbanked, Bool.toNat_true,
        Bool.toNat_false, if_true, Nat.zero_add, Nat.add_comm 1]
      exact .one (.take _ _)
  heard _ _ _ hasleep := Or.inl hasleep

/-! ### Joining the line -/

/-- The signal after somebody has joined the line. -/
def joined (p : Party) (q : Queue) : Queue :=
  { q with line := q.line ++ [⟨q.nextTicket, .pending, p⟩], nextTicket := q.nextTicket + 1 }

/-- Whoever asks takes the banked signal, or joins the line under the next ticket. -/
theorem enqueue_cases (p : Party) (q : Queue) :
    (q.banked = true ∧ q.enqueue p = q.tryWait.map fun _ => none) ∨
    (q.banked = false ∧ q.enqueue p = .pure (some q.nextTicket) (q.joined p)) := by
  cases hbanked : q.banked with
  | false => exact Or.inr ⟨rfl, by simp [enqueue, hbanked, joined]⟩
  | true => exact Or.inl ⟨rfl, by simp [enqueue, tryWait, hbanked, Outcome.map, Outcome.pure]⟩

theorem joined_sound {K' : List Nat} {T' : List Thread} {p : Party} (h : q.Sound age K T)
    (hbanked : q.banked = false)
    (hroll : Roll K' T' (q.nextTicket + 1) (⟨q.nextTicket, .pending, p⟩ :: (q.line ++ q.handed))) :
    (q.joined p).Sound age K' T' where
  roll := by
    refine hroll.perm ?_
    simp only [joined, List.append_assoc, List.singleton_append]
    exact List.perm_middle.symm
  pending n hn := by
    rcases List.mem_append.mp hn with hmem | hmem
    · exact h.pending n hmem
    · obtain rfl := List.mem_singleton.mp hmem
      rfl
  lone hup := by
    rw [joined, hbanked] at hup
    exact absurd hup (by decide)

theorem joined_turn (p : Party) (q : Queue) : Turn q (q.joined p) [] [.join] none where
  counts := by
    have hlength : (q.joined p).line.length + (q.joined p).handed.length
        = q.line.length + q.handed.length + 1 := by
      simp only [joined, List.length_append, List.length_cons, List.length_nil]
      omega
    rw [countsOf_eq, countsOf_eq, hlength]
    exact .one (.join _ _)
  heard _ _ _ hasleep := Or.inl (Line.sleeperAt_append hasleep)

/-- Nobody in the line has the next ticket. -/
theorem line_find_next (h : q.Sound age K T) : q.line.find q.nextTicket = none := by
  refine Line.find_eq_none.mpr fun n hn => ?_
  exact Line.find_eq_none.mp h.roll.find_next n (List.mem_append_left _ hn)

/-- The newcomer is found under its ticket. -/
theorem joined_find (p : Party) (h : q.Sound age K T) :
    (q.joined p).line.find q.nextTicket = some ⟨q.nextTicket, .pending, p⟩ := by
  rw [joined, Line.find_append, line_find_next h, Option.none_or]
  exact Line.find_cons_eq rfl

/-! ### Leaving the line -/

/-- A registered ticket is in the line, or its holder was handed the signal. -/
theorem ticket_cases (h : q.Sound age (t :: K) T) :
    (∃ n, q.line.find t = some n ∧ n.mark = .pending ∧ n.thread? = none ∧
      q.handed.find t = none) ∨
    (∃ n, q.handed.find t = some n ∧ n.thread? = none ∧ q.line.find t = none) := by
  obtain ⟨n, hn, rfl, htask⟩ := h.roll.exists_task List.mem_cons_self
  have hdistinct := h.roll.distinct
  rw [List.map_append, List.nodup_append] at hdistinct
  obtain ⟨hline, hhanded, hapart⟩ := hdistinct
  rcases List.mem_append.mp hn with hmem | hmem
  · refine Or.inl ⟨n, Line.find_of_mem hline hmem, h.pending n hmem, htask, ?_⟩
    refine Line.find_eq_none.mpr fun m hm heq => ?_
    exact hapart _ (List.mem_map_of_mem hmem) _ (List.mem_map_of_mem hm) heq.symm
  · refine Or.inr ⟨n, Line.find_of_mem hhanded hmem, htask, ?_⟩
    refine Line.find_eq_none.mpr fun m hm heq => ?_
    exact hapart _ (List.mem_map_of_mem hm) _ (List.mem_map_of_mem hmem) heq

/-- A waiter in the line leaves it and reports so. -/
theorem withdraw_found (hfind : q.line.find t = some n) (hmark : n.mark = .pending) :
    q.withdraw t = ⟨true, { q with line := q.line.remove t },
      [.reported q.observer .waitCancelled]⟩ := by
  simp only [withdraw, hfind, Option.bind_some, Node.cancel?, hmark, if_true]

theorem withdraw_missing (hfind : q.line.find t = none) : q.withdraw t = .pure false q := by
  simp only [withdraw, hfind, Option.bind_none]

theorem remove_line_sound {K' : List Nat} {T' : List Thread} (h : q.Sound age K T)
    (hfind : q.line.find t = some n)
    (hroll : Roll K T q.nextTicket (n :: (q.line.remove t ++ q.handed)) →
      Roll K' T' q.nextTicket (q.line.remove t ++ q.handed)) :
    ({ q with line := q.line.remove t } : Queue).Sound age K' T' where
  roll := hroll (h.roll.perm ((Line.perm_remove hfind).append_right _))
  pending m hm := h.pending m (List.mem_of_mem_eraseP hm)
  lone hbanked := by
    show q.line.remove t = []
    rw [h.lone hbanked]
    rfl

/-- A waiter less in the line. -/
theorem remove_line_counts (h : q.Sound age K T) (hfind : q.line.find t = some n) :
    (countsOf q).Path [.withdraw] (countsOf ({ q with line := q.line.remove t } : Queue)) := by
  have hlength := (Line.perm_remove hfind).length_eq
  have hbanked := h.not_banked (Line.find_mem hfind)
  rw [List.length_cons] at hlength
  rw [countsOf_eq, countsOf_eq, hbanked]
  have hwithdraw := Counts.Step.withdraw (false.toNat + q.handed.length)
    ((q.line.remove t).length + q.handed.length)
  have hmin : min (false.toNat + q.handed.length)
      ((q.line.remove t).length + q.handed.length + 1) = false.toNat + q.handed.length := by
    simp only [Bool.toNat_false]
    omega
  rw [hmin] at hwithdraw
  rw [hlength, Nat.add_right_comm]
  exact .one hwithdraw

theorem remove_handed_sound {K' : List Nat} {T' : List Thread} (h : q.Sound age K T)
    (hfind : q.handed.find t = some n)
    (hroll : Roll K T q.nextTicket (n :: (q.line ++ q.handed.remove t)) →
      Roll K' T' q.nextTicket (q.line ++ q.handed.remove t)) :
    ({ q with handed := q.handed.remove t } : Queue).Sound age K' T' where
  roll := hroll (h.roll.perm (((Line.perm_remove hfind).append_left _).trans List.perm_middle))
  pending := h.pending
  lone := h.lone

/-- A task leaves the line. -/
theorem remove_task_turn (h : q.Sound age K T) (hfind : q.line.find t = some n)
    (effects : List Effect) :
    Turn q { q with line := q.line.remove t } effects [.withdraw] (some t) where
  counts := remove_line_counts h hfind
  heard k w hne hasleep := by
    refine Or.inl ?_
    show (q.line.remove t).sleeperAt k = some w
    rw [Line.sleeperAt_remove_ne fun heq => hne (congrArg some heq.symm)]
    exact hasleep

/-- A thread leaves the line. -/
theorem remove_thread_turn (h : q.Sound age K T) (hfind : q.line.find t = some n)
    (hthread : n.thread? ≠ none) (effects : List Effect) :
    Turn q { q with line := q.line.remove t } effects [.withdraw] none where
  counts := remove_line_counts h hfind
  heard k w _ hasleep := by
    by_cases heq : k = t
    · -- a thread has no waker to sleep under
      have hsleeper : n.sleeper? = some w := by
        obtain ⟨m, hm, hsleeper⟩ := Option.bind_eq_some_iff.mp hasleep
        rw [heq, hfind] at hm
        exact Option.some.inj hm ▸ hsleeper
      refine absurd hsleeper ?_
      unfold Node.sleeper? Node.waker?
      unfold Node.thread? at hthread
      cases hparty : n.party with
      | task w' =>
        rw [hparty] at hthread
        exact absurd rfl hthread
      | thread id => split <;> simp
    · refine Or.inl ?_
      show (q.line.remove t).sleeperAt k = some w
      rw [Line.sleeperAt_remove_ne heq]
      exact hasleep

/-! ### Polling and dropping -/

theorem poll_idle (w : Waker) (h : q.Sound age K T) :
    let o := q.poll w .init
    (o.answer = (true, .done) ∧ o.state.Sound (age + 1) K T ∧
      Turn q o.state o.effects [.take] none) ∨
    (o.answer = (false, .queued q.nextTicket) ∧
      o.state.Sound (age + 1) (q.nextTicket :: K) T ∧ Turn q o.state o.effects [.join] none ∧
      o.state.line.sleeperAt q.nextTicket = some w) := by
  simp only [poll]
  rcases enqueue_cases (.task w) q with ⟨hbanked, hcase⟩ | ⟨hbanked, hcase⟩
  · rw [hcase]
    have hturn := tryWait_turn q
    have hanswer : q.tryWait.answer = true := hbanked
    rw [hanswer] at hturn
    exact Or.inl ⟨rfl, { tryWait_sound h with }, hturn⟩
  · rw [hcase]
    refine Or.inr ⟨rfl, { joined_sound h hbanked (h.roll.join_task w .pending) with }, ?_, ?_⟩
    · exact joined_turn (.task w) q
    · show (q.joined (.task w)).line.sleeperAt q.nextTicket = some w
      rw [Line.sleeperAt, joined_find (.task w) h]
      rfl

theorem register_sound (w : Waker) (h : q.Sound age K T) (hfind : q.line.find t = some n)
    (htask : n.thread? = none) :
    ({ q with line := q.line.update t (Node.register w) } : Queue).Sound age K T where
  roll := by
    refine h.roll.congr ?_
    have hdistinct := h.roll.distinct
    rw [List.map_append, List.nodup_append] at hdistinct
    rw [List.map_append, List.map_append, Line.update_faces]
    intro m hm hticket
    have hsame : q.line.find t = some m := hticket ▸ Line.find_of_mem hdistinct.1 hm
    obtain rfl : n = m := Option.some.inj (hfind.symm.trans hsame)
    simp only [Node.face, htask]
    rfl
  pending m hm := by
    obtain ⟨m', hm', rfl⟩ := List.mem_map.mp hm
    have hmark := h.pending m' hm'
    split
    · exact hmark
    · exact hmark
  lone hbanked := by
    show q.line.update t (Node.register w) = []
    rw [h.lone hbanked]
    rfl

theorem poll_registered (w : Waker) (h : q.Sound age (t :: K) T) :
    let o := q.poll w (.queued t)
    (o.answer = (true, .done) ∧ o.state.Sound (age + 1) K T ∧
      Turn q o.state o.effects [.resolve] (some t)) ∨
    (o.answer = (false, .queued t) ∧ o.state.Sound (age + 1) (t :: K) T ∧
      Turn q o.state o.effects [] (some t) ∧ o.state.line.sleeperAt t = some w) := by
  rcases ticket_cases h with ⟨n, hfind, hmark, htask, hnone⟩ | ⟨n, hfind, htask, hnone⟩
  · have hcase : q.poll w (.queued t) = .pure (false, .queued t)
        { q with line := q.line.update t (Node.register w) } := by
      simp [poll, isHanded, hnone]
    rw [hcase]
    refine Or.inr ⟨rfl, { register_sound w h hfind htask with }, ⟨?_, fun k w' hne hasleep => ?_⟩,
      Line.sleeperAt_register w hfind hmark⟩
    · rw [countsOf_eq, countsOf_eq]
      simp only [Outcome.pure_state, Line.update, List.length_map]
      exact .nil _
    · refine Or.inl ?_
      show (q.line.update t (Node.register w)).sleeperAt k = some w'
      rw [Line.sleeperAt_update_ne (f := Node.register w) (fun _ => rfl)
        fun heq => hne (congrArg some heq.symm)]
      exact hasleep
  · have hcase : q.poll w (.queued t) = .pure (true, .done)
        { q with handed := q.handed.remove t } := by
      simp [poll, isHanded, hfind]
    have hticket := Line.find_ticket hfind
    have hsound := remove_handed_sound h hfind fun hroll => hroll.leave_task hticket htask
    rw [hcase]
    refine Or.inl ⟨rfl, { hsound with }, ⟨?_, fun _ _ _ hasleep => Or.inl hasleep⟩⟩
    have hlength := (Line.perm_remove hfind).length_eq
    rw [List.length_cons] at hlength
    rw [countsOf_eq, countsOf_eq, hlength]
    exact .one (.resolve _ _)

theorem drop_registered (h : q.Sound age (t :: K) T) :
    let o := q.drop (.queued t)
    o.state.Sound age K T ∧ Turn q o.state o.effects [.withdraw] (some t) := by
  rcases ticket_cases h with ⟨n, hfind, hmark, htask, _⟩ | ⟨n, hfind, htask, hnone⟩
  · have hticket := Line.find_ticket hfind
    have hcase : q.drop (.queued t) = ⟨(), { q with line := q.line.remove t },
        [.reported q.observer .waitCancelled]⟩ := by
      simp only [drop, withdraw_found hfind hmark, Outcome.andThen, if_true, Outcome.pure,
        List.append_nil]
    rw [hcase]
    exact ⟨remove_line_sound h hfind fun hroll => hroll.leave_task hticket htask,
      remove_task_turn h hfind _⟩
  · have hticket := Line.find_ticket hfind
    have hcase : q.drop (.queued t) = set { q with handed := q.handed.remove t } := by
      simp only [drop, withdraw_missing hnone, Outcome.pure_andThen, Bool.false_eq_true, if_false]
    have hsound := remove_handed_sound h hfind fun hroll => hroll.leave_task hticket htask
    have hlength := (Line.perm_remove hfind).length_eq
    rw [List.length_cons] at hlength
    rw [hcase]
    refine ⟨set_sound hsound, ?_, fun k w _ hasleep => set_heard hsound.pending k w hasleep⟩
    rw [set_counts hsound, countsOf_eq, countsOf_eq, hlength]
    exact .one (.withdraw _ _)

/-! ### Threads -/

theorem block_lawful (id : Thread) (h : q.Sound age K T) :
    let o := q.block id
    (o.answer = true ∧ o.state.Sound age K T ∧ Turn q o.state o.effects [.take] none) ∨
    (o.answer = false ∧ o.state.Sound age K (id :: T) ∧
      Turn q o.state o.effects [.join] none) := by
  simp only [block]
  rcases enqueue_cases (.thread id) q with ⟨hbanked, hcase⟩ | ⟨hbanked, hcase⟩
  · rw [hcase]
    have hturn := tryWait_turn q
    have hanswer : q.tryWait.answer = true := hbanked
    rw [hanswer] at hturn
    exact Or.inl ⟨rfl, tryWait_sound h, hturn⟩
  · rw [hcase]
    exact Or.inr ⟨rfl, joined_sound h hbanked (h.roll.join_thread id .pending),
      joined_turn (.thread id) q⟩

theorem expire_lawful (h : q.Sound age K T) :
    let o := q.expire
    o.state.Sound age K T ∧
      Turn q o.state o.effects (if o.answer then [.take] else [.join, .withdraw]) none := by
  rcases enqueue_cases (.thread "") q with ⟨hbanked, henqueue⟩ | ⟨hbanked, henqueue⟩
  · have hanswer : q.tryWait.answer = true := hbanked
    have hcase : q.expire = q.tryWait := by
      simp only [expire, henqueue, Outcome.andThen, Outcome.map, Outcome.pure, List.append_nil]
      rw [← hanswer]
    have hturn := tryWait_turn q
    rw [hcase]
    refine ⟨tryWait_sound h, ?_⟩
    simp only [hanswer, if_true] at hturn ⊢
    exact hturn
  · have hjoined := joined_sound h hbanked (h.roll.join_thread "" .pending)
    have hfind := joined_find (.thread "") h
    have hcase : q.expire = ⟨false,
        { q.joined (.thread "") with line := (q.joined (.thread "")).line.remove q.nextTicket },
        [.reported (q.joined (.thread "")).observer .waitCancelled]⟩ := by
      simp only [expire, henqueue, Outcome.pure_andThen, withdraw_found hfind rfl, Outcome.map,
        Bool.not_true]
    rw [hcase]
    refine ⟨remove_line_sound hjoined hfind fun hroll => hroll.leave_thread rfl, ?_⟩
    exact (joined_turn (.thread "") q).trans
      (remove_thread_turn hjoined hfind (by simp [Node.thread?]) _)

/-- A thread whose time is over is in the line once those that were handed the signal have returned,
    and leaves it. -/
theorem timeUp_cases {id : Thread} (h : q.Sound age K (id :: T))
    (rested : q.handed.filterMap Node.thread? = []) :
    ∃ n, q.line.find n.ticket = some n ∧ n.thread? = some id ∧
      q.timeUp id = ⟨false, { q with line := q.line.remove n.ticket },
        [.reported q.observer .waitCancelled]⟩ := by
  obtain ⟨n, hfound, hthread⟩ : ∃ n, List.find? (fun n => n.thread? == some id) q.line = some n ∧
      n.thread? = some id := by
    have hthreads := h.roll.threads
    rw [List.filterMap_append, rested, List.append_nil] at hthreads
    obtain ⟨m, hm, hthread⟩ :=
      List.mem_filterMap.mp (hthreads.mem_iff.mp (List.mem_cons_self (a := id)))
    cases hfind : List.find? (fun n : Node => n.thread? == some id) q.line with
    | none => exact absurd (beq_iff_eq.mpr hthread) (List.find?_eq_none.mp hfind m hm)
    | some n =>
      have heq := List.find?_some hfind
      exact ⟨n, rfl, eq_of_beq heq⟩
  have hmem := List.mem_of_find?_eq_some hfound
  have hdistinct := h.roll.distinct
  rw [List.map_append, List.nodup_append] at hdistinct
  have hfind := Line.find_of_mem hdistinct.1 hmem
  refine ⟨n, hfind, hthread, ?_⟩
  simp only [timeUp, hfound, withdraw_found hfind (h.pending n hmem), Outcome.map, Bool.not_true]

theorem timeUp_lawful {id : Thread} (h : q.Sound age K (id :: T))
    (rested : q.handed.filterMap Node.thread? = []) :
    let o := q.timeUp id
    o.state.Sound age K T ∧
      Turn q o.state o.effects (if o.answer then [.resolve] else [.withdraw]) none := by
  obtain ⟨n, hfind, hthread, hcase⟩ := timeUp_cases h rested
  rw [hcase]
  exact ⟨remove_line_sound h hfind fun hroll => hroll.leave_thread hthread,
    remove_thread_turn h hfind (by rw [hthread]; simp) _⟩

theorem settle_lawful (h : q.Sound age K T) :
    let o := q.settle
    ∃ T', T.Perm (o.answer ++ T') ∧ o.state.Sound age K T' ∧
      o.state.handed.filterMap Node.thread? = [] ∧
      Turn q o.state o.effects (List.replicate o.answer.length .resolve) none := by
  obtain ⟨hthreads, hroll⟩ := h.roll.dismiss
  refine ⟨_, hthreads, ⟨hroll, h.pending, h.lone⟩, ?_, ?_, fun _ _ _ hasleep => Or.inl hasleep⟩
  · rw [List.filterMap_eq_nil_iff]
    intro n hn
    exact Option.isNone_iff_eq_none.mp (List.mem_filter.mp hn).2
  · have hsplit : ∀ l : Line, l.length = (l.filter fun n => n.thread?.isNone).length
        + (l.filterMap Node.thread?).length := by
      intro l
      induction l with
      | nil => rfl
      | cons n l ih => cases hthread : n.thread? <;> simp [hthread, ih] <;> omega
    rw [countsOf_eq, countsOf_eq, hsplit q.handed, ← Nat.add_assoc, ← Nat.add_assoc]
    exact .resolves _ _ _

/-! ### The laws -/

theorem new_sound (observer : Observer) : (Queue.new observer).Sound 0 [] [] :=
  ⟨.nil, by simp [Queue.new], fun _ => rfl⟩

theorem Sound.awake_task (h : q.Sound age K T) (rested : q.handed.filterMap Node.thread? = [])
    (pending : 0 < q.pendingReleases) (registered : 0 < q.registeredWaits) :
    ∃ k ∈ K, q.line.sleeperAt k = none := by
  have hhanded : q.handed ≠ [] := by
    intro hempty
    unfold registeredWaits at registered
    unfold pendingReleases at pending
    rw [hempty, List.length_nil, Nat.add_zero] at registered pending
    obtain ⟨n, hn⟩ := List.exists_mem_of_length_pos registered
    rw [h.not_banked hn] at pending
    exact absurd pending (by decide)
  obtain ⟨n, hn⟩ := List.exists_mem_of_ne_nil _ hhanded
  have htask : n.thread? = none := List.filterMap_eq_nil_iff.mp rested n hn
  refine ⟨n.ticket, h.roll.ticket_mem (List.mem_append_right _ hn) htask, ?_⟩
  have hdistinct := h.roll.distinct
  rw [List.map_append, List.nodup_append] at hdistinct
  have hnone : q.line.find n.ticket = none := by
    refine Line.find_eq_none.mpr fun m hm heq => ?_
    exact hdistinct.2.2 _ (List.mem_map_of_mem hm) _ (List.mem_map_of_mem hn) heq
  rw [Line.sleeperAt, hnone]
  rfl

instance : LawfulSignal Queue Queue.Wait Nat where
  young_of_le _ _ := trivial
  sparse_of_few _ := trivial
  new := new_sound
  new_counts _ := rfl
  new_rested _ := rfl
  perm hK hT h := { h with roll := (Sound.roll h).perm_held hK hT }
  older h := { h with }
  distinct h _ := (Sound.roll h).nodup
  registered h := Sound.registered h
  awake h _ rested pending registered := Sound.awake_task h rested pending registered
  set h _ := ⟨set_sound h, set_turn h⟩
  tryWait {age K T s} h := ⟨tryWait_sound h, tryWait_turn s⟩
  wait_idle := rfl
  poll_idle {age K T s wait} w hwait h _ := by
    cases wait with
    | init =>
      rcases poll_idle w h with ⟨hanswer, hsound, hturn⟩ | ⟨hanswer, hsound, hturn, hsleeps⟩
      · exact Or.inl ⟨congrArg Prod.fst hanswer,
          congrArg (fun r => (Staged.stage r.2).ticket?) hanswer, hsound, hturn⟩
      · exact Or.inr ⟨congrArg Prod.fst hanswer, s.nextTicket,
          congrArg (fun r => Staged.stage r.2) hanswer, hsound, hturn, fun _ => hsleeps⟩
    | queued ticket => exact absurd hwait (by simp [Staged.stage])
    | done => exact absurd hwait (by simp [Staged.stage])
  poll_registered {age K T s wait t} w hwait h := by
    cases wait with
    | queued ticket =>
      obtain rfl : ticket = t := by simpa [Staged.stage] using hwait
      rcases poll_registered w h with ⟨hanswer, hsound, hturn⟩ | ⟨hanswer, hsound, hturn, hsleeps⟩
      · exact Or.inl ⟨congrArg Prod.fst hanswer,
          congrArg (fun r => (Staged.stage r.2).ticket?) hanswer, hsound, hturn⟩
      · exact Or.inr ⟨congrArg Prod.fst hanswer,
          congrArg (fun r => Staged.stage r.2) hanswer, hsound, hturn, hsleeps⟩
    | init => exact absurd hwait (by simp [Staged.stage])
    | done => exact absurd hwait (by simp [Staged.stage])
  poll_over {s wait} w hwait := by
    cases wait with
    | done => rfl
    | init => exact absurd hwait (by simp [Staged.stage])
    | queued ticket => exact absurd hwait (by simp [Staged.stage])
  drop_registered {age K T s wait t} hwait h := by
    cases wait with
    | queued ticket =>
      obtain rfl : ticket = t := by simpa [Staged.stage] using hwait
      exact drop_registered h
    | init => exact absurd hwait (by simp [Staged.stage])
    | done => exact absurd hwait (by simp [Staged.stage])
  drop_other {s wait} hwait := by
    cases wait with
    | queued ticket => exact absurd hwait (by simp [Staged.stage, Stage.ticket?])
    | init => rfl
    | done => rfl
  block hoffered age K T s id h _ := by
    obtain rfl := Option.some.inj hoffered
    exact block_lawful id h
  expire hoffered age K T s h _ := by
    rcases hoffered with hoffered | hoffered
    · obtain rfl := Option.some.inj hoffered
      exact expire_lawful h
    · exact absurd hoffered (by simp [Facilities.pastDeadline?])
  timeUp hoffered age K T s id h rested := by
    obtain rfl := Option.some.inj hoffered
    exact timeUp_lawful h rested
  settle h := settle_lawful h
  key_stage hoffered := absurd hoffered (by simp [Facilities.pollKey?])
  ofKey_toKey hoffered := absurd hoffered (by simp [Facilities.pollKey?])
  pollKey hoffered := absurd hoffered (by simp [Facilities.pollKey?])
  cancelKey hoffered := absurd hoffered (by simp [Facilities.cancelKey?])

end Conduit.Signal.Queue

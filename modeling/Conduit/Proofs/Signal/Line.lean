/-
  Conduit/Proofs/Signal/Line.lean
  ===============================
  **A line and those who hold its tickets.**

  `Roll` calls the roll of a line: the tickets that tasks hold and the threads that wait
  are exactly the nodes of the line, and no ticket is there twice.  It looks at a node's
  ticket and at whether it is a thread (`Node.face`), not at its mark or waker, so it
  survives whatever is done to those; and it does not mind the order of the nodes.

  `sleeperAt` is what a mark and a waker are for: under which waker a task that nobody
  has notified yet would be woken.
-/
import Conduit.Proofs.Signal.Tracked

namespace Conduit.Signal

namespace Node

/-- What a node keeps as long as it is in a line: its ticket, and the thread if it is one. -/
def face (n : Node) : Nat × Option Thread := (n.ticket, n.thread?)

/-- The ticket of a task. -/
def task? (n : Node) : Option Nat := if n.thread? = none then some n.ticket else none

/-- The waker of a task. -/
def waker? (n : Node) : Option Waker :=
  match n.party with
  | .task w => some w
  | .thread _ => none

/-- The waker of a task that is pending. -/
def sleeper? (n : Node) : Option Waker := if n.mark = .pending then n.waker? else none

theorem sleeper?_of_not_pending {n : Node} (h : n.mark ≠ .pending) : n.sleeper? = none :=
  if_neg h

/-- A task that sleeps has its waker called when it is roused. -/
theorem mem_rouse_of_sleeper? {n : Node} {w : Waker} (h : n.sleeper? = some w) (m : Mark) :
    .woken w ∈ ({ n with mark := m } : Node).rouse := by
  unfold sleeper? waker? at h
  unfold rouse
  cases hparty : n.party with
  | task w' =>
    rw [hparty] at h
    split at h
    · obtain rfl := Option.some.inj h
      exact List.mem_singleton.mpr rfl
    · exact absurd h (by simp)
  | thread t =>
    rw [hparty] at h
    split at h <;> exact absurd h (by simp)

end Node

namespace Line

variable {l l' : Line} {n : Node} {t t' : Nat}

/-! ### Finding by ticket -/

theorem find_ticket (h : l.find t = some n) : n.ticket = t := by
  have hfound := List.find?_some h
  exact eq_of_beq hfound

theorem find_mem (h : l.find t = some n) : n ∈ l := List.mem_of_find?_eq_some h

theorem find_eq_none : l.find t = none ↔ ∀ n ∈ l, n.ticket ≠ t := by
  simp [find]

theorem find_cons_eq (h : n.ticket = t) : find (n :: l) t = some n := by
  simp [find, h]

theorem find_cons_ne (h : n.ticket ≠ t) : find (n :: l) t = l.find t := by
  simp [find, h]

theorem find_append : find (l ++ l') t = (l.find t).or (l'.find t) := by
  simp [find]

/-- With distinct tickets every node is found under its own. -/
theorem find_of_mem (h : (l.map Node.ticket).Nodup) (hn : n ∈ l) : l.find n.ticket = some n := by
  induction l with
  | nil => simp at hn
  | cons n₀ l ih =>
    rw [List.map_cons, List.nodup_cons] at h
    rcases List.mem_cons.mp hn with rfl | hmem
    · exact find_cons_eq rfl
    · have hne : n₀.ticket ≠ n.ticket := fun heq => h.1 (List.mem_map.mpr ⟨n, hmem, heq.symm⟩)
      rw [find_cons_ne hne]
      exact ih h.2 hmem

theorem remove_cons_eq (h : n.ticket = t) : remove (n :: l) t = l := by
  simp [remove, h]

theorem remove_cons_ne (h : n.ticket ≠ t) : remove (n :: l) t = n :: l.remove t := by
  simp [remove, h]

/-- Taking a node out leaves all the others. -/
theorem perm_remove (h : l.find t = some n) : l.Perm (n :: l.remove t) := by
  induction l with
  | nil => simp [find] at h
  | cons n₀ l ih =>
    by_cases hticket : n₀.ticket = t
    · rw [find_cons_eq hticket] at h
      obtain rfl := Option.some.inj h
      rw [remove_cons_eq hticket]
    · rw [find_cons_ne hticket] at h
      rw [remove_cons_ne hticket]
      exact ((ih h).cons n₀).trans (List.Perm.swap n n₀ _)

theorem find_remove_ne (h : t' ≠ t) : (l.remove t).find t' = l.find t' := by
  induction l with
  | nil => rfl
  | cons n₀ l ih =>
    by_cases hticket : n₀.ticket = t
    · rw [remove_cons_eq hticket, find_cons_ne (hticket ▸ h.symm)]
    · rw [remove_cons_ne hticket]
      by_cases hticket' : n₀.ticket = t'
      · rw [find_cons_eq hticket', find_cons_eq hticket']
      · rw [find_cons_ne hticket', find_cons_ne hticket', ih]

/-! ### Changing nodes -/

variable {f : Node → Node}

theorem update_cons_eq (h : n.ticket = t) : update (n :: l) t f = f n :: l.update t f := by
  simp [update, h]

theorem update_cons_ne (h : n.ticket ≠ t) : update (n :: l) t f = n :: l.update t f := by
  simp [update, h]

theorem find_update_ne (hf : ∀ n, (f n).ticket = n.ticket) (h : t' ≠ t) :
    (l.update t f).find t' = l.find t' := by
  induction l with
  | nil => rfl
  | cons n₀ l ih =>
    by_cases hticket : n₀.ticket = t
    · have hne : n₀.ticket ≠ t' := hticket ▸ h.symm
      rw [update_cons_eq hticket, find_cons_ne ((hf n₀).symm ▸ hne), find_cons_ne hne, ih]
    · rw [update_cons_ne hticket]
      by_cases hticket' : n₀.ticket = t'
      · rw [find_cons_eq hticket', find_cons_eq hticket']
      · rw [find_cons_ne hticket', find_cons_ne hticket', ih]

theorem find_update (hf : ∀ n, (f n).ticket = n.ticket) :
    (l.update t f).find t = (l.find t).map f := by
  induction l with
  | nil => rfl
  | cons n₀ l ih =>
    by_cases hticket : n₀.ticket = t
    · rw [update_cons_eq hticket, find_cons_eq ((hf n₀).trans hticket), find_cons_eq hticket]
      rfl
    · rw [update_cons_ne hticket, find_cons_ne hticket, find_cons_ne hticket, ih]

theorem update_faces (hf : ∀ n ∈ l, n.ticket = t → (f n).face = n.face) :
    (l.update t f).map Node.face = l.map Node.face := by
  simp only [update, List.map_map]
  apply List.map_congr_left
  intro n hn
  by_cases hticket : n.ticket = t
  · simp [hticket, hf n hn hticket]
  · simp [hticket]

/-- What notifying the first pending node leads to: nothing if there is none. -/
theorem notifyFirst_cases (l : Line) :
    (l.notifyFirst = none ∧ ∀ n ∈ l, n.mark ≠ .pending) ∨
    (∃ front n back, l = front ++ n :: back ∧ n.mark = .pending ∧
      l.notifyFirst = some ({ n with mark := .notified },
        front ++ { n with mark := .notified } :: back)) := by
  induction l with
  | nil => exact Or.inl ⟨rfl, by simp⟩
  | cons n₀ l ih =>
    by_cases hmark : n₀.mark = .pending
    · refine Or.inr ⟨[], n₀, l, rfl, hmark, ?_⟩
      simp [notifyFirst, Node.notify?, hmark]
    · rcases ih with ⟨hnone, hall⟩ | ⟨front, n, back, rfl, hn, hsome⟩
      · refine Or.inl ⟨by simp [notifyFirst, Node.notify?, hmark, hnone], ?_⟩
        intro n hn
        rcases List.mem_cons.mp hn with rfl | hmem
        · exact hmark
        · exact hall n hmem
      · refine Or.inr ⟨n₀ :: front, n, back, rfl, hn, ?_⟩
        simp [notifyFirst, Node.notify?, hmark, hsome]

/-! ### Who sleeps -/

/-- The waker under which the task with a ticket sleeps, if nobody has notified it. -/
def sleeperAt (l : Line) (t : Nat) : Option Waker := (l.find t).bind Node.sleeper?

theorem sleeperAt_remove_ne (h : t' ≠ t) : (l.remove t).sleeperAt t' = l.sleeperAt t' := by
  rw [sleeperAt, find_remove_ne h, sleeperAt]

theorem sleeperAt_update_ne (hf : ∀ n, (f n).ticket = n.ticket) (h : t' ≠ t) :
    (l.update t f).sleeperAt t' = l.sleeperAt t' := by
  rw [sleeperAt, find_update_ne hf h, sleeperAt]

/-- A pending node that stores a waker sleeps under it. -/
theorem sleeperAt_register (w : Waker) (h : l.find t = some n) (hmark : n.mark = .pending) :
    (l.update t (Node.register w)).sleeperAt t = some w := by
  have hfind : (l.update t (Node.register w)).find t = some (n.register w) := by
    rw [find_update (f := Node.register w) fun _ => rfl, h]
    rfl
  rw [sleeperAt, hfind]
  show (n.register w).sleeper? = some w
  simp [Node.sleeper?, Node.register, hmark, Node.waker?]

/-- Whoever sleeps in a line sleeps in the longer one. -/
theorem sleeperAt_append {w : Waker} (h : l.sleeperAt t = some w) :
    sleeperAt (l ++ l') t = some w := by
  obtain ⟨n, hfind, hsleeper⟩ := Option.bind_eq_some_iff.mp h
  rw [sleeperAt, find_append, hfind]
  exact hsleeper

/-- Whoever sleeps when a node is notified sleeps on or was roused. -/
theorem sleeperAt_notify {front back : Line} {w : Waker}
    (h : sleeperAt (front ++ n :: back) t = some w) :
    sleeperAt (front ++ { n with mark := .notified } :: back) t = some w ∨
      .woken w ∈ ({ n with mark := .notified } : Node).rouse := by
  rw [sleeperAt, find_append] at h ⊢
  cases hfront : front.find t with
  | some m =>
    rw [hfront] at h
    exact Or.inl h
  | none =>
    rw [hfront, Option.none_or] at h
    rw [Option.none_or]
    by_cases hticket : n.ticket = t
    · rw [find_cons_eq hticket] at h
      exact Or.inr (Node.mem_rouse_of_sleeper? h _)
    · rw [find_cons_ne hticket] at h
      rw [find_cons_ne (by exact hticket)]
      exact Or.inl h

end Line

/-! ### The roll -/

/-- The tasks of a line hold these tickets, its threads are these, and the tickets are distinct and
    older than the next one. -/
structure Roll (K : List Nat) (T : List Thread) (next : Nat) (l : Line) : Prop where
  tasks : K.Perm (l.filterMap Node.task?)
  threads : T.Perm (l.filterMap Node.thread?)
  distinct : (l.map Node.ticket).Nodup
  old : ∀ n ∈ l, n.ticket < next

namespace Roll

variable {K K' : List Nat} {T T' : List Thread} {next t : Nat} {l l' : Line} {n : Node}

theorem nil : Roll [] [] next [] := ⟨.refl _, .refl _, .nil, by simp⟩

theorem perm_held (h : Roll K T next l) (hK : K.Perm K') (hT : T.Perm T') : Roll K' T' next l :=
  { h with
    tasks := hK.symm.trans h.tasks
    threads := hT.symm.trans h.threads }

/-- The order of the nodes does not matter. -/
theorem perm (h : Roll K T next l) (hl : l.Perm l') : Roll K T next l' where
  tasks := h.tasks.trans (hl.filterMap _)
  threads := h.threads.trans (hl.filterMap _)
  distinct := (hl.map Node.ticket).nodup_iff.mp h.distinct
  old n hn := h.old n (hl.mem_iff.mpr hn)

/-- Nor do marks and wakers. -/
theorem congr (h : Roll K T next l) (hfaces : l'.map Node.face = l.map Node.face) :
    Roll K T next l' := by
  have htasks : l'.filterMap Node.task? = l.filterMap Node.task? := by
    have hmap : ∀ l : Line, l.filterMap Node.task?
        = (l.map Node.face).filterMap fun p => if p.2 = none then some p.1 else none := by
      intro l
      rw [List.filterMap_map]
      rfl
    rw [hmap, hfaces, ← hmap]
  have hthreads : l'.filterMap Node.thread? = l.filterMap Node.thread? := by
    have hmap : ∀ l : Line, l.filterMap Node.thread? = (l.map Node.face).filterMap Prod.snd := by
      intro l
      rw [List.filterMap_map]
      rfl
    rw [hmap, hfaces, ← hmap]
  have htickets : l'.map Node.ticket = l.map Node.ticket := by
    have hmap : ∀ l : Line, l.map Node.ticket = (l.map Node.face).map Prod.fst := by
      intro l
      rw [List.map_map]
      rfl
    rw [hmap, hfaces, ← hmap]
  refine ⟨htasks ▸ h.tasks, hthreads ▸ h.threads, htickets ▸ h.distinct, fun n hn => ?_⟩
  have hmem : n.ticket ∈ l.map Node.ticket := htickets ▸ List.mem_map_of_mem hn
  obtain ⟨m, hm, heq⟩ := List.mem_map.mp hmem
  exact heq ▸ h.old m hm

theorem length_eq (h : Roll K T next l) : l.length = K.length + T.length := by
  have hsplit : ∀ l : Line, l.length
      = (l.filterMap Node.task?).length + (l.filterMap Node.thread?).length := by
    intro l
    induction l with
    | nil => rfl
    | cons n l ih =>
      cases hthread : n.thread? with
      | none => simp [Node.task?, hthread, ih]; omega
      | some t => simp [Node.task?, hthread, ih]; omega
  rw [hsplit l, h.tasks.length_eq, h.threads.length_eq]

theorem nodup (h : Roll K T next l) : K.Nodup := by
  have hsub : ∀ l : Line, (l.filterMap Node.task?).Sublist (l.map Node.ticket) := by
    intro l
    induction l with
    | nil => exact .slnil
    | cons n l ih =>
      cases hthread : n.thread? with
      | none =>
        simp only [List.filterMap_cons, Node.task?, hthread, if_true, List.map_cons]
        exact ih.cons_cons _
      | some t =>
        simp only [List.filterMap_cons, Node.task?, hthread, reduceCtorEq, if_false,
          List.map_cons]
        exact ih.cons _
  exact h.tasks.nodup_iff.mpr (h.distinct.sublist (hsub l))

/-- The holder of a ticket is a task in the line. -/
theorem exists_task (h : Roll K T next l) (ht : t ∈ K) :
    ∃ n ∈ l, n.ticket = t ∧ n.thread? = none := by
  obtain ⟨n, hn, htask⟩ := List.mem_filterMap.mp (h.tasks.mem_iff.mp ht)
  unfold Node.task? at htask
  split at htask
  · next hthread => exact ⟨n, hn, Option.some.inj htask, hthread⟩
  · exact absurd htask (by simp)

/-- A task in the line has a holder of its ticket. -/
theorem ticket_mem (h : Roll K T next l) (hn : n ∈ l) (htask : n.thread? = none) :
    n.ticket ∈ K :=
  h.tasks.mem_iff.mpr (List.mem_filterMap.mpr ⟨n, hn, if_pos htask⟩)

/-- The next ticket is new. -/
theorem find_next (h : Roll K T next l) : l.find next = none :=
  Line.find_eq_none.mpr fun n hn heq => Nat.lt_irrefl _ (heq ▸ h.old n hn)

theorem join_task (h : Roll K T next l) (w : Waker) (m : Mark) :
    Roll (next :: K) T (next + 1) (⟨next, m, .task w⟩ :: l) where
  tasks := h.tasks.cons next
  threads := h.threads
  distinct := by
    refine List.nodup_cons.mpr ⟨fun hmem => ?_, h.distinct⟩
    obtain ⟨n, hn, heq⟩ := List.mem_map.mp hmem
    exact Line.find_eq_none.mp h.find_next n hn heq
  old n hn := by
    rcases List.mem_cons.mp hn with rfl | hmem
    · exact Nat.lt_succ_self _
    · exact Nat.lt_succ_of_lt (h.old n hmem)

theorem join_thread (h : Roll K T next l) (id : Thread) (m : Mark) :
    Roll K (id :: T) (next + 1) (⟨next, m, .thread id⟩ :: l) where
  tasks := h.tasks
  threads := h.threads.cons id
  distinct := by
    refine List.nodup_cons.mpr ⟨fun hmem => ?_, h.distinct⟩
    obtain ⟨n, hn, heq⟩ := List.mem_map.mp hmem
    exact Line.find_eq_none.mp h.find_next n hn heq
  old n hn := by
    rcases List.mem_cons.mp hn with rfl | hmem
    · exact Nat.lt_succ_self _
    · exact Nat.lt_succ_of_lt (h.old n hmem)

theorem leave_task (h : Roll (t :: K) T next (n :: l)) (hticket : n.ticket = t)
    (htask : n.thread? = none) : Roll K T next l where
  tasks := by
    have htasks := h.tasks
    simp only [List.filterMap_cons, Node.task?, htask, if_true, hticket] at htasks
    exact (List.perm_cons t).mp htasks
  threads := by
    have hthreads := h.threads
    simp only [List.filterMap_cons, htask] at hthreads
    exact hthreads
  distinct := (List.nodup_cons.mp h.distinct).2
  old m hm := h.old m (List.mem_cons_of_mem _ hm)

theorem leave_thread {id : Thread} (h : Roll K (id :: T) next (n :: l))
    (hthread : n.thread? = some id) : Roll K T next l where
  tasks := by
    have htasks := h.tasks
    simp only [List.filterMap_cons, Node.task?, hthread, reduceCtorEq, if_false] at htasks
    exact htasks
  threads := by
    have hthreads := h.threads
    simp only [List.filterMap_cons, hthread] at hthreads
    exact (List.perm_cons id).mp hthreads
  distinct := (List.nodup_cons.mp h.distinct).2
  old m hm := h.old m (List.mem_cons_of_mem _ hm)

/-- Threads that return leave the tasks in the line. -/
theorem dismiss (h : Roll K T next (l ++ l')) :
    T.Perm (l'.filterMap Node.thread? ++ l.filterMap Node.thread?) ∧
    Roll K (l.filterMap Node.thread?) next (l ++ l'.filter fun n => n.thread?.isNone) := by
  have hsub : (l ++ l'.filter fun n => n.thread?.isNone).Sublist (l ++ l') :=
    List.filter_sublist.append_left l
  refine ⟨?_, ?_⟩
  · have hthreads := h.threads
    rw [List.filterMap_append] at hthreads
    exact hthreads.trans List.perm_append_comm
  · refine
      { tasks := ?_
        threads := ?_
        distinct := h.distinct.sublist (hsub.map _)
        old := fun n hn => h.old n (hsub.subset hn) }
    · have htasks := h.tasks
      rw [List.filterMap_append] at htasks ⊢
      have hkept : (l'.filter fun n => n.thread?.isNone).filterMap Node.task?
          = l'.filterMap Node.task? := by
        rw [List.filterMap_filter]
        congr 1
        funext n
        cases hthread : n.thread? <;> simp [Node.task?, hthread]
      rw [hkept]
      exact htasks
    · have hnone : (l'.filter fun n => n.thread?.isNone).filterMap Node.thread? = [] := by
        rw [List.filterMap_eq_nil_iff]
        intro n hn
        exact Option.isNone_iff_eq_none.mp (List.mem_filter.mp hn).2
      rw [List.filterMap_append, hnone, List.append_nil]

end Roll

end Conduit.Signal

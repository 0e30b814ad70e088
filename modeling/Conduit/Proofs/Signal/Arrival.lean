/-
  Conduit/Proofs/Signal/Arrival.lean
  ==================================
  **First come, first released.**

  A waiter is pending from the request with which it joins the line until it is handed the
  signal or gives up.  How many requests it has been pending for is counted from the
  outside (`waited`), request by request; the order of the line plays no part in that.

  What a request may do to the line is little (`Shift`): the newcomer comes last, others
  may leave, nobody passes anybody, and the signal goes to the front, but only when it is
  set or when somebody who owns it gives it up.  So the line is sorted by the requests
  waited (`Ranked`), and whoever is in front has waited the longest.
-/
import Conduit.Proofs.Signal.Cancelling

namespace Conduit.Signal

open Staged

/-- Whether the holder of a ticket is in the line and has not been notified. -/
def Queue.isPending (q : Queue) (ticket : Nat) : Bool :=
  (q.line.find ticket).any fun n => n.mark == .pending

/-- Somebody who waits: a task, by the name of its wait, or a thread. -/
inductive Waiter
  | task (id : String)
  | thread (id : Thread)
deriving DecidableEq, Repr

/-- Whose wait a request is about. -/
def Request.waiter? : Request → Option Waiter
  | .wait id | .waitOrCancel id _ | .poll id _ | .drop id => some (.task id)
  | .timeUp id => some (.thread id)
  | _ => none

/-! ### Statements -/

namespace Session

/-- Whether a waiter waits under a ticket. -/
def Holds (s : Session Queue Queue.Wait) : Waiter → Nat → Prop
  | .task id, t => s.ticket? (.wait id) = some t
  | .thread id, t => ∃ n ∈ s.signal.line ++ s.signal.handed, n.ticket = t ∧ n.thread? = some id

/-- The request hands the signal to a waiter that is pending. -/
def Hands (s : Session Queue Queue.Wait) (r : Request) (t : Nat) : Prop :=
  s.signal.isPending t = true ∧ (s.request r).state.signal.isHanded t = true

/-- With this request a waiter gives up. -/
def Withdraws (s : Session Queue Queue.Wait) (r : Request) (t : Nat) : Prop :=
  ∃ a, r.waiter? = some a ∧ s.Holds a t ∧ .withdraw ∈ s.moves r (s.request r).answer

/-- The request sets the signal, or with it a waiter gives up that was handed the signal. -/
def Releases (s : Session Queue Queue.Wait) (r : Request) : Prop :=
  r = .set ∨ ∃ t, s.signal.isHanded t = true ∧ s.Withdraws r t

/-- How many requests each waiter has been pending for, one request later. -/
def ageing (s : Session Queue Queue.Wait) (r : Request) (n : Nat → Nat) : Nat → Nat := fun t =>
  if (s.step r).state.signal.isPending t then n t + 1 else 0

/-- How many requests each waiter has been pending for at the end of a run. -/
def waited (s : Session Queue Queue.Wait) : List Request → (Nat → Nat) → Nat → Nat
  | [], n => n
  | r :: rs, n => waited (s.step r).state rs (s.ageing r n)

/-- What order of arrival means for the next request.  Whoever is pending or was handed the signal
    is a task or a thread; a task is released by its next poll just if it was handed the signal,
    and a thread returns at once.  Whoever is handed the signal has been pending for longer than
    all others that are; that happens when the signal is set or passed on and then only; and
    nobody stops being pending but who is handed the signal or gives up. -/
structure InOrder (s : Session Queue Queue.Wait) (n : Nat → Nat) : Prop where
  held : ∀ t, s.signal.isPending t = true ∨ s.signal.isHanded t = true → ∃ a, s.Holds a t
  resolves : ∀ id t w, s.Holds (.task id) t →
    ((s.request (.poll id w)).answer = .ready ↔ s.signal.isHanded t = true)
  returns : ∀ r id, id ∈ (s.step r).answer.2 ↔ ∃ b, s.Hands r b ∧ s.Holds (.thread id) b
  longest : ∀ r b, s.Hands r b → ∀ a, s.signal.isPending a = true → a ≠ b → n a < n b
  cause : ∀ r b, s.Hands r b → s.Releases r
  handed_on : ∀ r a, s.Releases r → s.signal.isPending a = true → ∃ b, s.Hands r b
  leaves : ∀ r a, s.signal.isPending a = true →
    (s.step r).state.signal.isPending a = true ∨ s.Hands r a ∨ s.Withdraws r a

/-- Nobody barges in: while somebody is pending no signal is banked, whoever asks for one gets
    none, and a wait that has not begun is not released by its first poll, nor a thread at once. -/
structure Unbarged (s : Session Queue Queue.Wait) : Prop where
  unbanked : s.signal.banked = false
  refused : (s.request .tryWait).answer = .truth false
  polled : ∀ id held w, s.waits.get? id = some held → stage held.wait = .idle →
    (s.request (.poll id w)).answer ≠ .ready
  blocked : ∀ id, (s.request (.block id)).answer ≠ .released
  expired : (s.request .expire).answer = .truth false

/-- Whoever comes later does not overtake: if a waiter was pending in a run before another one
    was, and that one is handed the signal, then the first was handed the signal or gave up in
    between. -/
def NotOvertaken (s : Session Queue Queue.Wait) (rs : List Request) : Prop :=
  ∀ xs ys, rs = xs ++ ys → ∀ a b r, (s.after xs).signal.isPending a = true →
    (s.after xs).signal.isPending b = false → (s.after rs).Hands r b →
    ∃ us r' vs, ys = us ++ r' :: vs ∧
      ((s.after (xs ++ us)).Hands r' a ∨ (s.after (xs ++ us)).Withdraws r' a)

end Session

/-! ### Lines and their tickets -/

namespace Line

variable {l : Line} {n : Node} {t : Nat}

/-- The tickets of a line, in order. -/
def tickets (l : Line) : List Nat := l.map Node.ticket

theorem mem_tickets : t ∈ l.tickets ↔ ∃ n ∈ l, n.ticket = t := List.mem_map

theorem tickets_update {f : Node → Node} (hf : ∀ n, (f n).ticket = n.ticket) :
    (l.update t f).tickets = l.tickets := by
  simp only [tickets, update, List.map_map]
  apply List.map_congr_left
  intro n _
  simp only [Function.comp_apply]
  split
  · exact hf n
  · rfl

/-- Whoever is in the line stays there when somebody else leaves. -/
theorem mem_remove (hn : n ∈ l) (hne : n.ticket ≠ t) : n ∈ l.remove t :=
  (List.mem_eraseP_of_neg (by simpa using hne)).mpr hn

end Line

namespace Queue

variable {q q' : Queue} {age t : Nat} {K : List Nat} {T : List Thread} {n : Node}

theorem Sound.distinct_line (h : q.Sound age K T) : q.line.tickets.Nodup := by
  have hdistinct := h.roll.distinct
  rw [List.map_append, List.nodup_append] at hdistinct
  exact hdistinct.1

/-- Nobody is in the line who was handed the signal. -/
theorem Sound.apart (h : q.Sound age K T) {m : Node} (hn : n ∈ q.line) (hm : m ∈ q.handed) :
    n.ticket ≠ m.ticket := by
  have hdistinct := h.roll.distinct
  rw [List.map_append, List.nodup_append] at hdistinct
  exact hdistinct.2.2 _ (List.mem_map_of_mem hn) _ (List.mem_map_of_mem hm)

theorem isPending_iff (h : q.Sound age K T) : q.isPending t = true ↔ t ∈ q.line.tickets := by
  rw [Line.mem_tickets]
  constructor
  · intro hpending
    cases hfind : q.line.find t with
    | none =>
      rw [isPending, hfind] at hpending
      exact absurd hpending (by simp)
    | some n => exact ⟨n, Line.find_mem hfind, Line.find_ticket hfind⟩
  · rintro ⟨n, hn, rfl⟩
    have hfind := Line.find_of_mem h.distinct_line hn
    rw [isPending, hfind, Option.any_some, h.pending n hn]
    rfl

theorem isHanded_iff : q.isHanded t = true ↔ ∃ n ∈ q.handed, n.ticket = t := by
  constructor
  · intro hhanded
    obtain ⟨n, hfind⟩ := Option.isSome_iff_exists.mp hhanded
    exact ⟨n, Line.find_mem hfind, Line.find_ticket hfind⟩
  · rintro ⟨n, hn, rfl⟩
    rw [isHanded, Option.isSome_iff_ne_none, Ne, Line.find_eq_none]
    intro hnone
    exact hnone n hn rfl

/-! ### What a request does to the line -/

/-- From one state of the signal to another nobody passes anybody in the line, and who is new is
    last; who left the line owns the signal or has gone, as the given ones have; and the signal
    went to the front if it was released, or else to nobody. -/
structure Shift (q q' : Queue) (Gone : Nat → Prop) (Released : Prop) : Prop where
  order : q'.line.tickets.Sublist (q.line.tickets ++ [q.nextTicket])
  stays : ∀ n ∈ q.line, n.ticket ∈ q'.line.tickets ∨
    { n with mark := .notified } ∈ q'.handed ∨ Gone n.ticket
  handed : ∀ m ∈ q'.handed, m ∈ q.handed ∨
    Released ∧ ∃ n rest, q.line = n :: rest ∧ m = { n with mark := .notified }
  passed : Released → ∀ n rest, q.line = n :: rest → { n with mark := .notified } ∈ q'.handed

variable {Gone : Nat → Prop} {Released : Prop}

/-- The line stays as it is, and the signal with those who own it. -/
theorem Shift.still (hline : q'.line.tickets = q.line.tickets)
    (hhanded : ∀ n ∈ q'.handed, n ∈ q.handed) (hnot : ¬ Released) : Shift q q' Gone Released where
  order := hline ▸ List.sublist_append_left _ _
  stays _ hn := Or.inl (hline ▸ List.mem_map_of_mem hn)
  handed m hm := Or.inl (hhanded m hm)
  passed hreleased := absurd hreleased hnot

/-- Somebody joins the line. -/
theorem Shift.join (p : Party) (hnot : ¬ Released) : Shift q (q.joined p) Gone Released where
  order := by simp [joined, Line.tickets]
  stays n hn := Or.inl (List.mem_map_of_mem (List.mem_append_left _ hn))
  handed m hm := Or.inl hm
  passed hreleased := absurd hreleased hnot

/-- Somebody leaves the line. -/
theorem Shift.leave (hgone : Gone t) (hnot : ¬ Released) :
    Shift q { q with line := q.line.remove t } Gone Released where
  order := (List.eraseP_sublist.map Node.ticket).trans (List.sublist_append_left _ _)
  stays n hn := by
    by_cases hticket : n.ticket = t
    · exact Or.inr (Or.inr (hticket ▸ hgone))
    · exact Or.inl (List.mem_map_of_mem (Line.mem_remove hn hticket))
  handed m hm := Or.inl hm
  passed hreleased := absurd hreleased hnot

/-- The signal is set, perhaps by somebody who owned it and gave it up. -/
theorem Shift.set {handed : Line} (h : ∀ n ∈ q.line, n.mark = .pending)
    (hhanded : ∀ n ∈ handed, n ∈ q.handed) (hreleased : Released) :
    Shift q ({ q with handed := handed } : Queue).set.state Gone Released := by
  rcases set_cases (q := { q with handed := handed }) h with
    ⟨hline, hcase⟩ | ⟨n, rest, hline, hcase⟩
  · rw [hcase]
    exact
      { order := List.nil_sublist _
        stays := fun n hn => absurd (hline ▸ hn) (by simp)
        handed := fun m hm => Or.inl (hhanded m hm)
        passed := fun _ _ _ hcons => absurd (hline.symm.trans hcons) (by simp) }
  · rw [hcase]
    have hline : q.line = n :: rest := hline
    refine ⟨?_, fun m hm => ?_, fun m hm => ?_, fun _ m rest' hcons => ?_⟩
    · rw [hline]
      exact (List.sublist_cons_self _ _).trans (List.sublist_append_left _ _)
    · rw [hline] at hm
      rcases List.mem_cons.mp hm with rfl | hmem
      · exact Or.inr (Or.inl (List.mem_append_right _ List.mem_cons_self))
      · exact Or.inl (List.mem_map_of_mem hmem)
    · rcases List.mem_append.mp hm with hmem | hmem
      · exact Or.inl (hhanded m hmem)
      · exact Or.inr ⟨hreleased, n, rest, hline, List.mem_singleton.mp hmem⟩
    · obtain ⟨rfl, rfl⟩ := List.cons.inj (hline.symm.trans hcons)
      exact List.mem_append_right _ List.mem_cons_self

/-- A poll of the wait alone hands the signal to nobody. -/
theorem poll_shift {wait : Wait} (w : Waker) (hnot : ¬ Released) :
    Shift q (q.poll w wait).state Gone Released := by
  cases wait with
  | init =>
    rw [poll, Outcome.map_state]
    rcases enqueue_cases (.task w) q with ⟨_, hcase⟩ | ⟨_, hcase⟩
    · rw [hcase]
      exact .still rfl (fun _ hn => hn) hnot
    · rw [hcase]
      exact .join (.task w) hnot
  | queued t =>
    simp only [poll]
    split
    · exact .still rfl (fun _ hn => List.mem_of_mem_eraseP hn) hnot
    · exact .still (Line.tickets_update (f := Node.register w) fun _ => rfl) (fun _ hn => hn) hnot
  | done => exact .still rfl (fun _ hn => hn) hnot

/-- A thread takes the banked signal or joins the line. -/
theorem block_shift (id : Thread) (hnot : ¬ Released) :
    Shift q (q.block id).state Gone Released := by
  rw [block, Outcome.map_state]
  rcases enqueue_cases (.thread id) q with ⟨_, hcase⟩ | ⟨_, hcase⟩
  · rw [hcase]
    exact .still rfl (fun _ hn => hn) hnot
  · rw [hcase]
    exact .join (.thread id) hnot

/-- A thread whose time is over at once leaves the line as it was. -/
theorem expire_shift (h : q.Sound age K T) (hnot : ¬ Released) :
    Shift q q.expire.state Gone Released := by
  rw [expire, Outcome.andThen_state]
  rcases enqueue_cases (.thread "") q with ⟨_, hcase⟩ | ⟨_, hcase⟩
  · rw [hcase]
    exact .still rfl (fun _ hn => hn) hnot
  · have hfind := joined_find (.thread "") h
    have hline := joined_remove (.thread "") h
    simp only [hcase, Outcome.pure_answer, Outcome.pure_state, withdraw_found hfind rfl,
      Outcome.map_state, hline]
    exact .still rfl (fun _ hn => hn) hnot

/-! ### Getting past the line -/

theorem first_poll_vain (hbanked : q.banked = false) (w : Waker) :
    (q.poll w .init).answer.1 = false := by
  simp [poll, enqueue, hbanked]

theorem block_vain (hbanked : q.banked = false) (id : Thread) : (q.block id).answer = false := by
  simp [block, enqueue, hbanked]

theorem expire_vain (h : q.Sound age K T) (hbanked : q.banked = false) :
    q.expire.answer = false := by
  rcases enqueue_cases (.thread "") q with ⟨hup, _⟩ | ⟨_, hcase⟩
  · exact absurd (hbanked.symm.trans hup) (by simp)
  · have hfind := joined_find (.thread "") h
    simp only [expire, hcase, Outcome.pure_andThen, withdraw_found hfind rfl, Outcome.map_answer,
      Bool.not_true]

/-! ### The line and who has waited -/

/-- The line is sorted by a number that is positive for those in the line and zero for all others.
    -/
structure Ranked (q : Queue) (n : Nat → Nat) : Prop where
  senior : q.line.tickets.Pairwise fun a b => n b < n a
  counted : ∀ t ∈ q.line.tickets, 0 < n t
  idle : ∀ t, t ∉ q.line.tickets → n t = 0

/-- Whoever is in front has the highest number. -/
theorem Ranked.front {rank : Nat → Nat} {rest : Line} (h : q.Ranked rank)
    (hline : q.line = n :: rest) (ht : t ∈ q.line.tickets) (hne : t ≠ n.ticket) :
    rank t < rank n.ticket := by
  have hsenior := h.senior
  rw [hline, Line.tickets, List.map_cons] at hsenior ht
  rcases List.mem_cons.mp ht with heq | hmem
  · exact absurd heq hne
  · exact (List.pairwise_cons.mp hsenior).1 t hmem

/-- The line stays sorted when the numbers of those who stay in it go up by one. -/
theorem Ranked.shift {rank rank' : Nat → Nat} (h : q.Ranked rank) (hsound : q.Sound age K T)
    (hshift : q.Shift q' Gone Released)
    (hin : ∀ t ∈ q'.line.tickets, rank' t = rank t + 1)
    (hout : ∀ t, t ∉ q'.line.tickets → rank' t = 0) : q'.Ranked rank' where
  senior := by
    have hnew : q.nextTicket ∉ q.line.tickets := by
      intro hmem
      obtain ⟨m, hm, hticket⟩ := Line.mem_tickets.mp hmem
      have hold := hsound.roll.old m (List.mem_append_left _ hm)
      omega
    have hjoined : (q.line.tickets ++ [q.nextTicket]).Pairwise fun a b => rank b < rank a := by
      rw [List.pairwise_append]
      refine ⟨h.senior, List.pairwise_singleton _ _, fun a ha b hb => ?_⟩
      obtain rfl := List.mem_singleton.mp hb
      rw [h.idle _ hnew]
      exact h.counted a ha
    refine (hjoined.sublist hshift.order).imp_of_mem fun ha hb hlt => ?_
    rw [hin _ ha, hin _ hb]
    exact Nat.succ_lt_succ hlt
  counted t ht := hin t ht ▸ Nat.succ_pos _
  idle := hout

end Queue

/-! ### Requests -/

namespace Session

/-- Unless a poll is cancelled, it does to the signal what the poll of the wait alone does. -/
theorem poll_cases {σ ω : Type} [Facilities σ ω] {s : Session σ ω} {id : String}
    {held : Held ω} (w : Waker) (hget : s.waits.get? id = some held) :
    (∃ wait, held = .cancellable wait ∧ (AutoReset.poll w wait s.signal).answer.1 = false ∧
      (s.request (.poll id w)).answer = .cancelled) ∨
    ((s.request (.poll id w)).state.signal = (AutoReset.poll w held.wait s.signal).state ∧
      (s.request (.poll id w)).answer
        = if (AutoReset.poll w held.wait s.signal).answer.1 then .ready else .pending) := by
  cases held with
  | plain wait =>
    simp only [request, poll, hget]
    exact Or.inr ⟨rfl, rfl⟩
  | cancellable wait =>
    rcases poll_cancellable w hget with ⟨hready, hanswer, hsignal⟩ | ⟨hvain, _, hanswer, hsignal⟩
      | ⟨hvain, _, hcase⟩
    · exact Or.inr ⟨hsignal, by simp [Held.wait, hready, hanswer]⟩
    · exact Or.inr ⟨hsignal, by simp [Held.wait, hvain, hanswer]⟩
    · exact Or.inl ⟨wait, rfl, hvain, by rw [hcase]⟩

variable {s : Session Queue Queue.Wait} {age : Nat} {n : Nat → Nat}

/-- A request after which nobody has given up does not pass a signal on. -/
theorem not_releases {r : Request} (hset : r ≠ .set) (h : ∀ t, ¬ s.Withdraws r t) :
    ¬ s.Releases r := by
  rintro (heq | ⟨t, _, hwithdraws⟩)
  · exact hset heq
  · exact h t hwithdraws

/-- Only somebody whose wait a request is about gives up with it. -/
theorem not_withdraws {r : Request} (hnobody : r.waiter? = none) (t : Nat) :
    ¬ s.Withdraws r t := by
  rintro ⟨a, ha, _⟩
  exact absurd (hnobody.symm.trans ha) (by simp)

theorem not_withdraws_of_moves {r : Request}
    (hmoves : .withdraw ∉ s.moves r (s.request r).answer) (t : Nat) : ¬ s.Withdraws r t := by
  rintro ⟨_, _, _, hmem⟩
  exact hmoves hmem

/-- A request that leaves the signal alone. -/
theorem untouched_shift {r : Request} (hset : r ≠ .set) (h : ∀ t, ¬ s.Withdraws r t)
    (hsignal : (s.request r).state.signal = s.signal) :
    s.signal.Shift (s.request r).state.signal (s.Withdraws r) (s.Releases r) := by
  rw [hsignal]
  exact .still rfl (fun _ hn => hn) (not_releases hset h)

/-- Whoever gives up a registered wait under a name is the holder of its ticket. -/
theorem withdraws_iff {r : Request} {id : String} {held : Held Queue.Wait} {t : Nat}
    (hwaiter : r.waiter? = some (.task id)) (hget : s.waits.get? id = some held)
    (hstage : stage held.wait = .registered t)
    (hmoves : .withdraw ∈ s.moves r (s.request r).answer) (t' : Nat) :
    s.Withdraws r t' ↔ t' = t := by
  have hticket : s.ticket? (.wait id) = some t := by
    simp only [ticket?, hget, Option.bind_some, heldTicket?, hstage, Stage.ticket?]
  constructor
  · rintro ⟨a, ha, hholds, _⟩
    obtain rfl := Option.some.inj (hwaiter.symm.trans ha)
    exact Option.some.inj (hholds.symm.trans hticket)
  · rintro rfl
    exact ⟨.task id, hwaiter, hticket, hmoves⟩

/-- Whoever gives up while it is pending leaves the line, and no signal is passed on. -/
theorem withdrawn_shift {r : Request} {t : Nat} (hset : r ≠ .set)
    (hwithdraws : ∀ t', s.Withdraws r t' ↔ t' = t) (hnone : s.signal.handed.find t = none)
    (hsignal : (s.request r).state.signal = { s.signal with line := s.signal.line.remove t }) :
    s.signal.Shift (s.request r).state.signal (s.Withdraws r) (s.Releases r) := by
  rw [hsignal]
  refine .leave ((hwithdraws t).mpr rfl) ?_
  rintro (heq | ⟨t', hhanded, hgone⟩)
  · exact hset heq
  · rw [(hwithdraws t').mp hgone, Queue.isHanded, hnone] at hhanded
    exact absurd hhanded (by simp)

/-- A request with which the wait of a name is given up. -/
theorem drop_shift (hfits : Fits [] age s) {r : Request} {id : String} {held : Held Queue.Wait}
    (hset : r ≠ .set) (hwaiter : r.waiter? = some (.task id))
    (hget : s.waits.get? id = some held)
    (hmoves : s.moves r (s.request r).answer = (stage held.wait).dropMoves)
    (hsignal : (s.request r).state.signal = (s.signal.drop held.wait).state) :
    s.signal.Shift (s.request r).state.signal (s.Withdraws r) (s.Releases r) := by
  have hseat := held_sound hfits hget
  cases hwait : held.wait with
  | init | done =>
    rw [hwait] at hmoves hsignal
    refine untouched_shift hset (not_withdraws_of_moves ?_) hsignal
    rw [hmoves]
    simp [stage, Stage.dropMoves]
  | queued t =>
    rw [hwait] at hmoves hseat hsignal
    have hstage : stage held.wait = .registered t := congrArg stage hwait
    have hwithdraws : ∀ t', s.Withdraws r t' ↔ t' = t :=
      withdraws_iff hwaiter hget hstage (by rw [hmoves]; exact List.mem_cons_self)
    rcases Queue.ticket_cases hseat with ⟨n, hfind, hmark, _, hnone⟩ | ⟨n, hfind, _, hnone⟩
    · have hcase : (s.signal.drop (.queued t)).state
          = { s.signal with line := s.signal.line.remove t } := by
        simp only [Queue.drop, Queue.withdraw_found hfind hmark, Outcome.andThen_state, if_true,
          Outcome.pure_state]
      exact withdrawn_shift hset hwithdraws hnone (hsignal.trans hcase)
    · have hreleases : s.Releases r := by
        refine Or.inr ⟨t, ?_, (hwithdraws t).mpr rfl⟩
        rw [Queue.isHanded, hfind]
        rfl
      have hcase : s.signal.drop (.queued t)
          = Queue.set { s.signal with handed := s.signal.handed.remove t } := by
        simp only [Queue.drop, Queue.withdraw_missing hnone, Outcome.pure_andThen,
          Bool.false_eq_true, if_false]
      rw [hsignal, hcase]
      exact .set hseat.pending (fun _ hn => List.mem_of_mem_eraseP hn) hreleases

/-- A name is given a wait that has not begun, in place of the one it held. -/
theorem replace_shift (hfits : Fits [] age s) {r : Request} {id : String} {held : Held Queue.Wait}
    (cancellations : Named Cancellation) (hset : r ≠ .set)
    (hwaiter : r.waiter? = some (.task id)) (hmoves : ∀ reply, s.moves r reply = s.dropMoves id)
    (hrequest : s.request r = ({ s with cancellations := cancellations } : Session _ _).replace
      id held) :
    s.signal.Shift (s.request r).state.signal (s.Withdraws r) (s.Releases r) := by
  cases hget : s.waits.get? id with
  | none =>
    refine untouched_shift hset (not_withdraws_of_moves ?_) ?_
    · simp [hmoves, dropMoves, hget]
    · simp only [hrequest, replace, hget, Outcome.pure_state]
  | some old =>
    refine drop_shift hfits hset hwaiter hget ?_ ?_
    · simp only [hmoves, dropMoves, hget]
    · simp only [hrequest, replace, hget, onSignal, Outcome.map_state, Outcome.lift_state]
      rfl

theorem poll_request_shift (hfits : Fits [] age s) (id : String) (w : Waker) :
    s.signal.Shift (s.request (.poll id w)).state.signal (s.Withdraws (.poll id w))
      (s.Releases (.poll id w)) := by
  have hset : Request.poll id w ≠ .set := by simp
  cases hget : s.waits.get? id with
  | none =>
    refine untouched_shift hset (not_withdraws_of_moves ?_) ?_
    · simp [moves, hget]
    · simp only [request, poll, hget, Outcome.pure_state]
  | some held =>
    have hseat := held_sound hfits hget
    have hmoves : ∀ reply, s.moves (.poll id w) reply = (stage held.wait).pollMoves reply := by
      intro reply
      simp only [moves, hget]
    rcases poll_cases w hget with ⟨wait, rfl, hvain, hanswer⟩ | ⟨hsignal, hanswer⟩
    · have hclean : s.CancelsCleanly id wait w := cancelsCleanly_of_vanished w hget fun hvain =>
        Queue.vanished w hseat hvain
      have hleft := (hclean.vanished hanswer).state
      cases wait with
      | init =>
        rw [hleft]
        refine .still rfl (fun _ hn => hn) (not_releases hset ?_)
        rintro t ⟨a, ha, hholds, _⟩
        obtain rfl := Option.some.inj ha
        simp only [Holds, ticket?, hget, Option.bind_some, heldTicket?] at hholds
        exact absurd hholds (by simp [stage, Held.wait, Stage.ticket?])
      | queued t =>
        refine withdrawn_shift hset (withdraws_iff rfl hget rfl ?_) ?_ hleft
        · rw [hmoves, hanswer]
          exact List.mem_cons_self
        · rcases Queue.ticket_cases hseat with ⟨_, _, _, _, hnone⟩ | ⟨n, hfind, _⟩
          · exact hnone
          · refine absurd hvain ?_
            simp [AutoReset.poll, Queue.poll, Queue.isHanded, hfind]
      | done => exact absurd hvain (by simp [AutoReset.poll, Queue.poll])
    · rw [hsignal]
      refine Queue.poll_shift w (not_releases hset (not_withdraws_of_moves ?_))
      rw [hmoves, hanswer]
      split <;> cases stage held.wait <;> simp [Stage.pollMoves]

/-- A thread whose time is over leaves the line. -/
theorem timeUp_shift (hfits : Fits [] age s) (rested : s.signal.handed.filterMap Node.thread? = [])
    (id : Thread) :
    s.signal.Shift (s.request (.timeUp id)).state.signal (s.Withdraws (.timeUp id))
      (s.Releases (.timeUp id)) := by
  have hset : Request.timeUp id ≠ .set := by simp
  have hoffered : Facilities.timeUp? = some Queue.timeUp := rfl
  have hstate := request_timeUp_state hoffered s id
  cases hblocked : s.blocked.contains id with
  | false =>
    rw [hblocked] at hstate
    refine untouched_shift hset (not_withdraws_of_moves ?_) (congrArg Session.signal hstate)
    have hanswer : (s.request (.timeUp id)).answer = .misuse .noSuchId := by
      simp only [request, offered, hoffered, hblocked, Bool.false_eq_true, if_false,
        Outcome.pure_answer]
    rw [hanswer]
    simp [moves]
  | true =>
    have hperm : s.blocked.Perm (id :: s.blocked.erase id) :=
      List.perm_cons_erase (List.contains_iff_mem.mp hblocked)
    have hsound : s.signal.Sound age (s.tickets ++ []) (id :: s.blocked.erase id) :=
      LawfulSignal.perm (.refl _) hperm hfits.sound
    obtain ⟨n, hfind, hthread, hcase⟩ := Queue.timeUp_cases hsound rested
    have hsignal : (s.request (.timeUp id)).state.signal
        = { s.signal with line := s.signal.line.remove n.ticket } := by
      rw [hstate, hblocked, if_pos rfl, hcase]
    have hanswer : (s.request (.timeUp id)).answer = .truth false := by
      simp only [request, offered, hoffered, hblocked, if_true, onSignal, Outcome.andThen_answer,
        Outcome.lift_answer, hcase, Outcome.pure_answer]
    have hgone : s.Withdraws (.timeUp id) n.ticket := by
      refine ⟨.thread id, rfl, ⟨n, ?_, rfl, hthread⟩, ?_⟩
      · exact List.mem_append_left _ (Line.find_mem hfind)
      · rw [hanswer]
        exact List.mem_cons_self
    rw [hsignal]
    refine .leave hgone ?_
    rintro (heq | ⟨t, hhanded, a, ha, hholds, _⟩)
    · exact hset heq
    · obtain rfl := Option.some.inj ha
      obtain ⟨m, hm, rfl, hthread'⟩ := hholds
      obtain ⟨m', hm', hticket⟩ := Queue.isHanded_iff.mp hhanded
      rcases List.mem_append.mp hm with hline | hmem
      · exact hsound.apart hline hm' hticket.symm
      · -- a thread that was handed the signal has returned
        have hnone := List.filterMap_eq_nil_iff.mp rested m hmem
        exact absurd (hnone.symm.trans hthread') (by simp)

/-- What every request does to the line. -/
theorem request_shift (hfits : Fits [] age s)
    (rested : s.signal.handed.filterMap Node.thread? = []) (r : Request) :
    s.signal.Shift (s.request r).state.signal (s.Withdraws r) (s.Releases r) := by
  have hidle : ∀ r : Request, r ≠ .set → r.waiter? = none → ¬ s.Releases r := fun r hset hnone =>
    not_releases hset (not_withdraws hnone)
  have hsame : ∀ r : Request, r ≠ .set → r.waiter? = none →
      (s.request r).state.signal = s.signal →
      s.signal.Shift (s.request r).state.signal (s.Withdraws r) (s.Releases r) :=
    fun r hset hnone => untouched_shift hset (not_withdraws hnone)
  cases r with
  | set => exact .set hfits.sound.pending (fun _ hn => hn) (Or.inl rfl)
  | tryWait => exact .still rfl (fun _ hn => hn) (hidle _ (by simp) rfl)
  | wait id =>
    exact replace_shift hfits s.cancellations (by simp) rfl (fun _ => rfl) rfl
  | waitOrCancel id fired =>
    exact replace_shift hfits _ (by simp) rfl (fun _ => rfl) rfl
  | fire id =>
    refine hsame _ (by simp) rfl ?_
    simp only [request]
    split <;> rfl
  | poll id w => exact poll_request_shift hfits id w
  | drop id =>
    cases hget : s.waits.get? id with
    | none =>
      refine untouched_shift (by simp) (not_withdraws_of_moves ?_) ?_
      · simp [moves, dropMoves, hget]
      · simp only [request, hget, Outcome.pure_state]
    | some held =>
      refine drop_shift hfits (by simp) rfl hget ?_ ?_
      · simp only [moves, dropMoves, hget]
      · simp only [request, hget]
        rfl
  | debug id =>
    refine hsame _ (by simp) rfl ?_
    simp only [request]
    split <;> rfl
  | newKey id => exact hsame _ (by simp) rfl rfl
  | pollKey id w => exact hsame _ (by simp) rfl rfl
  | cancelKey id => exact hsame _ (by simp) rfl rfl
  | keyInfo id =>
    refine hsame _ (by simp) rfl ?_
    simp only [request]
    cases s.keys.get? id <;> rfl
  | waiters => exact hsame _ (by simp) rfl rfl
  | isSet => exact hsame _ (by simp) rfl rfl
  | expire => exact Queue.expire_shift hfits.sound (hidle _ (by simp) rfl)
  | pastDeadline => exact hsame _ (by simp) rfl rfl
  | block id =>
    have hnot := hidle (.block id) (by simp) rfl
    simp only [request, offered, Facilities.block?]
    split
    · exact .still rfl (fun _ hn => hn) hnot
    · simp only [Outcome.andThen_state, onSignal, Outcome.lift_state]
      split <;> exact Queue.block_shift id hnot
  | timeUp id => exact timeUp_shift hfits rested id
  | unknown => exact hsame _ (by simp) rfl rfl

/-! ### Steps -/

/-- What every request keeps up: the signal fits the session, every thread that was handed the
    signal has returned, and the line is sorted by the requests waited. -/
structure Orderly (age : Nat) (s : Session Queue Queue.Wait) (n : Nat → Nat) : Prop where
  fits : Fits [] age s
  rested : s.signal.handed.filterMap Node.thread? = []
  ranked : s.signal.Ranked n

theorem new_orderly (observer : Observer) : Orderly 0 (Session.new observer) fun _ => 0 where
  fits := new_fits observer
  rested := rfl
  ranked := ⟨.nil,
    fun _ ht => absurd ht (by simp [Session.new, AutoReset.new, Queue.new, Line.tickets]),
    fun _ _ => rfl⟩

/-- There are no keys to be thrown away. -/
theorem orphaned_eq_nil (hfits : Fits [] age s) (r : Request) : s.orphaned r = [] := by
  have hkeys : s.keys = [] := hfits.keyless rfl
  cases r with
  | newKey id => simp [orphaned, ticket?, hkeys, Named.get?]
  | _ => rfl

theorem Orderly.shift (h : Orderly age s n) (r : Request) :
    s.signal.Shift (s.request r).state.signal (s.Withdraws r) (s.Releases r) :=
  request_shift h.fits h.rested r

theorem step_orderly (h : Orderly age s n) (r : Request) :
    Orderly (age + 1) (s.step r).state (s.ageing r n) := by
  obtain ⟨hfits, hrested, _⟩ := step_fits h.fits h.rested trivial r
  rw [orphaned_eq_nil h.fits r, List.append_nil] at hfits
  refine ⟨hfits, hrested, ?_⟩
  have hpending : ∀ t, (s.step r).state.signal.isPending t = true ↔
      t ∈ (s.request r).state.signal.line.tickets := fun t => Queue.isPending_iff hfits.sound
  have hranked : (s.request r).state.signal.Ranked (s.ageing r n) := by
    refine h.ranked.shift h.fits.sound (h.shift r) (fun t ht => ?_) fun t ht => ?_
    · exact if_pos ((hpending t).mpr ht)
    · exact if_neg fun hup => ht ((hpending t).mp hup)
  -- threads that return were not in the line
  exact ⟨hranked.senior, hranked.counted, hranked.idle⟩

theorem after_orderly (rs : List Request) (h : Orderly age s n) :
    Orderly (age + rs.length) (s.after rs) (s.waited rs n) := by
  induction rs generalizing s age n with
  | nil => exact h
  | cons r rs ih =>
    rw [List.length_cons, ← Nat.add_assoc, Nat.add_right_comm]
    exact ih (step_orderly h r)

/-- Whoever is handed the signal was in front. -/
theorem Orderly.hands {r : Request} {b : Nat} (h : Orderly age s n) (hhands : s.Hands r b) :
    s.Releases r ∧ ∃ m rest, s.signal.line = m :: rest ∧ m.ticket = b := by
  obtain ⟨hpending, hhanded⟩ := hhands
  obtain ⟨m, hm, rfl⟩ := Queue.isHanded_iff.mp hhanded
  rcases (h.shift r).handed m hm with hold | ⟨hreleases, m', rest, hline, rfl⟩
  · obtain ⟨m', hm', hticket⟩ :=
      Line.mem_tickets.mp ((Queue.isPending_iff h.fits.sound).mp hpending)
    exact absurd hticket (h.fits.sound.apart hm' hold)
  · exact ⟨hreleases, m', rest, hline, rfl⟩

/-- Everybody whom the signal knows is somebody. -/
theorem Orderly.holder (h : Orderly age s n) {m : Node}
    (hm : m ∈ s.signal.line ++ s.signal.handed) : ∃ a, s.Holds a m.ticket := by
  cases hthread : m.thread? with
  | some id => exact ⟨.thread id, m, hm, rfl, hthread⟩
  | none =>
    have hmem := h.fits.sound.roll.ticket_mem hm hthread
    rw [List.append_nil] at hmem
    obtain ⟨handle, hticket⟩ := exists_handle h.fits hmem
    cases handle with
    | wait id => exact ⟨.task id, hticket⟩
    | key id =>
      have hkeys : s.keys = [] := h.fits.keyless rfl
      exact absurd hticket (by simp [ticket?, hkeys, Named.get?])

/-- A ticket has one holder. -/
theorem Orderly.same_node (h : Orderly age s n) {m m' : Node}
    (hm : m ∈ s.signal.line ++ s.signal.handed) (hm' : m' ∈ s.signal.line ++ s.signal.handed)
    (hticket : m.ticket = m'.ticket) : m = m' := by
  have hfind := Line.find_of_mem h.fits.sound.roll.distinct hm
  have hfind' := Line.find_of_mem h.fits.sound.roll.distinct hm'
  exact Option.some.inj (hfind.symm.trans (hticket ▸ hfind'))

/-- A poll of a task that waits under a ticket is released if the task was handed the signal. -/
theorem poll_resolves {id : String} {t : Nat} (w : Waker) (hholds : s.Holds (.task id) t) :
    (s.request (.poll id w)).answer = .ready ↔ s.signal.isHanded t = true := by
  obtain ⟨held, hget, hticket⟩ := Option.bind_eq_some_iff.mp hholds
  have hwait : held.wait = .queued t := by
    rw [heldTicket?] at hticket
    cases hwait : held.wait <;> simp [hwait, stage, Stage.ticket?] at hticket ⊢
    exact hticket
  have halone : (AutoReset.poll w held.wait s.signal).answer.1 = s.signal.isHanded t := by
    rw [hwait]
    simp only [AutoReset.poll, Queue.poll]
    cases hhanded : s.signal.isHanded t <;> simp
  rcases poll_cases w hget with ⟨wait, rfl, hvain, hanswer⟩ | ⟨_, hanswer⟩
  · rw [hanswer, ← halone]
    simp [Held.wait, hvain]
  · rw [hanswer, halone]
    cases s.signal.isHanded t <;> simp

/-- The threads that return are those that were handed the signal. -/
theorem Orderly.thread_returns (h : Orderly age s n) (r : Request) (id : Thread) :
    id ∈ (s.step r).answer.2 ↔ ∃ b, s.Hands r b ∧ s.Holds (.thread id) b := by
  have hreturned : id ∈ (s.step r).answer.2 ↔
      ∃ m ∈ (s.request r).state.signal.handed, m.thread? = some id :=
    List.mem_mergeSort.trans List.mem_filterMap
  rw [hreturned]
  constructor
  · rintro ⟨m, hm, hthread⟩
    rcases (h.shift r).handed m hm with hold | ⟨_, m', rest, hline, rfl⟩
    · have hnone := List.filterMap_eq_nil_iff.mp h.rested m hold
      exact absurd (hnone.symm.trans hthread) (by simp)
    · have hfront : m' ∈ s.signal.line := hline ▸ List.mem_cons_self
      refine ⟨m'.ticket, ⟨?_, Queue.isHanded_iff.mpr ⟨_, hm, rfl⟩⟩, m', ?_, rfl, hthread⟩
      · exact (Queue.isPending_iff h.fits.sound).mpr (Line.mem_tickets.mpr ⟨m', hfront, rfl⟩)
      · exact List.mem_append_left _ hfront
  · rintro ⟨b, hhands, m, hm, rfl, hthread⟩
    obtain ⟨hreleases, m', rest, hline, hticket⟩ := h.hands hhands
    have hfront : m' ∈ s.signal.line ++ s.signal.handed :=
      List.mem_append_left _ (hline ▸ List.mem_cons_self)
    obtain rfl := h.same_node hfront hm hticket
    exact ⟨_, (h.shift r).passed hreleases m' rest hline, hthread⟩

theorem Orderly.inOrder (h : Orderly age s n) : s.InOrder n where
  held t := by
    rintro (hpending | hhanded)
    · obtain ⟨m, hm, rfl⟩ := Line.mem_tickets.mp ((Queue.isPending_iff h.fits.sound).mp hpending)
      exact h.holder (List.mem_append_left _ hm)
    · obtain ⟨m, hm, rfl⟩ := Queue.isHanded_iff.mp hhanded
      exact h.holder (List.mem_append_right _ hm)
  resolves _ _ w hholds := poll_resolves w hholds
  returns := h.thread_returns
  longest r b hhands a hpending hne := by
    obtain ⟨_, m, rest, hline, rfl⟩ := h.hands hhands
    exact h.ranked.front hline ((Queue.isPending_iff h.fits.sound).mp hpending) hne
  cause r b hhands := (h.hands hhands).1
  handed_on r a hreleases hpending := by
    have hmem := (Queue.isPending_iff h.fits.sound).mp hpending
    cases hline : s.signal.line with
    | nil => exact absurd hmem (by simp [hline, Line.tickets])
    | cons m rest =>
      have hhanded := (h.shift r).passed hreleases m rest hline
      refine ⟨m.ticket, (Queue.isPending_iff h.fits.sound).mpr ?_, Queue.isHanded_iff.mpr ?_⟩
      · simp [hline, Line.tickets]
      · exact ⟨_, hhanded, rfl⟩
  leaves r a hpending := by
    have hstep := (step_orderly h r).fits.sound
    obtain ⟨m, hm, rfl⟩ := Line.mem_tickets.mp ((Queue.isPending_iff h.fits.sound).mp hpending)
    rcases (h.shift r).stays m hm with hmem | hhanded | hgone
    · exact Or.inl ((Queue.isPending_iff hstep).mpr hmem)
    · exact Or.inr (Or.inl ⟨hpending, Queue.isHanded_iff.mpr ⟨_, hhanded, rfl⟩⟩)
    · exact Or.inr (Or.inr hgone)

/-- Somebody in the line means that nobody is let past it. -/
theorem Orderly.unbarged {a : Nat} (h : Orderly age s n)
    (hpending : s.signal.isPending a = true) : s.Unbarged := by
  obtain ⟨m, hm, _⟩ := Line.mem_tickets.mp ((Queue.isPending_iff h.fits.sound).mp hpending)
  have hbanked : s.signal.banked = false := h.fits.sound.not_banked hm
  constructor
  · exact hbanked
  · exact congrArg Reply.truth hbanked
  · intro id held w hget hidle hready
    have hwait : held.wait = .init := by
      cases hwait : held.wait <;> simp [hwait, stage] at hidle ⊢
    have hvain : (AutoReset.poll w held.wait s.signal).answer.1 = false := by
      rw [hwait]
      exact Queue.first_poll_vain hbanked w
    rcases poll_cases w hget with ⟨_, _, _, hanswer⟩ | ⟨_, hanswer⟩
    · exact absurd (hanswer.symm.trans hready) (by simp)
    · rw [hvain] at hanswer
      exact absurd (hanswer.symm.trans hready) (by simp)
  · intro id hreleased
    simp only [request, offered, Facilities.block?] at hreleased
    split at hreleased
    · exact absurd hreleased (by simp)
    · simp only [Outcome.andThen_answer, onSignal, Outcome.lift_answer, Bool.false_eq_true,
        Queue.block_vain hbanked, if_false, Outcome.pure_answer] at hreleased
      exact absurd hreleased (by simp)
  · exact congrArg Reply.truth (Queue.expire_vain h.fits.sound hbanked)

/-! ### Runs -/

/-- While a waiter stays pending it has waited for longer than whoever joined after it, so it is
    handed the signal or gives up before the other is handed one. -/
theorem overtaken_left {a b : Nat} {r : Request} {ys : List Request} (h : Orderly age s n)
    (hpending : s.signal.isPending a = true) (hless : n b < n a)
    (hhands : (s.after ys).Hands r b) :
    ∃ us r' vs, ys = us ++ r' :: vs ∧
      ((s.after us).Hands r' a ∨ (s.after us).Withdraws r' a) := by
  induction ys generalizing s age n with
  | nil =>
    have hne : a ≠ b := fun heq => Nat.lt_irrefl _ (heq ▸ hless)
    have hlonger := h.inOrder.longest r b hhands a hpending hne
    omega
  | cons r' ys ih =>
    rcases h.inOrder.leaves r' a hpending with hstill | hleft
    · have hless' : s.ageing r' n b < s.ageing r' n a := by
        simp only [ageing, hstill, if_true]
        split <;> omega
      obtain ⟨us, r'', vs, rfl, hgone⟩ := ih (step_orderly h r') hstill hless' hhands
      exact ⟨r' :: us, r'', vs, rfl, hgone⟩
    · exact ⟨[], r', ys, rfl, hleft⟩

theorem Orderly.notOvertaken (h : Orderly age s n) (rs : List Request) : s.NotOvertaken rs := by
  intro xs ys hrs a b r hpending hlater hhands
  have hafter := after_orderly xs h
  have hless : s.waited xs n b < s.waited xs n a := by
    have hout : b ∉ (s.after xs).signal.line.tickets := by
      rw [← Queue.isPending_iff hafter.fits.sound, hlater]
      simp
    rw [hafter.ranked.idle b hout]
    exact hafter.ranked.counted a ((Queue.isPending_iff hafter.fits.sound).mp hpending)
  rw [hrs, after_append] at hhands
  obtain ⟨us, r', vs, hys, hgone⟩ := overtaken_left hafter hpending hless hhands
  refine ⟨us, r', vs, hys, ?_⟩
  rw [after_append]
  exact hgone

/-- A signal that hands itself over does so in order of arrival: whoever is handed it has been
    pending the longest, nobody overtakes anybody, and nobody barges in while somebody waits. -/
theorem released_in_order_of_arrival (observer : Observer) (rs : List Request) :
    let start : Session Queue Queue.Wait := Session.new observer
    (start.after rs).InOrder (start.waited rs fun _ => 0) ∧
      start.NotOvertaken rs ∧
      ((∃ a, (start.after rs).signal.isPending a = true) → (start.after rs).Unbarged) := by
  intro start
  have hstart := new_orderly observer
  have hafter := after_orderly rs hstart
  refine ⟨hafter.inOrder, hstart.notOvertaken rs, ?_⟩
  rintro ⟨a, hpending⟩
  exact hafter.unbarged hpending

/-- A task that was handed the signal gives it up, and the thread that joined next returns. -/
theorem released_in_order_of_arrival_forwarded :
    let s := (Session.new .quiet : Session Queue Queue.Wait).after
      [.wait "a", .poll "a" 1, .block "t", .wait "b", .poll "b" 2, .set]
    s.Hands (.drop "a") 1 ∧ "t" ∈ (s.step (.drop "a")).answer.2 ∧ s.Unbarged := by
  intro s
  obtain ⟨horder, _, hunbarged⟩ := released_in_order_of_arrival .quiet
    [.wait "a", .poll "a" 1, .block "t", .wait "b", .poll "b" 2, .set]
  have hhands : s.Hands (.drop "a") 1 := ⟨by decide, by decide⟩
  have hholds : s.Holds (.thread "t") 1 := ⟨⟨1, .pending, .thread "t"⟩, by decide, rfl, rfl⟩
  refine ⟨hhands, ?_, hunbarged ⟨1, by decide⟩⟩
  exact (horder.returns (.drop "a") "t").mpr ⟨1, hhands, hholds⟩

end Session

end Conduit.Signal

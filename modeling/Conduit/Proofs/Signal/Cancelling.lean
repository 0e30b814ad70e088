/-
  Conduit/Proofs/Signal/Cancelling.lean
  =====================================
  **A wait that is cancelled leaves no trace.**

  A wait that may be cancelled is polled before the cancellation is asked.  If that poll is
  in vain the wait is pending when it is given up, whatever it was before: the poll has
  queued it, or made it pending again where somebody else had taken the release that it
  was woken for.  A pending wait holds no release and nobody's wake-up, so nothing has to
  be passed on; and no release is too many for those who stay, since as many of them are
  woken as there are releases for them, or none is left at all.

  What is left is the signal without the wait's own entry (`left`), to the last bit.
-/
import Conduit.Proofs.Signal.Dated

namespace Conduit.Signal

open Staged

/-! ### Taking one wait out -/

/-- A signal that the entry of one wait can be taken out of. -/
class Revocable (σ : Type) (ω : outParam Type) where
  /-- Whom the signal reports to. -/
  observer : σ → Observer
  /-- The signal without the entry of a wait. -/
  without : ω → σ → σ
  /-- The signal once it has given out one more ticket. -/
  ticketed : σ → σ

instance : Revocable Queue Queue.Wait where
  observer := Queue.observer
  without wait q :=
    match wait with
    | .queued ticket => { q with line := q.line.remove ticket }
    | _ => q
  ticketed q := { q with nextTicket := q.nextTicket + 1 }

instance : Revocable Spin Spin.Wait where
  observer := Spin.observer
  without wait s :=
    match wait with
    | .queued ticket =>
      { s with
        counters := .pack s.counters.permits (s.counters.waiters - 1)
        queue := s.queue.remove ticket }
    | _ => s
  ticketed s := { s with nextTicket := s.nextTicket + 1 }

instance : Revocable Slim Slim.Wait where
  observer := Slim.observer
  without wait s :=
    match wait.key.id with
    | some id =>
      { s with
        word := .pack (s.word.waiters - 1) s.word.owed s.word.signaled
        tasks := s.tasks.eraseP fun t => t.1 == id }
    | none => s
  ticketed s := { s with nextKey := s.nextKey + 1 }

section Statements

variable {σ ω τ : Type} [Facilities σ ω] [Staged ω τ] [Revocable σ ω]

/-- What a wait leaves behind that is polled in vain and given up: the signal without its entry.
    A wait that had none was given a ticket, which nobody gets again. -/
def left (wait : ω) (s : σ) : σ :=
  match stage wait with
  | .idle => Revocable.ticketed s
  | _ => Revocable.without wait s

/-- The wait is gone without a trace: its entry was taken out and nothing else has changed, so
    every release is still pending; nobody was woken, and one cancelled wait was reported. -/
structure Vanished (wait : ω) (s s' : σ) (effects : List Effect) : Prop where
  state : s' = left wait s
  pending : AutoReset.pendingReleases s' = AutoReset.pendingReleases s
  reported : effects = [.reported (Revocable.observer s) .waitCancelled]

namespace Session

/-- Whether the cancellation of a name has happened. -/
def isFired (s : Session σ ω) (id : String) : Bool :=
  (s.cancellations.get? id).any Cancellation.fired

/-- How a poll ends that a cancellation may end: with a release just if the wait's own poll has
    one, and cancelled just if the wait stays pending and the cancellation has happened; then the
    wait is gone without a trace, and nothing else that is held has changed. -/
structure CancelsCleanly (s : Session σ ω) (id : String) (wait : ω) (w : Waker) : Prop where
  released : (s.request (.poll id w)).answer = .ready ↔
    (AutoReset.poll w wait s.signal).answer.1 = true
  cancelled : (s.request (.poll id w)).answer = .cancelled ↔
    (AutoReset.poll w wait s.signal).answer.1 = false ∧ s.isFired id = true
  vanished : (s.request (.poll id w)).answer = .cancelled →
    Vanished wait s.signal (s.request (.poll id w)).state.signal
      (s.request (.poll id w)).effects
  others : (s.request (.poll id w)).answer = .cancelled →
    (s.request (.poll id w)).state.waits = s.waits.erase id ∧
    (s.request (.poll id w)).state.keys = s.keys ∧
    (s.request (.poll id w)).state.blocked = s.blocked

end Session

end Statements

namespace Session

section Generic

variable {σ ω : Type} [Facilities σ ω] {s : Session σ ω} {id : String} {wait : ω}

/-- A poll that a cancellation may end is released, stays pending or is cancelled; only then is
    the wait dropped. -/
theorem poll_cancellable (w : Waker) (hget : s.waits.get? id = some (.cancellable wait)) :
    let alone := AutoReset.poll w wait s.signal
    let o := s.request (.poll id w)
    (alone.answer.1 = true ∧ o.answer = .ready ∧ o.state.signal = alone.state) ∨
    (alone.answer.1 = false ∧ s.isFired id = false ∧ o.answer = .pending ∧
      o.state.signal = alone.state) ∨
    (alone.answer.1 = false ∧ s.isFired id = true ∧
      o = ⟨.cancelled, { s with
          signal := (alone.andThen fun r s => AutoReset.drop r.2 s).state
          waits := s.waits.erase id
          cancellations := s.cancellations.put id
            ((s.cancellations.get? id).getD ⟨false, none⟩) },
        (alone.andThen fun r s => AutoReset.drop r.2 s).effects⟩) := by
  have hfired : s.isFired id = ((s.cancellations.get? id).getD ⟨false, none⟩).fired := by
    unfold isFired
    cases s.cancellations.get? id <;> rfl
  intro alone o
  rw [hfired]
  cases hanswer : alone.answer.1 with
  | true =>
    refine Or.inl ⟨rfl, ?_, ?_⟩ <;>
    simp only [o, request, poll, hget, onSignal, raceCancel, Outcome.andThen_answer,
      Outcome.andThen_state, Outcome.lift_answer, Outcome.lift_state, alone, hanswer, if_true,
      Outcome.pure_answer, Outcome.pure_state]
  | false =>
    refine Or.inr ?_
    cases hf : ((s.cancellations.get? id).getD ⟨false, none⟩).fired with
    | false =>
      refine Or.inl ⟨rfl, rfl, ?_, ?_⟩ <;>
      simp only [o, request, poll, hget, onSignal, raceCancel, Outcome.andThen_answer,
        Outcome.andThen_state, Outcome.lift_answer, Outcome.lift_state, alone, hanswer, hf,
        Bool.false_eq_true, if_false, Outcome.pure_answer, Outcome.pure_state]
    | true =>
      refine Or.inr ⟨rfl, rfl, ?_⟩
      simp only [o, alone, request, poll, hget, onSignal, raceCancel, Outcome.andThen, hanswer, hf,
        Bool.false_eq_true, if_false, if_true, Outcome.map, Outcome.lift, Outcome.pure,
        List.append_nil]

/-- It is enough to know what becomes of a wait that is polled in vain and then dropped. -/
theorem cancelsCleanly_of_vanished {τ : Type} [Staged ω τ] [Revocable σ ω] (w : Waker)
    (hget : s.waits.get? id = some (.cancellable wait))
    (hvanished : (AutoReset.poll w wait s.signal).answer.1 = false →
      let o := (AutoReset.poll w wait s.signal).andThen fun r s => AutoReset.drop r.2 s
      Vanished wait s.signal o.state o.effects) :
    s.CancelsCleanly id wait w := by
  rcases poll_cancellable w hget with ⟨hready, hanswer, _⟩ | ⟨hvain, hnot, hanswer, _⟩
    | ⟨hvain, hfired, hcase⟩
  · constructor <;> simp [hready, hanswer]
  · constructor <;> simp [hvain, hnot, hanswer]
  · have hgone := hvanished hvain
    constructor
    · simp [hvain, hcase]
    · simp [hvain, hfired, hcase]
    · intro _
      rw [hcase]
      exact hgone
    · intro _
      rw [hcase]
      exact ⟨rfl, rfl, rfl⟩

end Generic

end Session

/-! ### The signal that hands itself over -/

namespace Line

variable {l : Line} {n : Node} {t : Nat} {f : Node → Node}

theorem update_absent (h : ∀ n ∈ l, n.ticket ≠ t) : l.update t f = l := by
  have hsame : l.map (fun n => if n.ticket == t then f n else n) = l.map id := by
    apply List.map_congr_left
    intro n hn
    simp [h n hn]
  rw [update, hsame, List.map_id]

/-- Whoever joined last leaves the line as it was before. -/
theorem remove_append_last (h : l.find n.ticket = none) : remove (l ++ [n]) n.ticket = l := by
  rw [find_eq_none] at h
  rw [remove, List.eraseP_append_right]
  · simp
  · intro m hm
    simp [h m hm]

/-- Whoever leaves takes with it what became of it in the line. -/
theorem remove_update (hf : ∀ n, (f n).ticket = n.ticket) (hdistinct : (l.map Node.ticket).Nodup) :
    (l.update t f).remove t = l.remove t := by
  induction l with
  | nil => rfl
  | cons n₀ l ih =>
    rw [List.map_cons, List.nodup_cons] at hdistinct
    by_cases hticket : n₀.ticket = t
    · rw [update_cons_eq hticket, remove_cons_eq ((hf n₀).trans hticket), remove_cons_eq hticket]
      apply update_absent
      intro n hn heq
      exact hdistinct.1 (List.mem_map.mpr ⟨n, hn, heq.trans hticket.symm⟩)
    · rw [update_cons_ne hticket, remove_cons_ne hticket, remove_cons_ne hticket,
        ih hdistinct.2]

end Line

namespace Queue

variable {q : Queue} {age : Nat} {R : List Nat} {T : List Thread} {wait : Wait}

/-- Whoever has just joined the line leaves it as it was. -/
theorem joined_remove {K : List Nat} (p : Party) (h : q.Sound age K T) :
    (q.joined p).line.remove q.nextTicket = q.line :=
  Line.remove_append_last (line_find_next h)

theorem vanished (w : Waker) (h : q.Sound age ((stage wait).ticket?.toList ++ R) T)
    (hvain : (q.poll w wait).answer.1 = false) :
    let o := (q.poll w wait).andThen fun r q => q.drop r.2
    Vanished wait q o.state o.effects := by
  cases wait with
  | done => exact absurd hvain (by simp [poll])
  | init =>
    rcases enqueue_cases (.task w) q with ⟨hbanked, hcase⟩ | ⟨hbanked, hcase⟩
    · rw [poll, hcase] at hvain
      exact absurd hvain (by simp)
    · have hfind := joined_find (.task w) h
      have hline := joined_remove (.task w) h
      intro o
      have ho : o = ⟨(), left .init q, [.reported q.observer .waitCancelled]⟩ := by
        simp only [o, poll, hcase, Outcome.map, Outcome.andThen, Outcome.pure, drop,
          withdraw_found hfind rfl, if_true, List.nil_append, List.append_nil, hline]
        rfl
      rw [ho]
      exact ⟨rfl, rfl, rfl⟩
  | queued t =>
    rcases ticket_cases h with ⟨n, hfind, hmark, htask, hnone⟩ | ⟨n, hfind, htask, hnone⟩
    · have hmark' : (n.register w).mark = .pending := hmark
      have hfind' : (q.line.update t (Node.register w)).find t = some (n.register w) := by
        rw [Line.find_update (f := Node.register w) fun _ => rfl, hfind]
        rfl
      have hdistinct := h.roll.distinct
      rw [List.map_append, List.nodup_append] at hdistinct
      have hline : (q.line.update t (Node.register w)).remove t = q.line.remove t :=
        Line.remove_update (f := Node.register w) (fun _ => rfl) hdistinct.1
      intro o
      have ho : o = ⟨(), left (.queued t) q, [.reported q.observer .waitCancelled]⟩ := by
        simp only [o, poll, isHanded, hnone, Option.isSome_none, Bool.false_eq_true, if_false,
          Outcome.pure_andThen, drop]
        rw [withdraw_found hfind' hmark']
        simp only [Outcome.andThen, if_true, Outcome.pure, List.append_nil, hline]
        rfl
      rw [ho]
      exact ⟨rfl, rfl, rfl⟩
    · rw [poll, isHanded, hfind] at hvain
      exact absurd hvain (by simp)

end Queue

/-! ### The signal that counts permits -/

namespace Counters

variable {c c' : Counters} {p n : Nat}

/-- A word is what it stands for. -/
theorem Holds.word_unique (h : c.Holds p n) (h' : c'.Holds p n) : c = c' := by
  have hword := UInt64.toNat_inj.mp (h.word.trans h'.word.symm)
  cases c
  cases c'
  exact congrArg Counters.mk hword

/-- Whoever leaves takes no permit along while there are no more than waiters that stay. -/
theorem Holds.leave_eq (h : c.Holds p (n + 1)) (hle : p ≤ n) :
    c.leave = pack c.permits (c.waiters - 1) := by
  have hleave := h.leave
  have hpack := holds_pack c.permits (c.waiters - 1)
  have hone : (1 : UInt32).toNat = 1 := rfl
  have hlt := h.waiters_lt
  have hwaiters : (c.waiters - 1).toNat = n := by
    rw [UInt32.toNat_sub, hone, h.waiters_toNat]
    omega
  rw [Nat.min_eq_left (Nat.le_succ_of_le hle)] at hleave
  rw [h.permits_toNat, hwaiters] at hpack
  exact hleave.word_unique hpack

/-- A waiter that comes and goes while there is no permit changes nothing. -/
theorem Holds.leave_enter (h : c.Holds 0 n) (hroom : n + 1 < 4294967296) : c.enter.leave = c := by
  have hleave := (h.enter hroom).leave
  rw [Nat.zero_min] at hleave
  exact hleave.word_unique h

end Counters

namespace Spin

variable {s : Spin} {p t : Nat} {K R : List Nat} {T : List Thread} {wait : Wait} {n : Node}

/-- A pending waiter leaves the queue and reports so. -/
theorem withdraw_pending (hfind : s.queue.find t = some n) (hmark : n.mark = .pending) :
    s.withdraw t = ⟨(), { s with queue := s.queue.remove t, counters := s.counters.leave },
      [.reported s.observer .waitCancelled]⟩ := by
  simp [withdraw, hfind, Node.cancel?, hmark]

/-- Beside a pending waiter there are more waiters than permits. -/
theorem Books.permits_lt (h : s.Books 0 p K T) (hfind : s.queue.find t = some n)
    (hmark : n.mark = .pending) : p < s.queue.length := by
  have hperm := Line.perm_remove hfind
  have hlength := hperm.length_eq
  have hnotified := notified_perm hperm
  have hle : notified (s.queue.remove t) ≤ (s.queue.remove t).length := List.countP_le_length
  have henough := h.enough
  rw [List.length_cons] at hlength
  rw [notified_cons_of_pending hmark] at hnotified
  omega

/-- A poll in vain leaves its waiter pending, and everybody else as they were. -/
theorem poll_vain (w : Waker) (h : s.Books 0 p (t :: K) T)
    (hvain : (s.poll w (.queued t)).answer.1 = false) :
    ∃ l n, s.poll w (.queued t) = .pure (false, .queued t) { s with queue := l } ∧
      l.find t = some n ∧ n.mark = .pending ∧ l.remove t = s.queue.remove t ∧
      p < s.queue.length := by
  have hdistinct := h.roll.distinct
  obtain ⟨n, hfind, htask, hmark | hmark⟩ := h.find
  · refine ⟨s.queue.update t (Node.register w), n.register w, ?_, ?_, hmark, ?_,
      h.permits_lt hfind hmark⟩
    · simp [poll, Outcome.loop, pollPass_pending w hfind hmark, Outcome.map, Outcome.pure]
    · rw [Line.find_update (f := Node.register w) fun _ => rfl, hfind]
      rfl
    · exact Line.remove_update (f := Node.register w) (fun _ => rfl) hdistinct
  · rcases pollPass_notified w h hfind hmark with ⟨rfl, hpass⟩ | ⟨hpos, hpass⟩
    · have hfind₁ : (s.rearmed t).queue.find t = some n.rearm := by
        show (s.queue.update t Node.rearm).find t = _
        rw [Line.find_update rearm_ticket, hfind]
        rfl
      have hmark₁ : n.rearm.mark = .pending := by simp [Node.rearm, hmark]
      have hdistinct₁ : ((s.rearmed t).queue.map Node.ticket).Nodup :=
        (rearm_books h).roll.distinct
      have hpoll : s.poll w (.queued t) = .pure (false, .queued t)
          { s.rearmed t with queue := (s.rearmed t).queue.update t (Node.register w) } := by
        simp [poll, Outcome.loop, hpass, pollPass_pending w hfind₁ hmark₁, Outcome.map,
          Outcome.pure]
      refine ⟨(s.rearmed t).queue.update t (Node.register w), n.rearm.register w, hpoll, ?_,
        hmark₁, ?_, List.length_pos_of_mem (Line.find_mem hfind)⟩
      · rw [Line.find_update (f := Node.register w) fun _ => rfl, hfind₁]
        rfl
      · rw [Line.remove_update (f := Node.register w) (fun _ => rfl) hdistinct₁]
        exact Line.remove_update rearm_ticket hdistinct
    · exact absurd hvain (by simp [poll, Outcome.loop, hpass, Outcome.map, Outcome.pure])

theorem left_init (s : Spin) : left Wait.init s = { s with nextTicket := s.nextTicket + 1 } := rfl

theorem vanished (w : Waker) (h : s.Sound 0 ((stage wait).ticket?.toList ++ R) T)
    (sparse : s.queue.length < 4294967295) (hvain : (s.poll w wait).answer.1 = false) :
    let o := (s.poll w wait).andThen fun r s => s.drop r.2
    Vanished wait s o.state o.effects := by
  obtain ⟨p, hp⟩ := h
  cases wait with
  | done => exact absurd hvain (by simp [poll])
  | init =>
    rcases tryWait_cases hp with ⟨rfl, htry⟩ | ⟨q, rfl, c, hc, htry⟩
    · have hfind : (s.enqueue w).state.queue.find s.nextTicket
          = some ⟨s.nextTicket, .pending, .task w⟩ := by
        show Line.find (s.queue ++ [_]) s.nextTicket = _
        rw [Line.find_append, hp.roll.find_next, Option.none_or]
        exact Line.find_cons_eq rfl
      have hqueue : (s.enqueue w).state.queue.remove s.nextTicket = s.queue :=
        Line.remove_append_last hp.roll.find_next
      have hentered : (s.enqueue w).state.counters = s.counters.enter := rfl
      have hcounters : (s.enqueue w).state.counters.leave = s.counters := by
        rw [hentered]
        exact hp.counters.leave_enter (by omega)
      intro o
      have ho : o = ⟨(), left .init s, [.reported s.observer .waitCancelled]⟩ := by
        have hpoll : s.poll w .init = .pure (false, .queued s.nextTicket) (s.enqueue w).state := by
          simp only [poll, htry, Outcome.pure_andThen, Bool.false_eq_true, if_false]
          rfl
        simp only [o, hpoll, Outcome.pure_andThen, drop]
        rw [withdraw_pending hfind rfl, hqueue, hcounters]
        rw [enqueue, Outcome.pure_state, left_init]
      rw [ho]
      exact ⟨rfl, rfl, rfl⟩
    · exact absurd hvain (by simp [poll, htry])
  | queued t =>
    obtain ⟨l, n, hpoll, hfind, hmark, hremove, hlt⟩ := poll_vain w hp hvain
    obtain ⟨m, hlength⟩ : ∃ m, s.queue.length = m + 1 := ⟨s.queue.length - 1, by omega⟩
    have hcounters := hp.counters
    rw [hlength] at hcounters
    have hleave := hcounters.leave_eq (by omega)
    intro o
    have ho : o = ⟨(), left (.queued t) s, [.reported s.observer .waitCancelled]⟩ := by
      simp only [o, hpoll, Outcome.pure_andThen, drop]
      rw [withdraw_pending hfind hmark, hremove, hleave]
      rfl
    rw [ho]
    refine ⟨rfl, ?_, rfl⟩
    show (Counters.pack s.counters.permits (s.counters.waiters - 1)).permits.toNat
      = s.counters.permits.toNat
    exact (Counters.holds_pack _ _).permits_toNat

end Spin

/-! ### The signal in a single word -/

namespace Slim

variable {s : Slim} {age : Nat} {key : WaitKey} {wait : Wait}

theorem eraseP_append_new {l : List (UInt64 × Waker)} {k : UInt64} (w : Waker)
    (hnew : ∀ t ∈ l, t.1 ≠ k) : (l ++ [(k, w)]).eraseP (fun t => t.1 == k) = l := by
  rw [List.eraseP_append_right]
  · simp
  · intro t ht
    simp [hnew t ht]

/-- A task that leaves takes its renewed waker with it. -/
theorem eraseP_renew {l : List (UInt64 × Waker)} (k : UInt64) (w : Waker)
    (hdistinct : (l.map Prod.fst).Nodup) :
    (l.map fun t => if t.1 == k then (k, w) else t).eraseP (fun t => t.1 == k)
      = l.eraseP fun t => t.1 == k := by
  induction l with
  | nil => rfl
  | cons t₀ l ih =>
    rw [List.map_cons, List.nodup_cons] at hdistinct
    by_cases hk : t₀.1 = k
    · have hothers : (l.map fun t => if t.1 == k then (k, w) else t) = l.map id := by
        apply List.map_congr_left
        intro t ht
        have hne : t.1 ≠ k := fun heq =>
          hdistinct.1 (List.mem_map.mpr ⟨t, ht, heq.trans hk.symm⟩)
        simp [hne]
      rw [List.map_id] at hothers
      simp only [List.map_cons, hk, beq_self_eq_true, if_true, hothers, List.eraseP_cons, cond_true]
    · have hrest := ih hdistinct.2
      simp only [List.map_cons, beq_eq_false_iff_ne.mpr hk, Bool.false_eq_true, if_false,
        List.eraseP_cons, cond_false, hrest]

@[simp] theorem without_observer (k : UInt64) (s : Slim) : (s.without k).observer = s.observer := by
  cases s
  rfl

/-- With the bit down nobody is woken in the place of a task that gives up. -/
theorem cancelWait_down {k : UInt64} (hdown : s.word.signaled = false) :
    s.cancelWait ⟨some k⟩ = ⟨(), s.without k, [.reported s.observer .waitCancelled]⟩ := by
  have hwithdraw : s.withdraw ⟨some k⟩ = .pure true (s.without k) := by
    simp [withdraw, without, hdown]
  rw [cancelWait, hwithdraw, Outcome.pure_andThen, without_observer]
  rfl

/-- A poll in vain finds the bit down, so that nothing is owed. -/
theorem poll_vain (w : Waker) (h : s.Dated age) (hvain : (s.pollWait w key).answer.1 = false) :
    s.word.signaled = false ∧ s.word.owed = 0 ∧
      s.pollWait w key = (s.register w key).map fun key => (false, key) := by
  cases hanswer : s.tryWait.answer with
  | false =>
    have hdown := (tryWait_vain hanswer).1
    exact ⟨hdown, h.backed hdown, pollWait_vain w key hanswer⟩
  | true =>
    rw [pollWait_got w key hanswer] at hvain
    exact absurd hvain (by simp)

/-- What a first poll in vain registers is gone again when the key is given up. -/
theorem cancel_new (w : Waker) (h : s.Dated age) (hdown : s.word.signaled = false)
    (howed : s.word.owed = 0) :
    let o := (s.register w .fresh).andThen fun key s => s.cancelWait key
    o = ⟨(), { s with nextKey := s.nextKey + 1 }, [.reported s.observer .waitCancelled]⟩ := by
  intro o
  have hdown' : s.word.enter.signaled = false := (Word.enter_signaled s.word).trans hdown
  have htasks := eraseP_append_new w h.next_new
  have hword := Word.leave_enter hdown howed
  simp only [o, register_new, Outcome.pure_andThen]
  rw [cancelWait_down (by exact hdown'), without, htasks, hword]

/-- A registered key that is polled in vain and given up takes its own entry with it. -/
theorem cancel_old {k : UInt64} (w : Waker) (h : s.Dated age) (hdown : s.word.signaled = false) :
    let o := (s.register w ⟨some k⟩).andThen fun key s => s.cancelWait key
    o = ⟨(), s.without k, [.reported s.observer .waitCancelled]⟩ := by
  intro o
  rcases register_old_cases w k s with ⟨_, hcase⟩ | ⟨hnew, hcase⟩
  · simp only [o, hcase, Outcome.pure_andThen]
    rw [cancelWait_down (by exact hdown), without, without, eraseP_renew k w h.distinct]
  · have habsent : s.tasks.eraseP (fun t => t.1 == k) = s.tasks := by
      apply List.eraseP_of_forall_not
      intro t ht heq
      exact hnew t ht (eq_of_beq heq)
    simp only [o, hcase, Outcome.pure_andThen]
    rw [cancelWait_down (by exact hdown), without, without, eraseP_append_new w hnew, habsent]

theorem left_fresh (s : Slim) :
    left (⟨.fresh⟩ : Wait) s = { s with nextKey := s.nextKey + 1 } := rfl

theorem left_registered (k : UInt64) (s : Slim) (howed : s.word.owed = 0) :
    left (⟨⟨some k⟩⟩ : Wait) s = s.without k := by
  rw [without, Word.leave_of_down howed]
  rfl

/-- A word with one waiter less owes as much as before if that was nothing. -/
theorem without_pending (k : UInt64) (hdown : s.word.signaled = false) (howed : s.word.owed = 0) :
    (s.without k).pendingReleases = s.pendingReleases := by
  rw [pendingReleases, without_word, Word.leave_of_down howed, Word.pack_signaled, hdown, howed,
    Word.pack_owed_zero, pendingReleases, hdown, howed]

theorem vanished (w : Waker) (h : s.Dated age)
    (hvain : (AutoReset.poll w wait s).answer.1 = false) :
    let o := (AutoReset.poll w wait s).andThen fun r s => AutoReset.drop r.2 s
    Vanished wait s o.state o.effects := by
  obtain ⟨hdown, howed, hpoll⟩ := poll_vain w h hvain
  intro o
  have ho : o = (s.register w wait.key).andThen fun key s => s.cancelWait key := by
    show ((s.pollWait w wait.key).map fun r => (r.1, (⟨r.2⟩ : Wait))).andThen
      (fun r s => s.cancelWait r.2.key) = _
    rw [hpoll]
    rfl
  rw [ho]
  obtain ⟨⟨_ | k⟩⟩ := wait
  · have hgone := cancel_new w h hdown howed
    rw [show (⟨none⟩ : WaitKey) = .fresh from rfl, hgone]
    exact ⟨(left_fresh s).symm, rfl, rfl⟩
  · have hgone := cancel_old (k := k) w h hdown
    rw [hgone]
    exact ⟨(left_registered k s howed).symm, without_pending k hdown howed, rfl⟩

end Slim

/-! ### Reachable states -/

namespace Session

/-- Fewer than `m` waits are registered before each request and at the end. -/
def Below {σ ω : Type} [Facilities σ ω] (m : Nat) (s : Session σ ω) : List Request → Prop
  | [] => AutoReset.registeredWaits s.signal < m
  | r :: rs => AutoReset.registeredWaits s.signal < m ∧ Below m (s.step r).state rs

instance decidableBelow {σ ω : Type} [Facilities σ ω] (m : Nat) (s : Session σ ω) :
    (rs : List Request) → Decidable (s.Below m rs)
  | [] => inferInstanceAs (Decidable (_ < _))
  | r :: rs =>
    have := decidableBelow m (s.step r).state rs
    inferInstanceAs (Decidable (_ ∧ _))

/-- The counters have room for as many waits as their 32 bits can count. -/
theorem Below.roomy {s : Session Spin Spin.Wait} {rs : List Request}
    (h : s.Below 4294967295 rs) : s.Roomy rs := by
  induction rs generalizing s with
  | nil => exact h
  | cons r rs ih => exact ⟨h.1, ih h.2⟩

/-- The ticket of a wait that is held stands in front of all the others. -/
theorem held_sound {σ ω τ : Type} [Facilities σ ω] [Staged ω τ] [Tracked σ ω τ]
    [LawfulSignal σ ω τ] {s : Session σ ω} {orphans : List τ} {age : Nat} {id : String}
    {held : Held ω} (hfits : Fits orphans age s) (hget : s.waits.get? id = some held) :
    Tracked.Sound age ((stage held.wait).ticket?.toList ++ s.beside orphans (.wait id)) s.blocked
      s.signal := by
  have hseat := sound_at hfits (.wait id)
  simp only [ticket?, hget, Option.bind_some] at hseat
  exact hseat

/-- Whenever a wait is cancelled it vanishes without a trace.  The signal that hands itself over
    is always like that; the one that counts permits, as long as its 32-bit counters can count its
    waits; and the one in a single word, as long as its 64-bit keys have not come round. -/
theorem cancelled_waits_vanish (observer : Observer) (rs : List Request) (id : String)
    (w : Waker) :
    (let s := (Session.new observer : Session Queue Queue.Wait).after rs
      ∀ wait, s.waits.get? id = some (.cancellable wait) → s.CancelsCleanly id wait w) ∧
    ((Session.new observer : Session Spin Spin.Wait).Below 4294967295 rs →
      let s := (Session.new observer : Session Spin Spin.Wait).after rs
      ∀ wait, s.waits.get? id = some (.cancellable wait) → s.CancelsCleanly id wait w) ∧
    (rs.length < UInt64.size →
      let s := (Session.new observer : Session Slim Slim.Wait).after rs
      ∀ wait, s.waits.get? id = some (.cancellable wait) → s.CancelsCleanly id wait w) := by
  refine ⟨?_, ?_, ?_⟩
  · intro s wait hget
    obtain ⟨⟨orphans, hfits⟩, _⟩ := after_fits (new_fits observer) (LawfulSignal.new_rested observer)
      (roomy_of_sparse (fun _ : Queue => trivial) (Session.new observer) rs)
    have hseat := held_sound hfits hget
    exact cancelsCleanly_of_vanished w hget fun hvain => Queue.vanished w hseat hvain
  · intro hfew s wait hget
    obtain ⟨⟨orphans, hfits⟩, _⟩ := after_fits (new_fits observer) (LawfulSignal.new_rested observer)
      hfew.roomy
    have hseat := held_sound hfits hget
    exact cancelsCleanly_of_vanished w hget fun hvain =>
      Spin.vanished w hseat hfew.roomy.last hvain
  · intro hshort s wait hget
    have hdated := after_inDate (new_inDate observer) (by rw [Nat.zero_add]; exact hshort)
    exact cancelsCleanly_of_vanished w hget fun hvain => Slim.vanished w hdated.signal hvain

/-- A wait is cancelled after it was woken and somebody else took the release. -/
theorem cancelled_waits_vanish_robbed :
    let rs : List Request := [.waitOrCancel "a" false, .poll "a" 1, .wait "b", .poll "b" 2, .set,
      .tryWait, .fire "a"]
    ((Session.new .quiet : Session Spin Spin.Wait).after rs).CancelsCleanly "a" (.queued 0) 3 ∧
    (((Session.new .quiet : Session Spin Spin.Wait).after rs).request (.poll "a" 3)).answer
      = .cancelled ∧
    ((Session.new .quiet : Session Slim Slim.Wait).after rs).CancelsCleanly "a" ⟨⟨some 0⟩⟩ 3 ∧
    (((Session.new .quiet : Session Slim Slim.Wait).after rs).request (.poll "a" 3)).answer
      = .cancelled := by
  intro rs
  obtain ⟨_, hspin, hslim⟩ := cancelled_waits_vanish .quiet rs "a" 3
  refine ⟨?_, ?_, ?_, ?_⟩
  · exact hspin (by decide) _ (by decide)
  · decide
  · exact hslim (by decide) _ (by decide)
  · decide

end Session

end Conduit.Signal

/-
  Conduit/Proofs/Signal/Twins.lean
  ================================
  **While there is no permit, nobody looks at a waiter.**

  A waiter that was notified and finds no permit is pending again after its next poll, and
  only then: until it is polled, the signal still has it down as notified.  Two sessions
  that differ in that and in nothing else are twins.  As long as the signal is not set
  there is no permit, so that nobody is notified and nobody's mark is asked for but by its
  own wait; whatever the others request, twins answer alike, do the same, and stay twins.
-/
import Conduit.Proofs.Signal.Arrival

namespace Conduit.Signal

open Outcome

/-! ### Lines -/

namespace Line

variable {l l' : Line} {n n' : Node} {t u : Nat} {f : Node → Node}

/-- Two lines that differ in what has become of the waiter under one ticket. -/
structure Twins (t : Nat) (n n' : Node) (l l' : Line) : Prop where
  others : l'.remove t = l.remove t
  found : l.find t = some n
  twin : l'.find t = some n'

theorem Twins.find (h : Twins t n n' l l') (hne : u ≠ t) : l'.find u = l.find u := by
  rw [← find_remove_ne hne, h.others, find_remove_ne hne]

theorem Twins.isNotified (h : Twins t n n' l l') (hne : u ≠ t) :
    l'.isNotified u = l.isNotified u := by
  rw [Line.isNotified, Line.isNotified, h.find hne]

theorem remove_update_ne (hf : ∀ n, (f n).ticket = n.ticket) (hne : u ≠ t) :
    (l.update u f).remove t = (l.remove t).update u f := by
  induction l with
  | nil => rfl
  | cons n l ih =>
    by_cases ht : n.ticket = t
    · have hu : n.ticket ≠ u := fun heq => hne (heq.symm.trans ht)
      rw [update_cons_ne hu, remove_cons_eq ht, remove_cons_eq ht]
    · rw [remove_cons_ne ht]
      by_cases hu : n.ticket = u
      · rw [update_cons_eq hu, update_cons_eq hu, remove_cons_ne ((hf n).trans_ne ht), ih]
      · rw [update_cons_ne hu, update_cons_ne hu, remove_cons_ne ht, ih]

theorem Twins.update (h : Twins t n n' l l') (hf : ∀ n, (f n).ticket = n.ticket) (hne : u ≠ t) :
    Twins t n n' (l.update u f) (l'.update u f) where
  others := by rw [remove_update_ne hf hne, h.others, remove_update_ne hf hne]
  found := (find_update_ne hf hne.symm).trans h.found
  twin := (find_update_ne hf hne.symm).trans h.twin

theorem remove_comm (hne : u ≠ t) : (l.remove u).remove t = (l.remove t).remove u := by
  refine List.eraseP_comm fun n _ => ?_
  by_cases hu : n.ticket = u
  · exact Or.inr fun ht => hne (hu.symm.trans (eq_of_beq ht))
  · exact Or.inl fun heq => hu (eq_of_beq heq)

theorem Twins.remove (h : Twins t n n' l l') (hne : u ≠ t) :
    Twins t n n' (l.remove u) (l'.remove u) where
  others := by rw [remove_comm hne, h.others, remove_comm hne]
  found := (find_remove_ne hne.symm).trans h.found
  twin := (find_remove_ne hne.symm).trans h.twin

/-- A newcomer stands behind whoever is in the line. -/
theorem remove_append (hfind : l.find t = some n) (l' : Line) :
    remove (l ++ l') t = l.remove t ++ l' :=
  List.eraseP_append_left (p := fun n : Node => n.ticket == t)
    (beq_iff_eq.mpr (find_ticket hfind)) l' (find_mem hfind)

theorem find_append_found (hfind : l.find t = some n) (l' : Line) :
    find (l ++ l') t = some n := by
  rw [find_append, hfind, Option.some_or]

theorem Twins.append (h : Twins t n n' l l') (m : Node) :
    Twins t n n' (l ++ [m]) (l' ++ [m]) where
  others := by rw [remove_append h.twin, remove_append h.found, h.others]
  found := find_append_found h.found [m]
  twin := find_append_found h.twin [m]

end Line

/-! ### Signals -/

namespace Counters

variable {c : Counters}

theorem permits_mod (c : Counters) : c.permits.toNat = c.word.toNat % 4294967296 := rfl

theorem dry_iff : c.permits = 0 ↔ c.word.toNat % 4294967296 = 0 := by
  rw [← UInt32.toNat_inj, permits_mod]
  rfl

/-- Who comes and who goes brings no permit. -/
theorem enter_dry (h : c.permits = 0) : c.enter.permits = 0 := by
  rw [dry_iff] at h ⊢
  have h32 : (4294967296 : UInt64).toNat = 4294967296 := rfl
  rw [enter, UInt64.toNat_add, h32]
  omega

theorem leave_dry (h : c.permits = 0) : c.leave.permits = 0 := by
  have hmin : min c.permits (c.waiters - 1 + 1) = 0 := by
    rw [h]
    exact if_pos (UInt32.le_iff_toNat_le.mpr (Nat.zero_le _))
  rw [leave, hmin, ← UInt32.toNat_inj]
  exact (holds_pack 0 (c.waiters - 1)).permits_toNat

end Counters

namespace Spin

variable {s s' : Spin} {t u : Nat} {n n' : Node} {wait : Wait}

/-- Two signals without a permit that differ in what has become of one waiter. -/
structure Twins (t : Nat) (n n' : Node) (s s' : Spin) : Prop where
  same : s' = { s with queue := s'.queue }
  queue : s.queue.Twins t n n' s'.queue
  dry : s.counters.permits = 0
  old : t < s.nextTicket

theorem Twins.not_pos (h : Twins t n n' s s') : ¬ 0 < s.counters.permits := by
  rw [h.dry]
  exact UInt32.lt_irrefl 0

theorem Twins.exists_queue (h : Twins t n n' s s') :
    ∃ l, s' = { s with queue := l } ∧ s.queue.Twins t n n' l := ⟨s'.queue, h.same, h.queue⟩

theorem Twins.observer_eq (h : Twins t n n' s s') : s'.observer = s.observer := by
  rw [h.same]

theorem Twins.requeue (h : Twins t n n' s s') {l l' : Line} (hl : l.Twins t n n' l') :
    Twins t n n' { s with queue := l } { s with queue := l' } :=
  ⟨rfl, hl, h.dry, h.old⟩

theorem tryWait_twins (h : Twins t n n' s s') :
    Lockstep (Twins t n n') s.tryWait s'.tryWait := by
  have hnone := h.not_pos
  obtain ⟨l, rfl, _⟩ := h.exists_queue
  rw [tryWait, tryWait, if_neg hnone, if_neg hnone]
  exact lockstep_pure false h

theorem enqueue_twins (w : Waker) (h : Twins t n n' s s') :
    Lockstep (Twins t n n') (s.enqueue w) (s'.enqueue w) := by
  obtain ⟨l, rfl, hl⟩ := h.exists_queue
  exact lockstep_pure _
    ⟨rfl, hl.append _, Counters.enter_dry h.dry, Nat.lt_succ_of_lt h.old⟩

theorem pollPass_twins (w : Waker) (hne : u ≠ t) (h : Twins t n n' s s') :
    Lockstep (Twins t n n') (pollPass w u s) (pollPass w u s') := by
  have hnone := h.not_pos
  obtain ⟨l, rfl, hl⟩ := h.exists_queue
  rw [pollPass, pollPass, hl.isNotified hne, acquireQueued, acquireQueued, if_neg hnone,
    if_neg hnone]
  split
  · exact (lockstep_pure false (h.requeue (hl.update rearm_ticket hne))).map _
  · exact lockstep_pure _ (h.requeue (hl.update (f := Node.register w) (fun _ => rfl) hne))

theorem poll_twins (w : Waker) (hne : wait ≠ .queued t) (h : Twins t n n' s s') :
    Lockstep (Twins t n n') (s.poll w wait) (s'.poll w wait) := by
  cases wait with
  | init =>
    rw [poll, poll]
    refine (tryWait_twins h).andThen fun r r' hr => ?_
    cases s.tryWait.answer with
    | true => exact lockstep_pure _ hr
    | false =>
      simp only [Bool.false_eq_true, if_false]
      exact (enqueue_twins w hr).map _
  | queued u =>
    have hu : u ≠ t := fun heq => hne (congrArg Wait.queued heq)
    rw [poll, poll]
    exact (lockstep_loop (fun _ _ => pollPass_twins w hu) 2 s s' h).map _
  | done => exact lockstep_pure _ h

/-- A poll does not give out a ticket that was given out before. -/
theorem poll_ticket_ne (w : Waker) (hne : wait ≠ .queued t) (hold : t < s.nextTicket) :
    (s.poll w wait).answer.2 ≠ .queued t := by
  cases wait with
  | init =>
    have hstate : s.tryWait.state.nextTicket = s.nextTicket := by
      unfold tryWait
      split <;> rfl
    simp only [poll, Outcome.andThen_answer]
    cases s.tryWait.answer with
    | true => simp
    | false =>
      simp only [Bool.false_eq_true, if_false, Outcome.map_answer, enqueue, Outcome.pure_answer,
        hstate]
      exact fun heq => Nat.lt_irrefl _ (Wait.queued.inj heq ▸ hold)
  | queued u =>
    simp only [poll, Outcome.map_answer]
    split
    · simp
    · exact hne
  | done => simp [poll]

/-- A signal without a permit that a waiter leaves. -/
theorem withdraw_dry (hdry : s.counters.permits = 0) (hfind : s.queue.find t = some n) :
    s.withdraw t = ⟨(), { s with queue := s.queue.remove t, counters := s.counters.leave },
      if n.mark = .pending then [.reported s.observer .waitCancelled] else []⟩ := by
  have hnone : ¬ 0 < s.counters.leave.permits := by
    rw [Counters.leave_dry hdry]
    exact UInt32.lt_irrefl 0
  by_cases hmark : n.mark = .pending
  · rw [withdraw_pending hfind hmark, if_pos hmark]
  · simp only [withdraw, hfind, Node.cancel?, if_neg hmark, if_neg hnone, Outcome.pure]

theorem withdraw_twins (hne : u ≠ t) (h : Twins t n n' s s') :
    Lockstep (Twins t n n') (s.withdraw u) (s'.withdraw u) := by
  obtain ⟨l, rfl, hl⟩ := h.exists_queue
  cases hfind : s.queue.find u with
  | none =>
    have hfind' := (hl.find hne).trans hfind
    simp only [withdraw, hfind, hfind']
    exact lockstep_pure () h
  | some m =>
    rw [withdraw_dry h.dry hfind, withdraw_dry (s := { s with queue := l }) h.dry
      ((hl.find hne).trans hfind)]
    exact ⟨rfl, rfl, rfl, hl.remove hne, Counters.leave_dry h.dry, h.old⟩

theorem drop_twins (hne : wait ≠ .queued t) (h : Twins t n n' s s') :
    Lockstep (Twins t n n') (s.drop wait) (s'.drop wait) := by
  cases wait with
  | queued u => exact withdraw_twins (fun heq => hne (congrArg Wait.queued heq)) h
  | init => exact lockstep_pure () h
  | done => exact lockstep_pure () h

/-- Twins are the same again when the waiter itself has left. -/
theorem Twins.withdrawn (h : Twins t n n' s s') :
    (s'.withdraw t).state = (s.withdraw t).state := by
  obtain ⟨l, rfl, hl⟩ := h.exists_queue
  rw [withdraw_dry h.dry hl.found, withdraw_dry (s := { s with queue := l }) h.dry hl.twin,
    hl.others]

end Spin

/-! ### Sessions -/

/-- The request does not set the signal, and it is not about the wait under a name. -/
def Request.Leaves (r : Request) (id : String) : Prop :=
  r ≠ .set ∧ r ≠ .fire id ∧ r.waiter? ≠ some (.task id)

instance (r : Request) (id : String) : Decidable (r.Leaves id) :=
  inferInstanceAs (Decidable (_ ∧ _))

namespace Session

variable {s s' : Session Spin Spin.Wait} {id k : String} {t : Nat} {n n' : Node}

/-- Two sessions without a permit that differ in what has become of one waiter. -/
structure Twins (id : String) (t : Nat) (n n' : Node) (s s' : Session Spin Spin.Wait) : Prop where
  signal : s.signal.Twins t n n' s'.signal
  held : ∃ held, s.waits.get? id = some held ∧ s'.waits.get? id = some held ∧
    held.wait = .queued t
  apart : ∀ k held, k ≠ id → s.waits.get? k = some held → held.wait ≠ .queued t
  waits : s.waits.AgreeBut id s'.waits
  cancellations : s.cancellations.AgreeBut id s'.cancellations
  keys : s'.keys = s.keys
  blocked : s'.blocked = s.blocked

namespace Twins

theorem get? (h : Twins id t n n' s s') (k : String) : s'.waits.get? k = s.waits.get? k := by
  by_cases hk : k = id
  · obtain ⟨held, hget, hget', _⟩ := h.held
    rw [hk, hget, hget']
  · exact h.waits k hk

theorem resignal (h : Twins id t n n' s s') {r r' : Spin} (hr : r.Twins t n n' r') :
    Twins id t n n' { s with signal := r } { s' with signal := r' } := { h with signal := hr }

theorem put (h : Twins id t n n' s s') (hk : k ≠ id) {held : Held Spin.Wait}
    (hne : held.wait ≠ .queued t) :
    Twins id t n n' { s with waits := s.waits.put k held }
      { s' with waits := s'.waits.put k held } :=
  { h with
    held := by
      obtain ⟨own, hget, hget', hown⟩ := h.held
      exact ⟨own, (Named.get?_put_ne _ _ hk.symm).trans hget,
        (Named.get?_put_ne _ _ hk.symm).trans hget', hown⟩
    apart := fun j other hj hget => by
      by_cases heq : j = k
      · rw [heq] at hget
        obtain rfl := Option.some.inj ((Named.get?_put_self _ _ _).symm.trans hget)
        exact hne
      · exact h.apart j other hj ((Named.get?_put_ne _ _ heq).symm.trans hget)
    waits := h.waits.put k held }

theorem erase (h : Twins id t n n' s s') (hk : k ≠ id) :
    Twins id t n n' { s with waits := s.waits.erase k } { s' with waits := s'.waits.erase k } :=
  { h with
    held := by
      obtain ⟨own, hget, hget', hown⟩ := h.held
      exact ⟨own, (Named.get?_erase_ne _ hk.symm).trans hget,
        (Named.get?_erase_ne _ hk.symm).trans hget', hown⟩
    apart := fun j other hj hget => by
      by_cases heq : j = k
      · rw [heq, Named.get?_erase_self] at hget
        cases hget
      · exact h.apart j other hj ((Named.get?_erase_ne _ heq).symm.trans hget)
    waits := h.waits.erase k }

theorem cancelling (h : Twins id t n n' s s') (k : String) (c : Cancellation) :
    Twins id t n n' { s with cancellations := s.cancellations.put k c }
      { s' with cancellations := s'.cancellations.put k c } :=
  { h with cancellations := h.cancellations.put k c }

end Twins

theorem onSignal_twins {α : Type} {o o' : Outcome α Spin} (h : Twins id t n n' s s')
    (ho : Lockstep (Spin.Twins t n n') o o') :
    Lockstep (Twins id t n n') (s.onSignal o) (s'.onSignal o') :=
  ho.lift fun _ _ hr => h.resignal hr

theorem replace_twins (h : Twins id t n n' s s') (hk : k ≠ id) {held : Held Spin.Wait}
    (hne : held.wait ≠ .queued t) :
    Lockstep (Twins id t n n') (s.replace k held) (s'.replace k held) := by
  rw [replace, replace, h.get? k]
  cases hget : s.waits.get? k with
  | none => exact lockstep_pure _ (h.put hk hne)
  | some old =>
    exact (onSignal_twins (h.put hk hne) (Spin.drop_twins (h.apart k old hk hget) h.signal)).map _

theorem drop_twins (h : Twins id t n n' s s') (hk : k ≠ id) :
    Lockstep (Twins id t n n') (s.request (.drop k)) (s'.request (.drop k)) := by
  simp only [request, h.get? k]
  cases hget : s.waits.get? k with
  | none => exact lockstep_pure _ h
  | some old =>
    exact (onSignal_twins (h.erase hk) (Spin.drop_twins (h.apart k old hk hget) h.signal)).map _

/-- A race that goes on leaves the wait as its own poll left it. -/
theorem raceCancel_pending {r : Spin} {wait wait' : Spin.Wait} (w : Waker) (c : Cancellation)
    (h : (raceCancel w wait c r).answer.1 = .pending wait') : wait' = (r.poll w wait).answer.2 := by
  simp only [raceCancel, Outcome.andThen_answer] at h
  split at h
  · cases h
  · split at h
    · cases h
    · exact (Race.pending.inj h).symm

theorem raceCancel_twins {r r' : Spin} {wait : Spin.Wait} (w : Waker) (c : Cancellation)
    (hne : wait ≠ .queued t) (h : r.Twins t n n' r') :
    Lockstep (Spin.Twins t n n') (raceCancel w wait c r) (raceCancel w wait c r') := by
  refine (Spin.poll_twins w hne h).andThen fun q q' hq => ?_
  split
  · exact lockstep_pure _ hq
  · split
    · exact (Spin.drop_twins (Spin.poll_ticket_ne w hne h.old) hq).map _
    · exact lockstep_pure _ hq

theorem poll_twins (w : Waker) (h : Twins id t n n' s s') (hk : k ≠ id) :
    Lockstep (Twins id t n n') (s.poll k w) (s'.poll k w) := by
  rw [poll, poll, h.get? k]
  cases hget : s.waits.get? k with
  | none => exact lockstep_pure _ h
  | some held =>
    cases held with
    | plain wait =>
      have hne : wait ≠ .queued t := h.apart k _ hk hget
      have hticket := Spin.poll_ticket_ne w hne h.signal.old
      refine (onSignal_twins h (Spin.poll_twins w hne h.signal)).andThen fun r r' hr => ?_
      exact lockstep_pure _ (hr.put hk hticket)
    | cancellable wait =>
      have hne : wait ≠ .queued t := h.apart k _ hk hget
      have hticket := Spin.poll_ticket_ne w hne h.signal.old
      simp only [h.cancellations k hk]
      generalize (s.cancellations.get? k).getD ⟨false, none⟩ = c
      refine (onSignal_twins h (raceCancel_twins w c hne h.signal)).andThen fun r r' hr => ?_
      have hput := hr.cancelling k (raceCancel w wait c s.signal).answer.2
      simp only [onSignal, Outcome.lift_answer]
      cases hanswer : (raceCancel w wait c s.signal).answer.1 with
      | released => exact lockstep_pure _ (hput.erase hk)
      | cancelled => exact lockstep_pure _ (hput.erase hk)
      | pending wait' =>
        obtain rfl := raceCancel_pending w c hanswer
        exact lockstep_pure _ (hput.put hk hticket)

theorem fire_twins (h : Twins id t n n' s s') (hk : k ≠ id) :
    Lockstep (Twins id t n n') (s.request (.fire k)) (s'.request (.fire k)) := by
  simp only [request, h.cancellations k hk]
  cases s.cancellations.get? k with
  | none => exact lockstep_pure _ h
  | some c => exact ⟨rfl, rfl, h.cancelling k _⟩

theorem debug_twins (h : Twins id t n n' s s') (k : String) :
    Lockstep (Twins id t n n') (s.request (.debug k)) (s'.request (.debug k)) := by
  simp only [request, h.get? k]
  cases s.waits.get? k with
  | none => exact lockstep_pure _ h
  | some held => cases held <;> exact lockstep_pure _ h

theorem request_twins (h : Twins id t n n' s s') {r : Request} (hr : r.Leaves id) :
    Lockstep (Twins id t n n') (s.request r) (s'.request r) := by
  obtain ⟨hset, hfire, hwaiter⟩ := hr
  have hne : ∀ {k : String}, r.waiter? = some (.task k) → k ≠ id :=
    fun heq hk => hwaiter (hk ▸ heq)
  cases r with
  | set => exact absurd rfl hset
  | tryWait => exact (onSignal_twins h (Spin.tryWait_twins h.signal)).map _
  | wait k => exact replace_twins h (hne rfl) (by simp [Held.wait, AutoReset.wait])
  | waitOrCancel k fired =>
    exact replace_twins (h.cancelling k ⟨fired, none⟩) (hne rfl)
      (by simp [Held.wait, AutoReset.wait])
  | fire k => exact fire_twins h fun hk => hfire (hk ▸ rfl)
  | poll k w => exact poll_twins w h (hne rfl)
  | drop k => exact drop_twins h (hne rfl)
  | debug k => exact debug_twins h k
  | keyInfo k =>
    simp only [request, h.keys]
    cases s.keys.get? k with
    | none => exact lockstep_pure _ h
    | some key => exact lockstep_pure _ h
  | newKey _ => exact lockstep_pure _ h
  | pollKey _ _ => exact lockstep_pure _ h
  | cancelKey _ => exact lockstep_pure _ h
  | waiters => exact lockstep_pure _ h
  | isSet => exact lockstep_pure _ h
  | expire => exact lockstep_pure _ h
  | pastDeadline => exact lockstep_pure _ h
  | block _ => exact lockstep_pure _ h
  | timeUp _ => exact lockstep_pure _ h
  | unknown => exact lockstep_pure _ h

theorem settle_twins (h : Twins id t n n' s s') :
    Lockstep (Twins id t n n') s.settle s'.settle := by
  refine (onSignal_twins h (lockstep_pure [] h.signal)).andThen fun r r' hr => ?_
  exact ⟨rfl, rfl, { hr with blocked := congrArg (List.filter _) hr.blocked }⟩

theorem step_twins (h : Twins id t n n' s s') {r : Request} (hr : r.Leaves id) :
    Lockstep (Twins id t n n') (s.step r) (s'.step r) :=
  (request_twins h hr).andThen fun _ _ hnext => (settle_twins hnext).map _

/-- Whatever the others request while the signal is not set, twins are answered alike, do the
    same, and stay twins. -/
theorem run_twins {rs : List Request} (hrs : ∀ r ∈ rs, r.Leaves id) (h : Twins id t n n' s s') :
    (s'.run rs).map (fun o => (o.answer, o.effects))
        = (s.run rs).map (fun o => (o.answer, o.effects)) ∧
      Twins id t n n' (s.after rs) (s'.after rs) := by
  induction rs generalizing s s' with
  | nil => exact ⟨rfl, h⟩
  | cons r rs ih =>
    have hstep := step_twins h (hrs r List.mem_cons_self)
    obtain ⟨hrest, hafter⟩ := ih (fun r' hr' => hrs r' (List.mem_cons_of_mem _ hr')) hstep.state
    refine ⟨?_, hafter⟩
    simp only [run, List.map_cons, hstep.answer, hstep.effects, hrest]

end Session

end Conduit.Signal

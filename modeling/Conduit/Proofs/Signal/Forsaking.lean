/-
  Conduit/Proofs/Signal/Forsaking.lean
  ====================================
  **What the signal that counts permits is told of a waiter that gives up.**

  A waiter that was not woken reports that it has given up.  One that was woken while a
  permit is there has something to pass on and reports nothing: the permit stays, and
  another waiter is woken for it if there is one that was not.

  Between the two is the waiter that was woken and whose permit somebody else has taken.
  It has nothing to pass on, and it is pending again, but only its next poll says so: if
  it gives up after that poll it reports so, and before it, it reports nothing.  The
  report is all that the poll decides (`Unmoved`).
-/
import Conduit.Proofs.Signal.Twins

namespace Conduit.Signal

open Outcome Staged

/-! ### Statements -/

/-- With these requests the wait under a name is dropped. -/
def Request.Forsakes (r : Request) (id : String) : Prop :=
  r = .drop id ∨ r = .wait id ∨ ∃ fired, r = .waitOrCancel id fired

namespace Spin

/-- The signal without a waiter that has left. -/
def without (t : Nat) (s : Spin) : Spin :=
  { s with queue := s.queue.remove t, counters := s.counters.leave }

/-- A permit is left to the others: a waiter that was not woken yet is notified and its waker
    called, or all of them have been woken, and nothing else happens. -/
def LeavesPermit (s : Spin) (effects : List Effect) (s' : Spin) : Prop :=
  (∃ front n back w, s.queue = front ++ n :: back ∧ n.mark = .pending ∧ n.party = .task w ∧
    s' = { s with queue := front ++ { n with mark := .notified } :: back } ∧
    effects = [.woken w]) ∨
  ((∀ n ∈ s.queue, n.mark = .notified) ∧ s' = s ∧ effects = [])

/-- What becomes of a signal when the waiter with a ticket gives up.  No permit is lost to those
    who stay, but for one beyond one more than they are.  A waiter that was not woken reports so; one
    that was woken leaves its permit, if one is there, to the others; and one that was woken and
    has lost its permit leaves without a word. -/
structure Forsaken (t : Nat) (s : Spin) (effects : List Effect) (s' : Spin) : Prop where
  queued : (s.queue.find t).isSome = true
  permits : s'.pendingReleases = min s.pendingReleases s.registeredWaits
  unwoken : s.queue.isNotified t = false →
    s' = s.without t ∧ effects = [.reported s.observer .waitCancelled]
  woken : s.queue.isNotified t = true → 0 < s.pendingReleases →
    0 < s'.pendingReleases ∧ (s.without t).LeavesPermit effects s'
  robbed : s.queue.isNotified t = true → s.pendingReleases = 0 →
    s' = s.without t ∧ effects = []

end Spin

namespace Session

/-- What one more poll of a wait that has lost its permit decides.  The poll itself does nothing to
    the world; the others are answered as without it, and nobody is woken but who would be; and
    when the wait is dropped the signal is the same.  After the poll a cancelled wait is reported,
    without it just if the waiter had not been woken. -/
structure Unmoved (s : Session Spin Spin.Wait) (id : String) (t : Nat) (w : Waker)
    (between : List Request) : Prop where
  silent : (s.step (.poll id w)).effects = []
  others : ((s.step (.poll id w)).state.run between).map (fun o => (o.answer, o.effects))
    = (s.run between).map fun o => (o.answer, o.effects)
  signal : (((s.step (.poll id w)).state.after between).step (.drop id)).state.signal
    = ((s.after between).step (.drop id)).state.signal
  polled : (((s.step (.poll id w)).state.after between).step (.drop id)).effects
    = [.reported (s.after between).signal.observer .waitCancelled]
  unpolled : ((s.after between).step (.drop id)).effects
    = if s.signal.queue.isNotified t then []
      else [.reported (s.after between).signal.observer .waitCancelled]

end Session

/-! ### The signal -/

namespace Node

theorem task_of_thread? {n : Node} (h : n.thread? = none) : ∃ w, n.party = .task w := by
  unfold thread? at h
  cases hparty : n.party with
  | task w => exact ⟨w, rfl⟩
  | thread id =>
    rw [hparty] at h
    cases h

end Node

namespace Spin

variable {s : Spin} {p t : Nat} {K : List Nat} {T : List Thread} {n : Node} {slack : Nat}

theorem isNotified_of_find (hfind : s.queue.find t = some n) :
    s.queue.isNotified t = (n.mark == .notified) := by
  rw [Line.isNotified, hfind]

theorem pendingReleases_eq (h : s.Books slack p K T) : s.pendingReleases = p :=
  h.counters.permits_toNat

/-- Whoever is notified next stands in the queue as a task. -/
theorem notifyNext_leaves (h : s.Books slack p K T) :
    s.LeavesPermit s.notifyNext.effects s.notifyNext.state := by
  unfold notifyNext
  rcases Line.notifyFirst_cases s.queue with ⟨hnone, hall⟩ | ⟨front, n, back, hqueue, hn, hsome⟩
  · rw [hnone]
    refine Or.inr ⟨fun n hn => ?_, rfl, rfl⟩
    exact (mark_cases (h.standing n hn)).resolve_left (hall n hn)
  · rw [hsome]
    have hmem : n ∈ s.queue := hqueue ▸ List.mem_append_right _ List.mem_cons_self
    obtain ⟨w, hparty⟩ := Node.task_of_thread? (h.task hmem)
    refine Or.inl ⟨front, n, back, w, hqueue, hn, hparty, rfl, ?_⟩
    simp only [Node.rouse, hparty]

/-- A waiter that was woken and leaves a permit behind has the next one notified. -/
theorem withdraw_woken (hfind : s.queue.find t = some n) (hmark : n.mark = .notified)
    (hpos : 0 < s.counters.leave.permits) : s.withdraw t = (s.without t).notifyNext := by
  simp [withdraw, hfind, Node.cancel?, hmark, hpos, without]

theorem withdraw_forsaken (h : s.Books 0 p (t :: K) T) :
    s.Forsaken t (s.withdraw t).effects (s.withdraw t).state := by
  obtain ⟨n, hfind, htask, hmark⟩ := h.find
  obtain ⟨hbooks, hlength⟩ := leave_books h hfind htask hmark
  have hleft : (s.without t).pendingReleases = min p s.queue.length := pendingReleases_eq hbooks
  have hpermits := pendingReleases_eq h
  have hwoken := isNotified_of_find hfind
  have hqueued : (s.queue.find t).isSome = true := by
    rw [hfind]
    rfl
  rcases hmark with hmark | hmark
  · have hno : s.queue.isNotified t = false := by
      rw [hwoken, hmark]
      rfl
    rw [withdraw_pending hfind hmark]
    exact
      { queued := hqueued
        permits := by
          rw [hpermits]
          exact hleft
        unwoken := fun _ => ⟨rfl, rfl⟩
        woken := fun hyes => absurd (hno.symm.trans hyes) (by decide)
        robbed := fun hyes => absurd (hno.symm.trans hyes) (by decide) }
  · have hyes : s.queue.isNotified t = true := by
      rw [hwoken, hmark]
      rfl
    simp only [hmark, if_true] at hbooks
    by_cases hpos : 0 < p
    · have hsome := hbooks.counters.permits_pos.mpr (by omega : 0 < min p s.queue.length)
      have hafter := pendingReleases_eq (notifyNext_books hbooks)
      rw [withdraw_woken hfind hmark hsome]
      exact
        { queued := hqueued
          permits := by
            rw [hpermits]
            exact hafter
          unwoken := fun hno => absurd (hno.symm.trans hyes) (by decide)
          woken := fun _ _ => ⟨by rw [without, hafter]; omega, notifyNext_leaves hbooks⟩
          robbed := fun _ hzero => absurd hzero (by omega) }
    · have hdry : s.counters.permits = 0 := by
        rw [← UInt32.toNat_inj, h.counters.permits_toNat]
        exact Nat.eq_zero_of_not_pos hpos
      have hnot : ¬ n.mark = .pending := by simp [hmark]
      rw [withdraw_dry hdry hfind, if_neg hnot]
      exact
        { queued := hqueued
          permits := by
            rw [hpermits]
            exact hleft
          unwoken := fun hno => absurd (hno.symm.trans hyes) (by decide)
          woken := fun _ hsome => absurd hsome (by omega)
          robbed := fun _ _ => ⟨rfl, rfl⟩ }

end Spin

/-! ### The session -/

namespace Session

variable {s s' : Session Spin Spin.Wait} {id : String} {held : Held Spin.Wait} {t p : Nat}
  {K : List Nat} {T : List Thread} {n n' : Node}

theorem settle_effects (s : Session Spin Spin.Wait) : s.settle.effects = [] := rfl

theorem settle_signal (s : Session Spin Spin.Wait) : s.settle.state.signal = s.signal := rfl

/-- All that a request does that drops a wait is done by the drop. -/
theorem step_forsakes {r : Request} (hr : r.Forsakes id) (hget : s.waits.get? id = some held) :
    (s.step r).effects = (s.signal.drop held.wait).effects ∧
      (s.step r).state.signal = (s.signal.drop held.wait).state := by
  have hrequest : (s.request r).effects = (s.signal.drop held.wait).effects ∧
      (s.request r).state.signal = (s.signal.drop held.wait).state := by
    rcases hr with rfl | rfl | ⟨fired, rfl⟩
    · simp only [request, hget]
      exact ⟨rfl, rfl⟩
    · simp only [request, replace, hget]
      exact ⟨rfl, rfl⟩
    · simp only [request, replace, hget]
      exact ⟨rfl, rfl⟩
  obtain ⟨heffects, hsignal⟩ := hrequest
  refine ⟨?_, ?_⟩
  · rw [step, andThen_effects, map_effects, settle_effects, List.append_nil, heffects]
  · rw [step, andThen_state, map_state, settle_signal, hsignal]

/-- Dropping a wait whose permit is gone. -/
theorem Twins.step_drop (h : Twins id t n n' s s') :
    (s.step (.drop id)).effects = (s.signal.withdraw t).effects ∧
      (s.step (.drop id)).state.signal = (s.signal.withdraw t).state ∧
      (s'.step (.drop id)).effects = (s'.signal.withdraw t).effects ∧
      (s'.step (.drop id)).state.signal = (s'.signal.withdraw t).state := by
  obtain ⟨own, hget, hget', hown⟩ := h.held
  obtain ⟨heffects, hsignal⟩ := step_forsakes (Or.inl rfl) hget
  obtain ⟨heffects', hsignal'⟩ := step_forsakes (Or.inl rfl) hget'
  rw [hown] at heffects hsignal heffects' hsignal'
  exact ⟨heffects, hsignal, heffects', hsignal'⟩

/-- A wait that is pending after a poll was polled in vain. -/
theorem vain_of_pending (w : Waker) (hget : s.waits.get? id = some held)
    (hanswer : (s.request (.poll id w)).answer = .pending) :
    (s.signal.poll w held.wait).answer.1 = false := by
  cases held with
  | plain wait =>
    simp only [request, poll, hget] at hanswer
    change (if (s.signal.poll w wait).answer.1 then Reply.ready else .pending) = .pending
      at hanswer
    refine Bool.eq_false_iff.mpr fun hready => ?_
    rw [if_pos (by exact hready)] at hanswer
    cases hanswer
  | cancellable wait =>
    rcases poll_cancellable w hget with ⟨_, hready, _⟩ | ⟨hvain, _⟩ | ⟨hvain, _⟩
    · rw [hready] at hanswer
      cases hanswer
    · exact hvain
    · exact hvain

/-- What a poll in vain changes that leaves a wait pending. -/
theorem poll_pending_state {r : Spin} (w : Waker) (hget : s.waits.get? id = some held)
    (hqueued : held.wait = .queued t)
    (hpoll : s.signal.poll w (.queued t) = .pure (false, .queued t) r)
    (hanswer : (s.request (.poll id w)).answer = .pending) :
    ∃ c, s.cancellations.AgreeBut id c ∧ s.request (.poll id w)
      = .pure .pending
          { s with signal := r, waits := s.waits.put id held, cancellations := c } := by
  cases held with
  | plain wait =>
    obtain rfl : wait = .queued t := hqueued
    refine ⟨s.cancellations, fun _ _ => rfl, ?_⟩
    simp only [request, poll, hget, onSignal, AutoReset.poll, hpoll, Outcome.lift, Outcome.pure,
      Outcome.andThen, Bool.false_eq_true, if_false, List.append_nil]
  | cancellable wait =>
    obtain rfl : wait = .queued t := hqueued
    cases hfired : ((s.cancellations.get? id).getD ⟨false, none⟩).fired with
    | true =>
      simp only [request, poll, hget, onSignal, raceCancel, AutoReset.poll, hpoll, Outcome.lift,
        Outcome.pure, Outcome.andThen, Outcome.map, Bool.false_eq_true, if_false, if_true,
        hfired] at hanswer
      cases hanswer
    | false =>
      refine ⟨s.cancellations.put id
        { (s.cancellations.get? id).getD ⟨false, none⟩ with waker := some w },
        Named.agreeBut_put _ _ _, ?_⟩
      simp only [request, poll, hget, onSignal, raceCancel, AutoReset.poll, hpoll, Outcome.lift,
        Outcome.pure, Outcome.andThen, Bool.false_eq_true, if_false, List.append_nil, hfired]

/-- A poll in vain of a wait whose permit is gone makes a twin whose waiter is pending. -/
theorem poll_makes_twin (w : Waker) (hbooks : s.signal.Books 0 0 (t :: K) T)
    (hget : s.waits.get? id = some held) (hqueued : held.wait = .queued t)
    (hapart : ∀ k other, k ≠ id → s.waits.get? k = some other → other.wait ≠ .queued t)
    (hanswer : (s.step (.poll id w)).answer.1 = .pending) :
    (s.step (.poll id w)).effects = [] ∧
      ∃ n n', Twins id t n n' s (s.step (.poll id w)).state ∧ n'.mark = .pending := by
  have hvain : (s.signal.poll w (.queued t)).answer.1 = false :=
    hqueued ▸ vain_of_pending w hget hanswer
  obtain ⟨l, n', hpoll, hfind', hmark', hremove, _⟩ := Spin.poll_vain w hbooks hvain
  obtain ⟨n, hfind, _, _⟩ := hbooks.find
  obtain ⟨c, hcancellations, hrequest⟩ := poll_pending_state w hget hqueued hpoll hanswer
  have hdry : s.signal.counters.permits = 0 := by
    rw [← UInt32.toNat_inj, hbooks.counters.permits_toNat]
    rfl
  have hold : t < s.signal.nextTicket :=
    Line.find_ticket hfind ▸ hbooks.roll.old n (Line.find_mem hfind)
  have hblocked : s.blocked.filter (fun b => ¬ ([] : List Thread).contains b) = s.blocked :=
    List.filter_eq_self.mpr fun _ _ => by simp
  refine ⟨?_, n, n', ?_, hmark'⟩
  · rw [step, hrequest]
    rfl
  · rw [step, hrequest]
    exact
      { signal := ⟨rfl, ⟨hremove, hfind, hfind'⟩, hdry, hold⟩
        held := ⟨held, hget, Named.get?_put_self _ _ _, hqueued⟩
        apart := hapart
        waits := Named.agreeBut_put s.waits id held
        cancellations := hcancellations
        keys := rfl
        blocked := hblocked }

/-- Whatever the others request before the wait is dropped. -/
theorem poll_unmoved (w : Waker) (hbooks : s.signal.Books 0 0 (t :: K) T)
    (hget : s.waits.get? id = some held) (hqueued : held.wait = .queued t)
    (hapart : ∀ k other, k ≠ id → s.waits.get? k = some other → other.wait ≠ .queued t)
    (hanswer : (s.step (.poll id w)).answer.1 = .pending) {between : List Request}
    (hbetween : ∀ r ∈ between, r.Leaves id) : s.Unmoved id t w between := by
  obtain ⟨hsilent, n, n', htwins, hmark'⟩ := poll_makes_twin w hbooks hget hqueued hapart hanswer
  obtain ⟨hothers, hafter⟩ := run_twins hbetween htwins
  obtain ⟨heffects, hsignal, heffects', hsignal'⟩ := hafter.step_drop
  have hobserver : ((s.step (.poll id w)).state.after between).signal.observer
      = (s.after between).signal.observer := hafter.signal.observer_eq
  have hmark := (hbooks.standing n (Line.find_mem htwins.signal.queue.found))
  have hwoken := Spin.isNotified_of_find htwins.signal.queue.found
  refine ⟨hsilent, hothers, ?_, ?_, ?_⟩
  · rw [hsignal, hsignal', hafter.signal.withdrawn]
  · rw [heffects', Spin.withdraw_pending hafter.signal.queue.twin hmark', hobserver]
  · rw [heffects, Spin.withdraw_dry hafter.signal.dry hafter.signal.queue.found, hwoken]
    rcases Spin.mark_cases hmark with hpending | hnotified
    · simp [hpending]
    · simp [hnotified]

/-- No two waits are held under one ticket. -/
theorem held_apart {orphans : List Nat} {age : Nat} (hfits : Fits orphans age s)
    (hget : s.waits.get? id = some held) (hqueued : held.wait = .queued t) (k : String)
    (other : Held Spin.Wait) (hk : k ≠ id) (hother : s.waits.get? k = some other) :
    other.wait ≠ .queued t := by
  intro heq
  have hticket : ∀ {j : String} {h : Held Spin.Wait}, s.waits.get? j = some h →
      h.wait = .queued t → s.ticket? (.wait j) = some t := by
    intro j h hj hwait
    simp only [ticket?, hj, Option.bind_some, heldTicket?, hwait]
    rfl
  have hmem := mem_beside hfits (fun h => hk (Handle.wait.inj h)) (hticket hother heq)
  have hseat := sound_at hfits (.wait id)
  rw [hticket hget hqueued] at hseat
  obtain ⟨p, hbooks⟩ := hseat
  exact (List.nodup_cons.mp hbooks.roll.nodup).1 hmem

/-- A wait that its cancellation ends has been polled in vain just before, and is reported. -/
theorem cancelled_effects {orphans : List Nat} {age : Nat} (w : Waker)
    (hfits : Fits orphans age s) (sparse : s.signal.queue.length < 4294967295)
    (hget : s.waits.get? id = some held)
    (hanswer : (s.step (.poll id w)).answer.1 = .cancelled) :
    (s.step (.poll id w)).effects = [.reported s.signal.observer .waitCancelled] := by
  have hrequest : (s.request (.poll id w)).answer = .cancelled := hanswer
  have hseat := held_sound hfits hget
  rw [step, andThen_effects, map_effects, settle_effects, List.append_nil]
  cases held with
  | plain wait =>
    simp only [request, poll, hget] at hrequest
    change (if (s.signal.poll w wait).answer.1 then Reply.ready else .pending) = .cancelled
      at hrequest
    split at hrequest <;> cases hrequest
  | cancellable wait =>
    have hclean := cancelsCleanly_of_vanished w hget fun hvain =>
      Spin.vanished w hseat sparse hvain
    exact (hclean.vanished hrequest).reported

/-- **Who gives up with nothing to pass on is reported, unless it has not noticed yet that the
    permit it was woken for is gone.**  Whenever a queued wait is dropped, by its own request or by
    one that lets its name hold another, a cancelled wait is reported just if the waiter had not
    been woken; a permit that is there stays for the others.  Where a cancellation ends the wait
    it has just been polled, so that it is reported in any case.  A wait that has lost its permit
    may be polled once more or not before it is dropped: that decides the report and nothing
    else. -/
theorem abandoned_waits_told (observer : Observer) (rs : List Request) (id : String)
    (held : Held Spin.Wait) (t : Nat)
    (hfew : (Session.new observer : Session Spin Spin.Wait).Below 4294967295 rs)
    (hget : ((Session.new observer : Session Spin Spin.Wait).after rs).waits.get? id = some held)
    (hqueued : held.wait = .queued t) :
    let s := (Session.new observer : Session Spin Spin.Wait).after rs
    (∀ r, r.Forsakes id →
      s.signal.Forsaken t (s.step r).effects (s.step r).state.signal) ∧
    (∀ w, (s.step (.poll id w)).answer.1 = .cancelled →
      (s.step (.poll id w)).effects = [.reported s.signal.observer .waitCancelled]) ∧
    (s.signal.pendingReleases = 0 → ∀ w between, (s.step (.poll id w)).answer.1 = .pending →
      (∀ r ∈ between, r.Leaves id) → s.Unmoved id t w between) := by
  intro s
  obtain ⟨⟨orphans, hfits⟩, _⟩ := after_fits (new_fits observer) (LawfulSignal.new_rested observer)
    hfew.roomy
  have hseat := held_sound hfits hget
  rw [hqueued] at hseat
  obtain ⟨p, hbooks⟩ := hseat
  refine ⟨fun r hr => ?_, fun w hanswer => ?_, fun hdry w between hanswer hbetween => ?_⟩
  · obtain ⟨heffects, hsignal⟩ := step_forsakes hr hget
    rw [heffects, hsignal, hqueued]
    exact Spin.withdraw_forsaken hbooks
  · exact cancelled_effects w hfits hfew.roomy.last hget hanswer
  · obtain rfl : p = 0 := (Spin.pendingReleases_eq hbooks).symm.trans hdry
    exact poll_unmoved w hbooks hget hqueued (held_apart hfits hget hqueued) hanswer hbetween

/-- Somebody barges in and takes the permit of a waiter while another one waits behind it. -/
theorem abandoned_waits_told_barging :
    let rs : List Request := [.wait "a", .poll "a" 1, .wait "b", .poll "b" 2, .set, .tryWait]
    let s := (Session.new .counting : Session Spin Spin.Wait).after rs
    s.signal.Forsaken 0 (s.step (.drop "a")).effects (s.step (.drop "a")).state.signal ∧
    s.signal.queue.isNotified 0 = true ∧ s.signal.pendingReleases = 0 ∧
    s.Unmoved "a" 0 3 [.poll "b" 4, .wait "c"] := by
  intro rs s
  obtain ⟨hforsaken, _, hunmoved⟩ := abandoned_waits_told .counting rs "a" (.plain (.queued 0)) 0
    (by decide) (by decide) rfl
  exact ⟨hforsaken (.drop "a") (Or.inl rfl), by decide, by decide,
    hunmoved (by decide) 3 _ (by decide) (by decide)⟩

/-- **A waiter that was woken and has lost its permit goes without a report.**  It has nothing to
    pass on; polled once more it is pending, and is reported when it is dropped. -/
theorem robbed_wait_untold :
    let s := (Session.new .counting : Session Spin Spin.Wait).after
      [.wait "a", .poll "a" 1, .set, .tryWait]
    s.waits.get? "a" = some (.plain (.queued 0)) ∧ s.signal.pendingReleases = 0 ∧
      (s.step (.drop "a")).effects = [] ∧
      (s.step (.poll "a" 1)).answer.1 = .pending ∧
      ((s.step (.poll "a" 1)).state.step (.drop "a")).effects
        = [.reported .counting .waitCancelled] := by
  decide

end Session

end Conduit.Signal

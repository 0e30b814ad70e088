/-
  Conduit/Proofs/Signal/Seat.lean
  ===============================
  **One wait among the others.**

  A wait that is not registered has no ticket, so a poll or a drop finds its ticket, if
  it has one, in front of the tickets of all the others.  `Polled` is what a poll does,
  however far the wait had come and however the poll ends: the tickets afterwards, the
  moves, that the others were heeded, and that the wait sleeps under the poll's waker if
  it is registered.  A wait that a cancellation may end is polled in the same way.
-/
import Conduit.Proofs.Signal.Tracked

namespace Conduit.Signal

open Tracked Staged

variable {σ ω τ : Type} [Facilities σ ω] [Staged ω τ] [Tracked σ ω τ]

/-- Whoever of these slept sleeps on or had its waker called. -/
def Heeded (R : List τ) (s s' : σ) (effects : List Effect) : Prop :=
  ∀ t ∈ R, ∀ w, asleepAs s t = some w → asleepAs s' t = some w ∨ .woken w ∈ effects

variable {R : List τ} {T : List Thread} {s s' s'' : σ} {effects effects' : List Effect}

theorem Turn.heeded {moves : List Move} {busy : Option τ} (h : Turn s s' effects moves busy)
    (hR : (busy.toList ++ R).Nodup) : Heeded R s s' effects := by
  intro t ht w hasleep
  refine h.heard t w (fun hbusy => ?_) hasleep
  rw [hbusy] at hR
  exact (List.nodup_cons.mp hR).1 ht

theorem Turn.heeded_all {moves : List Move} (h : Turn s s' effects moves none) :
    Heeded R s s' effects := fun t _ w hasleep => h.heard t w (by simp) hasleep

theorem Heeded.trans (h : Heeded R s s' effects) (h' : Heeded R s' s'' effects') :
    Heeded R s s'' (effects ++ effects') := by
  intro t ht w hasleep
  rcases h t ht w hasleep with hstill | hwoken
  · exact (h' t ht w hstill).imp_right (List.mem_append_right _)
  · exact Or.inr (List.mem_append_left _ hwoken)

/-- What a poll does to a wait that had come so far, among others with these tickets: its reply,
    and the ticket that the wait has afterwards. -/
structure Polled (age : Nat) (w : Waker) (before : Stage τ) (R : List τ) (T : List Thread)
    (s s' : σ) (effects : List Effect) (reply : Reply) (after : Option τ) : Prop where
  sound : Sound (age + 1) (after.toList ++ R) T s'
  counts : (countsOf s).Path (before.pollMoves reply) (countsOf s')
  heeded : Young σ (age + 1) → Heeded R s s' effects
  asleep : Young σ (age + 1) → ∀ t, after = some t → asleepAs s' t = some w

variable [LawfulSignal σ ω τ] {age : Nat}

theorem young_of_succ (h : Young σ (age + 1)) : Young σ age :=
  LawfulSignal.young_of_le (Nat.le_succ age) h

/-- A poll that leaves its wait pending leaves it registered. -/
theorem poll_polled (w : Waker) (wait : ω)
    (h : Sound age ((stage wait).ticket?.toList ++ R) T s) (sparse : Sparse s) :
    let o := AutoReset.poll w wait s
    Polled age w (stage wait) R T s o.state o.effects
        (if o.answer.1 then .ready else .pending) (stage o.answer.2).ticket? ∧
      (o.answer.1 = true → (stage o.answer.2).ticket? = none) ∧
      (o.answer.1 = false → stage wait ≠ .spent ∧ ∃ t, stage o.answer.2 = .registered t) := by
  intro o
  cases hwait : stage wait with
  | idle =>
    rw [hwait] at h
    rcases LawfulSignal.poll_idle w hwait h sparse with ⟨hready, hticket, hsound, hturn⟩ |
        ⟨hpending, t, hstage, hsound, hturn, hasleep⟩
    · refine ⟨?_, fun _ => hticket, fun hanswer => absurd (hready.symm.trans hanswer) (by simp)⟩
      rw [show o.answer.1 = true from hready, show (stage o.answer.2).ticket? = none from hticket]
      exact ⟨hsound, hturn.counts, fun _ => hturn.heeded_all, fun _ t ht => absurd ht (by simp)⟩
    · refine ⟨?_, fun hanswer => absurd (hpending.symm.trans hanswer) (by simp),
        fun _ => ⟨by simp, t, hstage⟩⟩
      rw [show o.answer.1 = false from hpending, show stage o.answer.2 = .registered t from hstage]
      refine ⟨hsound, hturn.counts, fun _ => hturn.heeded_all, fun hyoung t' ht' => ?_⟩
      obtain rfl := Option.some.inj ht'
      exact hasleep (young_of_succ hyoung)
  | registered t =>
    rw [hwait] at h
    have hdistinct : Young σ (age + 1) → ((some t).toList ++ R).Nodup := fun hyoung =>
      LawfulSignal.distinct h (young_of_succ hyoung)
    rcases LawfulSignal.poll_registered w hwait h with ⟨hready, hticket, hsound, hturn⟩ |
        ⟨hpending, hstage, hsound, hturn, hasleep⟩
    · refine ⟨?_, fun _ => hticket, fun hanswer => absurd (hready.symm.trans hanswer) (by simp)⟩
      rw [show o.answer.1 = true from hready, show (stage o.answer.2).ticket? = none from hticket]
      exact ⟨hsound, hturn.counts, fun hyoung => hturn.heeded (hdistinct hyoung),
        fun _ t ht => absurd ht (by simp)⟩
    · refine ⟨?_, fun hanswer => absurd (hpending.symm.trans hanswer) (by simp),
        fun _ => ⟨by simp, t, hstage⟩⟩
      rw [show o.answer.1 = false from hpending, show stage o.answer.2 = .registered t from hstage]
      refine ⟨hsound, hturn.counts, fun hyoung => hturn.heeded (hdistinct hyoung),
        fun _ t' ht' => ?_⟩
      obtain rfl := Option.some.inj ht'
      exact hasleep
  | spent =>
    rw [hwait] at h
    have ho : o = .pure (true, wait) s := LawfulSignal.poll_over w hwait
    rw [ho]
    simp only [Outcome.pure_answer, Outcome.pure_state, Outcome.pure_effects, hwait]
    exact ⟨⟨LawfulSignal.older h, .nil _, fun _ _ _ _ hasleep => Or.inl hasleep,
      fun _ t ht => absurd ht (by simp [Stage.ticket?])⟩, fun _ => rfl, by simp⟩

/-- Dropping a wait gives its ticket back, if it has one. -/
theorem drop_seat (wait : ω) (h : Sound age ((stage wait).ticket?.toList ++ R) T s) :
    let o := AutoReset.drop wait s
    Sound age R T o.state ∧
      Turn s o.state o.effects (stage wait).dropMoves (stage wait).ticket? := by
  intro o
  cases hwait : stage wait with
  | registered t =>
    rw [hwait] at h
    exact LawfulSignal.drop_registered hwait h
  | idle | spent =>
    rw [hwait] at h
    have ho : o = .pure () s := LawfulSignal.drop_other (by rw [hwait]; rfl)
    rw [ho]
    exact ⟨h, .refl s _⟩

/-- The reply to a poll that a cancellation may have ended. -/
def Race.reply : Race ω → Reply
  | .released => .ready
  | .cancelled => .cancelled
  | .pending _ => .pending

/-- The ticket that such a poll leaves to the wait. -/
def Race.ticket? : Race ω → Option τ
  | .pending wait => (stage wait).ticket?
  | _ => none

theorem race_polled (w : Waker) (wait : ω) (c : Cancellation)
    (h : Sound age ((stage wait).ticket?.toList ++ R) T s) (sparse : Sparse s) :
    let o := raceCancel w wait c s
    Polled age w (stage wait) R T s o.state o.effects o.answer.1.reply o.answer.1.ticket? := by
  obtain ⟨hpolled, hready, hpending⟩ := poll_polled w wait h sparse
  intro o
  cases hanswer : (AutoReset.poll w wait s).answer.1 with
  | true =>
    have ho : o = (AutoReset.poll w wait s).andThen fun _ s => .pure (.released, c) s := by
      show raceCancel w wait c s = _
      simp only [raceCancel, Outcome.andThen, hanswer, if_true]
    rw [hanswer, hready hanswer] at hpolled
    rw [ho]
    simp only [Outcome.andThen, Outcome.pure, List.append_nil]
    exact hpolled
  | false =>
    obtain ⟨hnot, t, hstage⟩ := hpending hanswer
    rw [hanswer] at hpolled
    cases hfired : c.fired with
    | false =>
      have ho : o = (AutoReset.poll w wait s).andThen fun r s =>
          .pure (.pending r.2, { c with waker := some w }) s := by
        show raceCancel w wait c s = _
        simp only [raceCancel, Outcome.andThen, hanswer, hfired, Bool.false_eq_true, if_false]
      rw [ho]
      simp only [Outcome.andThen, Outcome.pure, List.append_nil]
      exact hpolled
    | true =>
      have ho : o = (AutoReset.poll w wait s).andThen fun r s =>
          (AutoReset.drop r.2 s).map fun _ => (.cancelled, c) := by
        show raceCancel w wait c s = _
        simp only [raceCancel, Outcome.andThen, hanswer, hfired, Bool.false_eq_true, if_false,
          if_true]
      obtain ⟨hsound, hturn⟩ := drop_seat _ hpolled.sound
      have hmoves : (stage wait).pollMoves .cancelled
          = (stage wait).pollMoves .pending
            ++ (stage (AutoReset.poll w wait s).answer.2).dropMoves := by
        rw [hstage]
        cases hwait : stage wait with
        | spent => exact absurd hwait hnot
        | idle => rfl
        | registered t => rfl
      rw [ho]
      refine ⟨hsound, ?_, fun hyoung => ?_, fun _ t ht => absurd ht (by simp [Race.ticket?])⟩
      · show (countsOf s).Path ((stage wait).pollMoves .cancelled) _
        rw [hmoves]
        exact hpolled.counts.append hturn.counts
      · exact (hpolled.heeded hyoung).trans
          (hturn.heeded (LawfulSignal.distinct hpolled.sound hyoung))

end Conduit.Signal

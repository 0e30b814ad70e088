/-
  Conduit/Proofs/Signal/Relays.lean
  =================================
  **Waits that end, and threads that wake one another.**

  A queued wait of the signal that counts permits looks for a permit once if it was
  notified.  If a barger was first the wait is pending again, so it looks a second time
  and stays.

  A thread that takes the signal in a single word while a release is owed wakes the next.
  `Resumes` is the whole chain: one thread after another goes on, until nobody is left who
  was roused.  Whoever goes on either returns or falls asleep, and rouses one thread at
  most, so the chain ends.  The signal that hands itself over rouses nobody by a thread
  that returns, and in the signal that counts permits no thread can block.
-/
import Conduit.Proofs.Passes
import Conduit.Proofs.Signal.Listing

namespace Conduit.Signal

open Outcome (Passes Never)

/-! ### Queued waits of the signal that counts permits -/

namespace Spin

/-- A waiter that is pending again is not notified. -/
theorem rearm_not_notified (l : Line) (t : Nat) :
    (l.update t Node.rearm).isNotified t = false := by
  simp only [Line.isNotified, Line.find_update rearm_ticket]
  cases l.find t with
  | none => rfl
  | some n => cases hmark : n.mark <;> simp [Node.rearm, hmark]

/-- A waiter that was notified is pending again. -/
def Rearms (t : Nat) (s s' : Spin) : Prop :=
  s.queue.isNotified t = true ∧ s'.queue.isNotified t = false

/-- A pass asks for another if the waiter was notified and found no permit. -/
theorem pollPass_rearms (w : Waker) (t : Nat) (s : Spin)
    (hagain : (pollPass w t s).answer = none) : Rearms t s (pollPass w t s).state := by
  revert hagain
  simp only [pollPass, acquireQueued]
  split
  · next hnotified =>
    split
    · intro hagain
      cases hagain
    · intro _
      exact ⟨hnotified, rearm_not_notified s.queue t⟩
  · intro hagain
    cases hagain

/-- A pass of a wait that is not notified answers. -/
theorem pollPass_unnotified (w : Waker) {t : Nat} {s : Spin} (h : s.queue.isNotified t = false) :
    (pollPass w t s).answer = some false := by
  simp only [pollPass, h, Bool.false_eq_true, if_false, Outcome.pure_answer]

/-- A poll of a queued wait makes one pass or two, and has their answer. -/
theorem poll_passes (w : Waker) (t : Nat) (s : Spin) :
    ∃ i got, Passes (pollPass w t) Never (Rearms t) 0 i s got (poll w (.queued t) s).state ∧
      i ≤ 1 ∧
      (poll w (.queued t) s).answer = if got then (true, .done) else (false, .queued t) := by
  have hpoll (i : Nat) (got : Bool) (s' : Spin) (hi : i ≤ 1)
      (h : Passes (pollPass w t) Never (Rearms t) 0 i s got s') :
      (poll w (.queued t) s).state = s' ∧
        (poll w (.queued t) s).answer = if got then (true, .done) else (false, .queued t) := by
    obtain ⟨hanswer, hstate⟩ := h.loop (show 0 + i < 2 by omega)
    simp only [poll, Outcome.map_answer, Outcome.map_state, hanswer, hstate, true_and]
    cases got with
    | true => rfl
    | false => rfl
  cases hfirst : (pollPass w t s).answer with
  | some got =>
    have hpasses : Passes (pollPass w t) Never (Rearms t) 0 0 s got _ := .last hfirst
    obtain ⟨hstate, hanswer⟩ := hpoll 0 got _ (Nat.zero_le 1) hpasses
    refine ⟨0, got, ?_, Nat.zero_le 1, hanswer⟩
    rw [hstate]
    exact hpasses
  | none =>
    have hrearms := pollPass_rearms w t s hfirst
    have hpasses : Passes (pollPass w t) Never (Rearms t) 0 1 s false _ :=
      .idles hfirst hrearms (.last (pollPass_unnotified w hrearms.2))
    obtain ⟨hstate, hanswer⟩ := hpoll 1 false _ (Nat.le_refl 1) hpasses
    refine ⟨1, false, ?_, Nat.le_refl 1, hanswer⟩
    rw [hstate]
    exact hpasses

end Spin

/-! ### Threads of the signal in a single word -/

namespace Slim

/-- Roused threads go on one after another until none is left: so many runs, and who returned. -/
inductive Resumes : Nat → Slim → List Thread → Slim → Prop
  | rest {s : Slim} (rested : s.roused = []) : Resumes 0 s [] s
  | run {s s' : Slim} {n : Nat} {ts : List Thread} (roused : s.roused ≠ [])
    (onward : Resumes n s.resume.state ts s') :
    Resumes (n + 1) s (s.resume.answer.toList ++ ts) s'

variable {s s' : Slim} {n fuel : Nat} {ts : List Thread}

theorem Resumes.rested (h : Resumes n s ts s') : s'.roused = [] := by
  induction h with
  | rest hrested => exact hrested
  | run _ _ ih => exact ih

/-- The chain of threads that wake one another ends, and is what running them comes to. -/
theorem runRoused_resumes : ∀ {s : Slim}, s.unrest ≤ fuel →
    ∃ n, Resumes n s (s.runRoused fuel).answer (s.runRoused fuel).state ∧ n ≤ s.unrest := by
  induction fuel with
  | zero =>
    intro s hfuel
    have hrested : s.roused = [] := runRoused_rested 0 hfuel
    exact ⟨0, .rest hrested, Nat.zero_le _⟩
  | succ fuel ih =>
    intro s hfuel
    rw [runRoused]
    split
    · next hempty => exact ⟨0, .rest (List.isEmpty_iff.mp hempty), Nat.zero_le _⟩
    · next hsome =>
      have hroused : s.roused ≠ [] := fun hnil => hsome (List.isEmpty_iff.mpr hnil)
      have hless := resume_unrest hroused
      obtain ⟨n, hchain, hfew⟩ := ih (s := s.resume.state) (by omega)
      exact ⟨n + 1, .run hroused hchain, by omega⟩

end Slim

/-! ### Every thread returns or is asleep again -/

/-- The threads that wait in the line. -/
def Queue.asleep (q : Queue) : List Thread := q.line.filterMap Node.thread?

namespace Session

open Tracked

section

variable {σ ω τ : Type} [Facilities σ ω] [Staged ω τ] [Tracked σ ω τ]

/-- After a request nobody is left who was roused, and each thread that was blocked then has
    returned or is asleep. -/
structure ThreadsRest (asleep : σ → List Thread) (s : Session σ ω) (r : Request) : Prop where
  rested : Rested (s.step r).state.signal
  returned : (s.request r).state.blocked.Perm
    ((s.step r).answer.2 ++ asleep (s.step r).state.signal)
  blocked : (s.step r).state.blocked.Perm (asleep (s.step r).state.signal)

variable {s : Session σ ω} {r : Request} {asleep : σ → List Thread} {T : List Thread}

/-- It is enough to look at the signal, once the roused threads have run. -/
theorem threadsRest_of_settle (hdistinct : (s.request r).state.blocked.Nodup)
    (hrested : Rested (Facilities.settle (s.request r).state.signal).state)
    (hblocked : (s.request r).state.blocked.Perm
      ((Facilities.settle (s.request r).state.signal).answer ++ T))
    (hasleep : T.Perm (asleep (Facilities.settle (s.request r).state.signal).state)) :
    s.ThreadsRest asleep r := by
  have hsorted := List.mergeSort_perm (Facilities.settle (s.request r).state.signal).answer
    fun a b => decide (a ≤ b)
  have hstay := filter_returned hdistinct hblocked
  refine ⟨hrested, hblocked.trans ?_, hstay.symm.trans hasleep⟩
  exact (hsorted.symm.append_right T).trans (hasleep.append_left _)

end

/-! ### The signals in turn -/

/-- No thread can block in the signal that counts permits. -/
theorem request_unblocked {s : Session Spin Spin.Wait} (h : s.blocked = []) (r : Request) :
    (s.request r).state.blocked = [] := by
  cases r with
  | wait id | waitOrCancel id fired =>
    simp only [request, replace]
    split <;> exact h
  | fire id | drop id | debug id =>
    simp only [request]
    split <;> exact h
  | poll id w =>
    simp only [request, poll]
    split
    · exact h
    · exact h
    · simp only [Outcome.andThen_state]
      split <;> exact h
  | keyInfo id =>
    simp only [request, offered]
    split <;> exact h
  | _ => exact h

theorem after_unblocked (rs : List Request) : ∀ {s : Session Spin Spin.Wait}, s.blocked = [] →
    (s.after rs).blocked = [] := by
  induction rs with
  | nil =>
    intro s h
    exact h
  | cons r rs ih =>
    intro s h
    have hstep : (s.step r).state.blocked = [] := by
      have hrequest := request_unblocked h r
      simp only [step, Outcome.andThen_state, Outcome.map_state, settle, Outcome.pure_state,
        onSignal, Outcome.lift_state, hrequest, List.filter_nil]
    exact ih hstep

theorem spin_threadsRest {s : Session Spin Spin.Wait} (h : s.blocked = []) (r : Request) :
    s.ThreadsRest (fun _ => []) r := by
  have hrequest := request_unblocked h r
  apply threadsRest_of_settle (T := []) _ trivial _ (.refl _)
  · rw [hrequest]
    exact .nil
  · rw [hrequest]
    exact .refl _

/-- In the signal that hands itself over, whoever was handed it returns and the others sleep on. -/
theorem queue_threadsRest {s : Session Queue Queue.Wait} {orphans : List Nat} {age : Nat}
    (hfits : Fits orphans age s) (rested : Rested s.signal) (r : Request) :
    s.ThreadsRest Queue.asleep r := by
  have hrequest := (request_answered hfits rested trivial r).fits
  obtain ⟨_, _, _, hrested, _⟩ := LawfulSignal.settle hrequest.sound
  obtain ⟨hthreads, _⟩ := (Queue.Sound.roll hrequest.sound).dismiss
  exact threadsRest_of_settle hrequest.threads hrested hthreads (.refl _)

/-- In the signal in a single word the chain of threads that wake one another ends. -/
theorem slim_threadsRest {s : Session Slim Slim.Wait} {lost : List UInt64} (h : s.Listed lost)
    (rested : s.signal.roused = []) (r : Request) :
    s.ThreadsRest Slim.asleep r ∧ ∃ n ts, n ≤ (s.request r).state.signal.unrest ∧
      Slim.Resumes n (s.request r).state.signal ts (s.step r).state.signal ∧
      ts.Perm (s.step r).answer.2 := by
  have hrequest := request_listed h rested r
  obtain ⟨T, hT, hhouses⟩ :=
    hrequest.lists.threads.runRoused (s.request r).state.signal.unrest
  obtain ⟨n, hchain, hfew⟩ := Slim.runRoused_resumes (Nat.le_refl (s.request r).state.signal.unrest)
  constructor
  · apply threadsRest_of_settle hrequest.threads hchain.rested hT
    have hasleep := hhouses
    rw [Slim.Houses, hchain.rested, List.append_nil] at hasleep
    exact hasleep
  · refine ⟨n, _, hfew, hchain, ?_⟩
    exact (List.mergeSort_perm _ _).symm

end Session

end Conduit.Signal

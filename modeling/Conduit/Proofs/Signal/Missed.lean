/-
  Conduit/Proofs/Signal/Missed.lean
  =================================
  **What a poll in vain tells.**

  The signals differ in whom they release: the one in a single word whoever asks first,
  the others somebody whom they have chosen.  They agree on this: a wait that was polled
  in vain is polled in vain again until the signal is set, whatever polls of other waits
  come in between, and the releases that are pending then are no more than the waits that
  were not polled in vain.  So no release waits for somebody who was asked already.

  `Sweepable` lists what follows for each signal while no thread waits in it, when nobody
  but the polls of its waits touches it.
-/
import Conduit.Proofs.Signal.Runs

namespace Conduit.Signal

open Tracked Staged in
/-- What a poll in vain tells about a signal in which no thread waits. -/
class Sweepable (σ : Type) (ω τ : outParam Type) [Facilities σ ω] [Staged ω τ]
    [Tracked σ ω τ] where
  /-- The wait of this ticket was polled in vain, and it would be in vain once more. -/
  Missed (s : σ) (ticket : τ) : Prop
  missed {age : Nat} {K : List τ} {s : σ} {wait : ω} {t : τ} (w : Waker)
    (hwait : stage wait = .registered t) (h : Sound age (t :: K) [] s)
    (hvain : (AutoReset.poll w wait s).answer.1 = false) :
    Missed (AutoReset.poll w wait s).state t
  poll_keeps {age : Nat} {K : List τ} {s : σ} {wait : ω} {t t' : τ} (w : Waker)
    (hwait : stage wait = .registered t) (h : Sound age (t :: K) [] s) (hother : t' ∈ K)
    (hmissed : Missed s t') : Missed (AutoReset.poll w wait s).state t'
  drop_keeps {age : Nat} {K : List τ} {s : σ} {wait : ω} {t t' : τ}
    (hwait : stage wait = .registered t) (h : Sound age (t :: K) [] s) (hself : Missed s t)
    (hother : t' ∈ K) (hmissed : Missed s t') : Missed (AutoReset.drop wait s).state t'
  short {age : Nat} {D R : List τ} {s : σ} (h : Sound age (D ++ R) [] s) (hsome : D ≠ [])
    (hmissed : ∀ t ∈ D, Missed s t) : AutoReset.pendingReleases s ≤ R.length
  spare {age : Nat} {s : σ} (h : Sound age [] [] s) :
    (AutoReset.tryWait s).answer = decide (0 < AutoReset.pendingReleases s)
  still {age : Nat} {K : List τ} {s : σ} (h : Sound age K [] s) :
    (Facilities.settle s).state = s

namespace Counts.Path

variable {c d : Counts}

theorem nil_eq (h : Path c [] d) : d = c := by
  cases h
  rfl

theorem set_counts (h : Path c [.set] d) :
    d = ⟨min (c.pending + 1) (c.registered + 1), c.registered⟩ := by
  cases h with
  | cons head tail =>
    cases head
    exact tail.nil_eq

theorem join_counts (h : Path c [.join] d) : d = ⟨c.pending, c.registered + 1⟩ := by
  cases h with
  | cons head tail =>
    cases head
    exact tail.nil_eq

/-- Whoever takes a release leaves one less. -/
theorem take_pending (h : Path c [.take] d) : c.pending = d.pending + 1 := by
  cases h with
  | cons head tail =>
    cases head
    rw [tail.nil_eq]

/-- A wait that is resolved takes one release. -/
theorem resolve_counts (h : Path c [.resolve] d) :
    c.pending = d.pending + 1 ∧ c.registered = d.registered + 1 := by
  cases h with
  | cons head tail =>
    cases head
    rw [tail.nil_eq]
    exact ⟨rfl, rfl⟩

/-- A wait that is withdrawn takes no release with it as long as none is pending beyond the
    registered waits. -/
theorem withdraw_counts (h : Path c [.withdraw] d) :
    d.pending = min c.pending c.registered ∧ c.registered = d.registered + 1 := by
  cases h with
  | cons head tail =>
    cases head
    rw [tail.nil_eq]
    exact ⟨rfl, rfl⟩

end Counts.Path

namespace Line

variable {l : Line} {t : Nat} {D : List Nat}

/-- Whoever sleeps in a line is pending in it. -/
theorem sleeperAt_pending {w : Waker} (h : l.sleeperAt t = some w) :
    ∃ n, l.find t = some n ∧ n.mark = .pending := by
  obtain ⟨n, hfind, hsleeper⟩ := Option.bind_eq_some_iff.mp h
  refine ⟨n, hfind, ?_⟩
  by_contra hmark
  rw [Node.sleeper?_of_not_pending hmark] at hsleeper
  exact absurd hsleeper (by simp)

/-- Each of several tickets that sleep has a pending node of its own. -/
theorem sleepers_le_pending (hdistinct : D.Nodup) (h : ∀ t ∈ D, ∃ w, l.sleeperAt t = some w) :
    D.length ≤ l.countP fun n => n.mark == .pending := by
  have hsub : D ⊆ (List.filter (fun n => n.mark == .pending) l).map Node.ticket := by
    intro t ht
    obtain ⟨w, hw⟩ := h t ht
    obtain ⟨n, hfind, hmark⟩ := sleeperAt_pending hw
    refine List.mem_map.mpr ⟨n, List.mem_filter.mpr ⟨find_mem hfind, ?_⟩, find_ticket hfind⟩
    rw [hmark]
    rfl
  have hle := (List.Nodup.subperm hdistinct hsub).length_le
  rw [List.length_map] at hle
  rw [List.countP_eq_length_filter]
  exact hle

end Line

/-! ### Polls that wake nobody -/

section Quiet

variable {σ ω τ : Type} [Facilities σ ω] [Staged ω τ] [Tracked σ ω τ]
variable {s : σ} {age : Nat} {K : List τ} {T : List Thread} {wait : ω} {t t' : τ}

open Tracked Staged

/-- Whether a registered task sleeps in the signal. -/
def Sleeps (s : σ) (t : τ) : Prop := ∃ w, asleepAs s t = some w

/-- A turn that wakes nobody leaves everybody else asleep. -/
theorem Turn.sleeps {s' : σ} {effects : List Effect} {moves : List Move}
    (h : Turn s s' effects moves (some t)) (hquiet : ∀ w, .woken w ∉ effects) (hne : t' ≠ t)
    (hasleep : Sleeps s t') : Sleeps s' t' := by
  obtain ⟨w, hw⟩ := hasleep
  exact ⟨w, (h.heard t' w (fun heq => hne (Option.some.inj heq).symm) hw).resolve_right (hquiet w)⟩

variable [LawfulSignal σ ω τ]

/-- A poll in vain leaves its task asleep. -/
theorem poll_vain_sleeps (w : Waker) (hwait : stage wait = .registered t)
    (h : Sound age (t :: K) T s) (hvain : (AutoReset.poll w wait s).answer.1 = false) :
    Sleeps (AutoReset.poll w wait s).state t := by
  rcases LawfulSignal.poll_registered w hwait h with ⟨hready, _⟩ | ⟨_, _, _, _, hasleep⟩
  · exact absurd (hready.symm.trans hvain) (by simp)
  · exact ⟨w, hasleep⟩

theorem ne_of_distinct (h : Sound age (t :: K) T s) (young : Young σ age) (hother : t' ∈ K) :
    t' ≠ t := by
  intro heq
  exact (List.nodup_cons.mp (LawfulSignal.distinct h young)).1 (heq ▸ hother)

theorem poll_keeps_sleeps (w : Waker) (hwait : stage wait = .registered t)
    (h : Sound age (t :: K) T s) (young : Young σ age)
    (hquiet : ∀ w', .woken w' ∉ (AutoReset.poll w wait s).effects) (hother : t' ∈ K)
    (hasleep : Sleeps s t') : Sleeps (AutoReset.poll w wait s).state t' := by
  have hne := ne_of_distinct h young hother
  rcases LawfulSignal.poll_registered w hwait h with ⟨_, _, _, hturn⟩ | ⟨_, _, _, hturn, _⟩
  · exact hturn.sleeps hquiet hne hasleep
  · exact hturn.sleeps hquiet hne hasleep

theorem drop_keeps_sleeps (hwait : stage wait = .registered t) (h : Sound age (t :: K) T s)
    (young : Young σ age) (hquiet : ∀ w', .woken w' ∉ (AutoReset.drop wait s).effects)
    (hother : t' ∈ K) (hasleep : Sleeps s t') : Sleeps (AutoReset.drop wait s).state t' :=
  (LawfulSignal.drop_registered hwait h).2.sleeps hquiet (ne_of_distinct h young hother) hasleep

end Quiet

/-! ### The signal that hands itself over -/

namespace Queue

variable {q : Queue} {age t : Nat} {K D R : List Nat}

theorem poll_quiet (w : Waker) (t : Nat) (q : Queue) : (q.poll w (.queued t)).effects = [] := by
  simp only [poll]
  split <;> rfl

/-- A waiter in the line leaves it without a word to the others. -/
theorem drop_quiet (h : Sleeps q t) :
    (q.drop (.queued t)).effects = [.reported q.observer .waitCancelled] := by
  obtain ⟨w, hw⟩ := h
  obtain ⟨n, hfind, hmark⟩ := Line.sleeperAt_pending hw
  simp only [drop, withdraw_found hfind hmark, Outcome.andThen, if_true, Outcome.pure,
    List.append_nil]

/-- Somebody in the line means that nothing is banked, so that all that is pending was handed to
    others. -/
theorem pending_le (h : q.Sound age (D ++ R) []) (hsome : D ≠ [])
    (hmissed : ∀ t ∈ D, Sleeps q t) : q.pendingReleases ≤ R.length := by
  have hdistinct := (List.nodup_append.mp h.roll.nodup).1
  have hline := Nat.le_trans (Line.sleepers_le_pending hdistinct hmissed) List.countP_le_length
  have hlength := h.roll.length_eq
  obtain ⟨t, ht⟩ := List.exists_mem_of_ne_nil D hsome
  obtain ⟨w, hw⟩ := hmissed t ht
  obtain ⟨n, hfind, _⟩ := Line.sleeperAt_pending hw
  have hbanked := h.not_banked (Line.find_mem hfind)
  rw [List.length_append, List.length_append, List.length_nil] at hlength
  rw [pendingReleases, hbanked, Bool.toNat_false]
  omega

/-- With nobody registered a release that is pending is banked. -/
theorem tryWait_spare (h : q.Sound age [] []) :
    q.tryWait.answer = decide (0 < q.pendingReleases) := by
  have hlength := h.roll.length_eq
  simp only [List.length_append, List.length_nil] at hlength
  have hnone : q.handed.length = 0 := by omega
  show q.banked = decide (0 < q.banked.toNat + q.handed.length)
  rw [hnone]
  cases q.banked <;> rfl

theorem settle_still (h : q.Sound age K []) : q.settle.state = q := by
  have hthreads := h.roll.threads.nil_eq.symm
  have htasks : q.handed.filter (fun n => n.thread?.isNone) = q.handed := by
    rw [List.filter_eq_self]
    intro n hn
    rw [List.filterMap_eq_nil_iff.mp hthreads n (List.mem_append_right _ hn)]
    rfl
  show { q with handed := q.handed.filter fun n => n.thread?.isNone } = q
  rw [htasks]

instance : Sweepable Queue Queue.Wait Nat where
  Missed := Sleeps
  missed w hwait h hvain := poll_vain_sleeps w hwait h hvain
  poll_keeps {age K q wait t t'} w hwait h hother hmissed := by
    refine poll_keeps_sleeps w hwait h trivial (fun w' hmem => ?_) hother hmissed
    cases wait with
    | queued ticket =>
      have heffects : (AutoReset.poll w (.queued ticket) q).effects = [] := poll_quiet w ticket q
      rw [heffects] at hmem
      exact absurd hmem (by simp)
    | init => exact absurd hwait (by simp [Staged.stage])
    | done => exact absurd hwait (by simp [Staged.stage])
  drop_keeps {age K q wait t t'} hwait h hself hother hmissed := by
    refine drop_keeps_sleeps hwait h trivial (fun w' hmem => ?_) hother hmissed
    cases wait with
    | queued ticket =>
      obtain rfl : ticket = t := by simpa [Staged.stage] using hwait
      have heffects : (AutoReset.drop (.queued ticket) q).effects = _ := drop_quiet hself
      rw [heffects] at hmem
      exact absurd hmem (by simp)
    | init => exact absurd hwait (by simp [Staged.stage])
    | done => exact absurd hwait (by simp [Staged.stage])
  short h hsome hmissed := pending_le h hsome hmissed
  spare h := tryWait_spare h
  still h := settle_still h

end Queue

/-! ### The signal that counts permits -/

namespace Spin

variable {s : Spin} {age t : Nat} {D R : List Nat}

theorem poll_quiet (w : Waker) (t : Nat) (s : Spin) : (s.poll w (.queued t)).effects = [] := by
  simp only [poll, Outcome.map_effects]
  apply Outcome.loop_along (R := fun _ effects _ => effects = [])
  · intro s
    rfl
  · intro s es s' es' s'' hes hes'
    rw [hes, hes']
    rfl
  · intro s
    rw [pollPass]
    split
    · rw [Outcome.map_effects, acquireQueued]
      split <;> rfl
    · rfl

/-- A pending waiter leaves the queue without a word to the others. -/
theorem drop_quiet (h : Sleeps s t) :
    (s.drop (.queued t)).effects = [.reported s.observer .waitCancelled] := by
  obtain ⟨w, hw⟩ := h
  obtain ⟨n, hfind, hmark⟩ := Line.sleeperAt_pending hw
  simp [drop, withdraw, hfind, Node.cancel?, hmark]

theorem pending_add_notified_le (l : Line) :
    (l.countP fun n => n.mark == .pending) + notified l ≤ l.length := by
  induction l with
  | nil => exact Nat.le_refl 0
  | cons n l ih =>
    rw [notified] at ih ⊢
    cases hmark : n.mark <;> simp [hmark] <;> omega

/-- A pending waiter means that every permit has a notified waiter of its own. -/
theorem permits_le (h : s.Sound age (D ++ R) []) (hsome : D ≠ [])
    (hmissed : ∀ t ∈ D, Sleeps s t) : s.pendingReleases ≤ R.length := by
  obtain ⟨p, hp⟩ := h
  have hdistinct := (List.nodup_append.mp hp.roll.nodup).1
  have hpending := Line.sleepers_le_pending hdistinct hmissed
  have hboth := pending_add_notified_le s.queue
  have hlength := hp.roll.length_eq
  have henough := hp.enough
  have hpos := List.length_pos_iff.mpr hsome
  rw [List.length_append, List.length_nil] at hlength
  rw [pendingReleases, hp.counters.permits_toNat]
  omega

theorem tryWait_spare {K : List Nat} {T : List Thread} (h : s.Sound age K T) :
    s.tryWait.answer = decide (0 < s.pendingReleases) := by
  obtain ⟨p, hp⟩ := h
  rw [pendingReleases, hp.counters.permits_toNat]
  rcases tryWait_cases hp with ⟨rfl, hcase⟩ | ⟨q, rfl, c, _, hcase⟩
  · rw [hcase]
    rfl
  · rw [hcase]
    exact (decide_eq_true (Nat.succ_pos q)).symm

instance : Sweepable Spin Spin.Wait Nat where
  Missed := Sleeps
  missed w hwait h hvain := poll_vain_sleeps w hwait h hvain
  poll_keeps {age K s wait t t'} w hwait h hother hmissed := by
    refine poll_keeps_sleeps w hwait h trivial (fun w' hmem => ?_) hother hmissed
    cases wait with
    | queued ticket =>
      have heffects : (AutoReset.poll w (.queued ticket) s).effects = [] := poll_quiet w ticket s
      rw [heffects] at hmem
      exact absurd hmem (by simp)
    | init => exact absurd hwait (by simp [Staged.stage])
    | done => exact absurd hwait (by simp [Staged.stage])
  drop_keeps {age K s wait t t'} hwait h hself hother hmissed := by
    refine drop_keeps_sleeps hwait h trivial (fun w' hmem => ?_) hother hmissed
    cases wait with
    | queued ticket =>
      obtain rfl : ticket = t := by simpa [Staged.stage] using hwait
      have heffects : (AutoReset.drop (.queued ticket) s).effects = _ := drop_quiet hself
      rw [heffects] at hmem
      exact absurd hmem (by simp)
    | init => exact absurd hwait (by simp [Staged.stage])
    | done => exact absurd hwait (by simp [Staged.stage])
  short h hsome hmissed := permits_le h hsome hmissed
  spare h := tryWait_spare h
  still _ := rfl

end Spin

/-! ### The signal in a single word -/

namespace Slim

variable {s : Slim} {age : Nat} {K : List UInt64} {T : List Thread}

/-- A registered wait that is polled in vain finds no release pending. -/
theorem pending_of_vain {k : UInt64} (w : Waker) (h : s.Sound age (k :: K) T)
    (hvain : (s.pollWait w ⟨some k⟩).answer.1 = false) : s.pendingReleases = 0 := by
  obtain ⟨p, hp⟩ := h.stands
  cases p with
  | zero => exact hp.pending_eq
  | succ q =>
    have hready : (s.pollWait w ⟨some k⟩).answer.1 = true := by
      rw [pollWait_up w ⟨some k⟩ hp]
      rfl
    exact absurd (hready.symm.trans hvain) (by simp)

theorem tryWait_spare (h : s.Sound age K T) :
    s.tryWait.answer = decide (0 < s.pendingReleases) := by
  obtain ⟨p, hp⟩ := h.stands
  rw [tryWait_answer hp, pendingReleases, hp.pending_eq]

theorem settle_still (h : s.Sound age K []) : s.settle.state = s := by
  have hnone := h.threads.nil_eq
  rw [eq_comm, List.append_eq_nil_iff] at hnone
  rw [settle, hnone.1, hnone.2]
  rfl

instance : Sweepable Slim Slim.Wait UInt64 where
  Missed s _ := s.pendingReleases = 0
  missed {age K s wait t} w hwait h hvain := by
    rcases LawfulSignal.poll_registered w hwait h with ⟨hready, _⟩ | ⟨_, _, _, hturn, _⟩
    · exact absurd (hready.symm.trans hvain) (by simp)
    · obtain ⟨key⟩ := wait
      rcases stage_eq key with ⟨rfl, hstage⟩ | ⟨k, rfl, hstage⟩
      · exact absurd (hstage.symm.trans hwait) (by simp)
      · obtain rfl : k = t := by simpa using hstage.symm.trans hwait
        rw [← pending_of_vain w h hvain]
        exact congrArg Counts.pending hturn.counts.nil_eq
  poll_keeps {age K s wait t t'} w hwait h _ hmissed := by
    rcases LawfulSignal.poll_registered w hwait h with ⟨_, _, _, hturn⟩ | ⟨_, _, _, hturn, _⟩
    · have hsome := hturn.counts.resolve_counts.1
      exact absurd (hsome.symm.trans hmissed) (Nat.succ_ne_zero _)
    · rw [← hmissed]
      exact congrArg Counts.pending hturn.counts.nil_eq
  drop_keeps {age K s wait t t'} hwait h hself _ _ := by
    have hcounts := (LawfulSignal.drop_registered hwait h).2.counts.withdraw_counts.1
    have hnone : (countsOf s).pending = 0 := hself
    rw [hnone, Nat.zero_min] at hcounts
    exact hcounts
  short {age D R s} h hsome hmissed := by
    obtain ⟨t, ht⟩ := List.exists_mem_of_ne_nil D hsome
    have hnone : AutoReset.pendingReleases s = 0 := hmissed t ht
    rw [hnone]
    exact Nat.zero_le _
  spare h := tryWait_spare h
  still h := settle_still h

end Slim

end Conduit.Signal

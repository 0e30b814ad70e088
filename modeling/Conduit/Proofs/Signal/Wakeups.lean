/-
  Conduit/Proofs/Signal/Wakeups.lean
  ==================================
  **No release is left beside a sleeper.**

  Whoever polls hands in a waker and may sleep until that waker is called.  `watching`
  follows a run from the outside and notes for every handle the waker of its latest poll
  and whether it has been called since; it looks at requests and effects alone.

  The books of a signal know who sleeps.  What ties the two together is `Watched`: a
  registered handle sleeps in the signal under the waker that was noted for it, or the
  note says that the waker was called.  Since no signal lets everybody sleep while a
  release is pending, somebody registered has been woken then.
-/
import Conduit.Proofs.Signal.Runs
import Conduit.Proofs.Watch

namespace Conduit.Signal

open Tracked Staged

/-- How far a wait is registered. -/
def Stage.isRegistered {τ : Type} : Stage τ → Bool
  | .registered _ => true
  | _ => false

theorem Stage.isRegistered_iff {τ : Type} (stage : Stage τ) :
    stage.isRegistered = true ↔ ∃ t, stage.ticket? = some t := by
  cases stage <;> simp [isRegistered, ticket?]

theorem Stage.isRegistered_map {τ υ : Type} (f : τ → υ) (stage : Stage τ) :
    (stage.map f).isRegistered = stage.isRegistered := by
  cases stage <;> rfl

namespace Session

section Statements

variable {σ ω τ : Type} [Facilities σ ω] [Staged ω τ]

/-- Whether the wait or the key of a name is registered. -/
def isRegistered (s : Session σ ω) : Handle → Bool
  | .wait id => (s.waits.get? id).any fun held => (Staged.stage held.wait).isRegistered
  | .key id => (s.keys.get? id).any fun key => (Staged.stage key).isRegistered

/-- What is noted of a handle after a step.  A poll is noted before roused threads run. -/
def seeing (s : Session σ ω) (r : Request) (seen : Handle → Option Watch) :
    Handle → Option Watch := fun h =>
  match r.polls h with
  | some w => some (Watch.hear (s.request r).state.settle.effects ⟨w, false⟩)
  | none => (seen h).map (Watch.hear (s.step r).effects)

/-- What is noted of every handle after a run. -/
def watching (s : Session σ ω) : List Request → (Handle → Option Watch) → Handle → Option Watch
  | [], seen => seen
  | r :: rs, seen => watching (s.step r).state rs (s.seeing r seen)

/-- Whether a request puts a fresh key in the place of one that is registered. -/
def discards (s : Session σ ω) : Request → Bool
  | .newKey id => s.isRegistered (.key id)
  | _ => false

/-- No request of a run discards a registered key. -/
def Careful (s : Session σ ω) : List Request → Prop
  | [] => True
  | r :: rs => s.discards r = false ∧ Careful (s.step r).state rs

instance decidableCareful (s : Session σ ω) : (rs : List Request) → Decidable (s.Careful rs)
  | [] => inferInstanceAs (Decidable True)
  | r :: rs =>
    have := decidableCareful (s.step r).state rs
    inferInstanceAs (Decidable (_ ∧ _))

/-- Whether the handle is registered, and the waker of its latest poll was called since. -/
def Awaited (s : Session σ ω) (seen : Handle → Option Watch) (h : Handle) : Prop :=
  s.isRegistered h = true ∧ ∃ x, seen h = some x ∧ x.woken = true

/-- No release is forgotten at the end of a run: while one is pending and somebody is registered,
    a registered handle was woken since its latest poll; so where only threads are registered
    there is none, and where no registered handle is left woken nobody is left beside one. -/
structure NobodyForgotten (s : Session σ ω) (rs : List Request) : Prop where
  noted : ∀ h, (s.after rs).isRegistered h = true →
    ∃ x, s.watching rs (fun _ => none) h = some x
  woken : 0 < AutoReset.pendingReleases (s.after rs).signal →
    0 < AutoReset.registeredWaits (s.after rs).signal →
    ∃ h, (s.after rs).Awaited (s.watching rs fun _ => none) h
  threads : (∀ h, (s.after rs).isRegistered h = false) →
    0 < AutoReset.registeredWaits (s.after rs).signal →
    AutoReset.pendingReleases (s.after rs).signal = 0
  settled : (∀ h, ¬ (s.after rs).Awaited (s.watching rs fun _ => none) h) →
    min (AutoReset.pendingReleases (s.after rs).signal)
      (AutoReset.registeredWaits (s.after rs).signal) = 0

end Statements

variable {σ ω τ : Type} [Facilities σ ω] [Staged ω τ] [Tracked σ ω τ]
variable {s : Session σ ω} {orphans : List τ} {age : Nat} {seen : Handle → Option Watch}

/-- Every registered handle is noted, and sleeps under the waker noted for it or has heard it. -/
def Watched (s : Session σ ω) (seen : Handle → Option Watch) : Prop :=
  ∀ h t, s.ticket? h = some t → ∃ x, seen h = some x ∧
    (x.woken = true ∨ asleepAs s.signal t = some x.waker)

/-- Whoever slept under a noted waker sleeps on, or the note has heard it. -/
theorem hear_or_asleep {s s' : σ} {effects : List Effect} {t : τ} {x : Watch}
    (hx : x.woken = true ∨ asleepAs s t = some x.waker)
    (hheard : ∀ w, asleepAs s t = some w → asleepAs s' t = some w ∨ .woken w ∈ effects) :
    (x.hear effects).woken = true ∨ asleepAs s' t = some (x.hear effects).waker := by
  rcases hx with hwoken | hasleep
  · exact Or.inl (Watch.hear_of_woken hwoken effects)
  · rcases hheard _ hasleep with hstill | hmem
    · exact Or.inr hstill
    · exact Or.inl (Watch.hear_of_mem hmem)

variable [LawfulSignal σ ω τ]

/-- A step notes everybody who is registered after it. -/
theorem step_watched (hfits : Fits orphans age s) (rested : Rested s.signal)
    (sparse : Sparse s.signal) (young : Young σ (age + 1)) (hwatched : s.Watched seen)
    (r : Request) : (s.step r).state.Watched (s.seeing r seen) := by
  have hanswered := request_answered hfits rested sparse r
  obtain ⟨_, _, hticket, hturn⟩ := settle_fits hanswered.fits
  intro h t ht
  have ht' : (s.request r).state.ticket? h = some t := (hticket h).symm.trans ht
  have hsettle : ∀ w, asleepAs (s.request r).state.signal t = some w →
      asleepAs (s.step r).state.signal t = some w ∨
        .woken w ∈ (s.request r).state.settle.effects := fun w => hturn.heard t w (by simp)
  rcases hanswered.attended young h t ht' with ⟨w, hpolls, hasleep⟩ | ⟨hpolls, hold, hheard⟩
  · refine ⟨Watch.hear (s.request r).state.settle.effects ⟨w, false⟩, ?_, ?_⟩
    · simp only [seeing, hpolls]
    · exact hear_or_asleep (x := ⟨w, false⟩) (Or.inr hasleep) hsettle
  · obtain ⟨x, hx, hstate⟩ := hwatched h t hold
    refine ⟨x.hear (s.step r).effects, ?_, ?_⟩
    · simp only [seeing, hpolls, hx, Option.map_some]
    · rw [step_effects, Watch.hear_append]
      exact hear_or_asleep (hear_or_asleep hstate hheard) hsettle

/-- A registered handle has a ticket, and conversely. -/
theorem isRegistered_iff (hfits : Fits orphans age s) (h : Handle) :
    s.isRegistered h = true ↔ ∃ t, s.ticket? h = some t := by
  cases h with
  | wait id =>
    simp only [isRegistered, ticket?]
    cases s.waits.get? id with
    | none => simp
    | some held => simpa [heldTicket?] using Stage.isRegistered_iff _
  | key id =>
    simp only [isRegistered, ticket?]
    cases hget : s.keys.get? id with
    | none => simp
    | some key =>
      obtain ⟨_, _, f, hf⟩ := key_offered hfits hget
      rw [Option.any_some, Option.bind_some, keyTicket?, ← Stage.isRegistered_iff, hf,
        Stage.isRegistered_map]

/-- Without a discarded key there is no orphan. -/
theorem orphaned_of_careful (hfits : Fits orphans age s) {r : Request}
    (hcareful : s.discards r = false) : s.orphaned r = [] := by
  cases r with
  | newKey id =>
    have hnone : s.ticket? (.key id) = none := by
      cases hticket : s.ticket? (.key id) with
      | none => rfl
      | some t =>
        have hregistered := (isRegistered_iff hfits (.key id)).mpr ⟨t, hticket⟩
        exact absurd (hregistered.symm.trans hcareful) (by simp)
    simp only [orphaned, hnone, Option.toList_none]
  | _ => rfl

/-- A careful run leaves no orphans, and everybody who is registered is noted. -/
theorem after_watched {rs : List Request} (hfits : Fits [] age s) (rested : Rested s.signal)
    (hroom : s.Roomy rs) (hcareful : s.Careful rs) (young : Young σ (age + rs.length))
    (hwatched : s.Watched seen) :
    Fits [] (age + rs.length) (s.after rs) ∧ Rested (s.after rs).signal ∧
      (s.after rs).Watched (s.watching rs seen) := by
  induction rs generalizing s age seen with
  | nil => exact ⟨hfits, rested, hwatched⟩
  | cons r rs ih =>
    rw [List.length_cons, ← Nat.add_assoc, Nat.add_right_comm] at young ⊢
    obtain ⟨hfits', hrested', _⟩ := step_fits hfits rested hroom.1 r
    rw [orphaned_of_careful hfits hcareful.1, List.nil_append] at hfits'
    have hyoung : Young σ (age + 1) := LawfulSignal.young_of_le (Nat.le_add_right _ _) young
    exact ih hfits' hrested' hroom.2 hcareful.2 young
      (step_watched hfits rested hroom.1 hyoung hwatched r)

theorem nobody_forgotten (observer : Observer) {rs : List Request}
    (hroom : (Session.new observer : Session σ ω).Roomy rs)
    (hcareful : (Session.new observer : Session σ ω).Careful rs) (young : Young σ rs.length) :
    (Session.new observer : Session σ ω).NobodyForgotten rs := by
  have hnobody : (Session.new observer : Session σ ω).Watched fun _ => none := by
    intro h t ht
    cases h <;> exact absurd ht (by simp [ticket?, Session.new, Named.get?])
  rw [← Nat.zero_add rs.length] at young
  obtain ⟨hfits, hrested, hwatched⟩ :=
    after_watched (new_fits observer) (LawfulSignal.new_rested observer) hroom hcareful young
      hnobody
  have hwoken : 0 < AutoReset.pendingReleases
        ((Session.new observer : Session σ ω).after rs).signal →
      0 < AutoReset.registeredWaits ((Session.new observer : Session σ ω).after rs).signal →
      ∃ h, ((Session.new observer : Session σ ω).after rs).Awaited
        ((Session.new observer : Session σ ω).watching rs fun _ => none) h := by
    intro hpending hregistered
    obtain ⟨t, ht, hawake⟩ := LawfulSignal.awake hfits.sound young hrested hpending hregistered
    rw [List.append_nil] at ht
    obtain ⟨h, hticket⟩ := exists_handle hfits ht
    obtain ⟨x, hx, hstate⟩ := hwatched h t hticket
    refine ⟨h, (isRegistered_iff hfits h).mpr ⟨t, hticket⟩, x, hx, ?_⟩
    refine hstate.resolve_right fun hasleep => ?_
    rw [hawake] at hasleep
    exact absurd hasleep (by simp)
  refine ⟨fun h hregistered => ?_, hwoken, fun hnone hregistered => ?_, fun hnone => ?_⟩
  · obtain ⟨t, ht⟩ := (isRegistered_iff hfits h).mp hregistered
    obtain ⟨x, hx, _⟩ := hwatched h t ht
    exact ⟨x, hx⟩
  · by_contra hpending
    obtain ⟨h, hregistered', _⟩ := hwoken (Nat.pos_of_ne_zero hpending) hregistered
    exact absurd (hregistered'.symm.trans (hnone h)) (by simp)
  · by_contra hmin
    obtain ⟨h, hawaited⟩ := hwoken (by omega) (by omega)
    exact hnone h hawaited

/-- No signal forgets a release, in any run that discards no registered key: a queue never, the
    others as long as fewer than 2^31 waits are registered at once, and the signal in a single
    word as long as its 64-bit keys have not come round. -/
theorem no_release_forgotten (observer : Observer) (rs : List Request) :
    ((Session.new observer : Session Queue Queue.Wait).Careful rs →
      (Session.new observer : Session Queue Queue.Wait).NobodyForgotten rs) ∧
    ((Session.new observer : Session Spin Spin.Wait).Uncrowded rs →
      (Session.new observer : Session Spin Spin.Wait).Careful rs →
      (Session.new observer : Session Spin Spin.Wait).NobodyForgotten rs) ∧
    ((Session.new observer : Session Slim Slim.Wait).Uncrowded rs →
      (Session.new observer : Session Slim Slim.Wait).Careful rs → rs.length < UInt64.size →
      (Session.new observer : Session Slim Slim.Wait).NobodyForgotten rs) := by
  refine ⟨fun hcareful => ?_, fun hfew hcareful => ?_, fun hfew hcareful hshort => ?_⟩
  · exact nobody_forgotten observer (roomy_of_sparse (fun _ => trivial) _ _) hcareful trivial
  · exact nobody_forgotten observer hfew.roomy hcareful trivial
  · exact nobody_forgotten observer hfew.roomy hcareful hshort

/-- Two tasks, one of them woken and dropped, beside a thread. -/
theorem no_release_forgotten_forwarded :
    (Session.new .quiet : Session Queue Queue.Wait).NobodyForgotten
        [.wait "a", .poll "a" 1, .wait "b", .poll "b" 2, .set, .drop "a"] ∧
    (Session.new .quiet : Session Spin Spin.Wait).NobodyForgotten
        [.wait "a", .poll "a" 1, .wait "b", .poll "b" 2, .set, .drop "a"] ∧
    (Session.new .quiet : Session Slim Slim.Wait).NobodyForgotten
        [.wait "a", .poll "a" 1, .newKey "k", .pollKey "k" 2, .block "t", .set, .drop "a"] := by
  refine ⟨?_, ?_, ?_⟩
  · exact (no_release_forgotten .quiet _).1 (by decide)
  · exact (no_release_forgotten .quiet _).2.1 (by decide) (by decide)
  · exact (no_release_forgotten .quiet _).2.2 (by decide) (by decide) (by decide)

end Session

end Conduit.Signal

/-
  Conduit/Proofs/Lease/Awaiting.lean
  ==================================
  **The task that awaits a lease is woken when there is an outcome, and never otherwise.**

  A future that is held is left pending by its polls until its lease has an outcome, and
  finds the outcome from then on.  The event that gives the lease its outcome wakes the
  task of the latest poll, once, if the future is still held then.  No other event wakes
  anybody for the lease: neither one that comes before, nor one that comes after, nor one
  of another lease of the slot.
-/
import Conduit.Proofs.Lease.Abandonment

namespace Conduit.Lease

section

variable {α κ : Type} {deferred : Bool} {p p' : Phase α κ} {a share : Account α κ}

/-- The future is held while the lease lasts and it has neither left a continuation nor gone. -/
theorem Fits.held_iff (h : Fits deferred p a) (turn : Nat) :
    turn ∈ p.futures turn ↔ a.signed = 1 ∧ a.registered = [] ∧ a.released = 0 := by
  cases h with
  | _ => simp [Phase.futures, Account.blank]

theorem Closed.released_eq (h : Closed a) : a.released = 1 := by
  cases h with
  | _ => rfl

theorem Fits.unwoken (h : Fits deferred p a) (hnone : a.accepted = []) : a.woken = [] := by
  cases h with
  | idle | pending | expecting | detached => rfl
  | _ => cases hnone

/-- A move wakes the task of the latest poll if it settles a lease of which the future is held, and
    otherwise nobody. -/
theorem Fits.woken_eq (h : Fits deferred p a) (hmove : Move deferred p share p') (turn : Nat) :
    share.woken
      = if turn ∈ p.futures turn ∧ share.accepted ≠ [] then a.polled.getLast?.toList else [] := by
  cases hmove with
  | settle w v =>
    cases h with
    | pending ws => simp [Phase.futures]
  | _ => simp [Phase.futures, Account.blank]

/-- The outcome waits for a future that is held. -/
theorem Move.settles_held (hmove : Move deferred p share p') {turn : Nat}
    (hheld : turn ∈ p.futures turn) (hsome : share.accepted ≠ []) :
    share.recycled = 0 ∧ ∃ v, p' = .ready v := by
  cases hmove with
  | settle w v => exact ⟨rfl, v, rfl⟩
  | _ => simp_all [Phase.futures, Account.blank]

end

namespace Tenancy

variable {α κ : Type} {t : Tenancy α κ} {p : Phase α κ} {es : List (Entry α κ)}

/-! ### The future -/

theorem Kept.held_iff (h : t.Kept es p) (lease : Nat) :
    lease ∈ t.futures ↔ (account lease es).signed = 1 ∧ (account lease es).registered = [] ∧
      (account lease es).released = 0 := by
  rw [h.stands.books.futures]
  have hown : ∀ lease, lease ∈ p.futures t.turn → lease = t.turn := by
    intro lease hmem
    cases p with
    | pending w | ready v => exact List.mem_singleton.mp hmem
    | _ => cases hmem
  rcases h.account_cases lease with ⟨hlt, hclosed⟩ | ⟨rfl, hfits⟩ | ⟨hgt, hblank⟩
  · have hreleased := hclosed.released_eq
    constructor
    · intro hmem
      exact absurd (hown lease hmem) (Nat.ne_of_lt hlt)
    · rintro ⟨_, _, hnone⟩
      omega
  · exact hfits.held_iff t.turn
  · constructor
    · intro hmem
      exact absurd (hown lease hmem) (Nat.ne_of_gt hgt)
    · rintro ⟨hsigned, _⟩
      rw [hblank] at hsigned
      cases hsigned

/-- The polls of a future that is held are left pending until there is an outcome. -/
theorem Kept.poll_waits (h : t.Kept es p) {lease : Nat} (hheld : lease ∈ t.futures)
    (hopen : t.isResolved lease = false) (w : Waker) :
    (t.step (.act lease (.poll w))).answer.answer = .pending := by
  rcases h.stands.future_cases lease with hnone | ⟨rfl, _, _, ⟨w', rfl⟩ | ⟨v, rfl⟩⟩
  · exact absurd hheld hnone
  · obtain ⟨s', hout, _⟩ := Slot.poll_pending h.stands.slot w
    rw [Tenancy.step, step_future hheld, hout]
    rfl
  · have hresolved : t.isResolved t.turn = true := by
      rw [h.isResolved_iff, h.present.accepted_ready]
      exact List.cons_ne_nil _ _
    rw [hopen] at hresolved
    cases hresolved

/-- A poll is left pending only if there is no outcome. -/
theorem Kept.unresolved_of_pending (h : t.Kept es p) {lease : Nat} {w : Waker}
    (hpending : (t.step (.act lease (.poll w))).answer.answer = .pending) :
    t.isResolved lease = false := by
  by_cases hheld : lease ∈ t.futures
  · rw [Bool.eq_false_iff]
    intro hresolved
    obtain ⟨v, _, hpoll⟩ := h.poll_ready hheld hresolved
    rw [hpoll] at hpending
    cases hpending
  · rw [Tenancy.step, step_no_future hheld] at hpending
    cases hpending

/-! ### Waking -/

/-- Whether an event gives its lease an outcome. -/
theorem Kept.resolves_iff (h : t.Kept es p) {e : Event α κ} (htime : t.InTime e) :
    (t.isResolved (t.entry e).lease = false ∧
        (t.step e).state.isResolved (t.entry e).lease = true) ↔
      (t.entry e).share.accepted ≠ [] := by
  obtain ⟨p', h'⟩ := h.step htime
  have hlease : account (t.entry e).lease (es ++ [t.entry e])
      = (account (t.entry e).lease es).add (t.entry e).share := by
    rw [account_concat, if_pos rfl]
  rw [h'.isResolved_iff, hlease, Account.add]
  constructor
  · rintro ⟨hopen, hsome⟩
    rw [h.accepted_of_unresolved hopen, List.nil_append] at hsome
    exact hsome
  · intro hsome
    have hle := h'.accepted_le (t.entry e).lease
    have hpos := List.length_pos_iff.mpr hsome
    rw [hlease, Account.add, List.length_append] at hle
    refine ⟨?_, fun hnone => hsome (List.append_eq_nil_iff.mp hnone).2⟩
    rw [Bool.eq_false_iff, Ne, h.isResolved_iff, ← List.length_pos_iff]
    omega

theorem wakes_eq (t : Tenancy α κ) (e : Event α κ) :
    Effect.wakes (t.step e).effects = (t.entry e).share.woken := by
  rw [← entry_effects]
  rfl

/-- **An event wakes the task of its lease's latest poll if it gives the lease an outcome while the
    future is held**, and otherwise nobody. -/
theorem Kept.wakes_step (h : t.Kept es p) {e : Event α κ} (htime : t.InTime e) :
    Effect.wakes (t.step e).effects
      = if (t.entry e).lease ∈ t.futures ∧ t.isResolved (t.entry e).lease = false ∧
            (t.step e).state.isResolved (t.entry e).lease = true
        then (account (t.entry e).lease es).polled.getLast?.toList else [] := by
  obtain ⟨p', hadvances⟩ := step_advances h.stands htime
  simp only [wakes_eq, h.resolves_iff htime, h.stands.books.futures]
  by_cases hlease : (t.entry e).lease = t.turn
  · rw [hlease]
    exact h.present.woken_eq (hadvances.present hlease) t.turn
  · obtain ⟨_, vs, hshare, _⟩ := hadvances.bygone hlease
    rw [hshare, if_neg]
    rintro ⟨_, hsome⟩
    exact hsome rfl

/-- A future that is held when its lease gets an outcome finds it with the next poll. -/
theorem Kept.next_ready (h : t.Kept es p) {lease : Nat} {e : Event α κ} (htime : t.InTime e)
    (hheld : lease ∈ t.futures) (hopen : t.isResolved lease = false)
    (hresolved : (t.step e).state.isResolved lease = true) :
    ∃ v, ∀ w, ((t.step e).state.step (.act lease (.poll w))).answer.answer = .verdict v := by
  obtain ⟨p', hadvances⟩ := step_advances h.stands htime
  obtain ⟨hlease, _⟩ := (h.resolving htime hopen).mp hresolved
  have hturn : lease = t.turn := by
    rcases h.stands.future_cases lease with hnone | ⟨heq, _⟩
    · exact absurd hheld hnone
    · exact heq
  subst hturn
  have hsome : (t.entry e).share.accepted ≠ [] := by
    apply (h.resolves_iff htime).mp
    rw [hlease]
    exact ⟨hopen, hresolved⟩
  have hmine : t.turn ∈ p.futures t.turn := h.stands.books.futures ▸ hheld
  obtain ⟨hlasts, v, rfl⟩ := (hadvances.present hlease).settles_held hmine hsome
  have hstill : t.turn ∈ (t.step e).state.futures := by
    rw [hadvances.stands.books.futures, hadvances.turn, hlasts]
    exact List.mem_singleton.mpr rfl
  obtain ⟨v, _, hpoll⟩ := (h.step_present hadvances hlease).poll_ready hstill hresolved
  exact ⟨v, hpoll⟩

/-- Nobody is woken for a lease that has no outcome yet. -/
theorem Kept.unwoken (h : t.Kept es p) {lease : Nat} (hopen : t.isResolved lease = false) :
    (account lease es).woken = [] := by
  have hnone := h.accepted_of_unresolved hopen
  rcases h.account_cases lease with ⟨_, hclosed⟩ | ⟨_, hfits⟩ | ⟨_, hblank⟩
  · exact absurd hnone hclosed.done.1
  · exact hfits.unwoken hnone
  · rw [hblank]
    rfl

theorem Kept.stays_resolved (h : t.Kept es p) {lease : Nat} {e : Event α κ} (htime : t.InTime e)
    (hresolved : t.isResolved lease = true) : (t.step e).state.isResolved lease = true := by
  obtain ⟨p', h'⟩ := h.step htime
  rw [h.isResolved_iff] at hresolved
  rw [h'.isResolved_iff, account_concat]
  split
  · exact fun hnone => hresolved (List.append_eq_nil_iff.mp hnone).1
  · exact hresolved

/-- Nobody is woken for a lease that has its outcome. -/
theorem Kept.woken_after {fs : List (Event α κ)} (h : t.Kept es p) {lease : Nat}
    (hresolved : t.isResolved lease = true) (htimely : t.Timely fs) :
    (account lease (t.log fs)).woken = [] := by
  induction fs generalizing t es p with
  | nil => rfl
  | cons e fs ih =>
    obtain ⟨p', h'⟩ := h.step htimely.1
    have hrest := ih h' (h.stays_resolved htimely.1 hresolved) htimely.2
    rw [log, account]
    split
    · next hlease =>
      have hwakes := h.wakes_step htimely.1
      rw [hlease, hresolved, wakes_eq] at hwakes
      rw [Account.add, hwakes, hrest]
      simp
    · exact hrest

/-- A lease of which the slot stands in `t` and the log is `es` wakes whoever awaits it, exactly.
    Its polls are left pending while there is no outcome, and find it once there is one.  An event
    of the lease wakes the task of the latest poll that was left pending, once, if it gives the
    lease its outcome while the future is held, which the next poll then finds; any other wakes
    nobody.  So nobody is woken before there is an outcome, nor ever after; and events of other
    leases wake tasks of those leases only. -/
structure WokenExactly (t : Tenancy α κ) (lease : Nat) (es : List (Entry α κ)) : Prop where
  held : lease ∈ t.futures ↔ (account lease es).signed = 1 ∧ (account lease es).registered = [] ∧
    (account lease es).released = 0
  pending : ∀ w, (t.step (.act lease (.poll w))).answer.answer = .pending →
    t.isResolved lease = false
  waits : lease ∈ t.futures → t.isResolved lease = false →
    ∀ w, (t.step (.act lease (.poll w))).answer.answer = .pending
  ready : lease ∈ t.futures → t.isResolved lease = true → ∃ v, (account lease es).accepted = [v] ∧
    ∀ w, (t.step (.act lease (.poll w))).answer.answer = .verdict v
  woken : ∀ e, t.InTime e → (t.entry e).lease = lease →
    Effect.wakes (t.step e).effects
      = if lease ∈ t.futures ∧ t.isResolved lease = false ∧
            (t.step e).state.isResolved lease = true
        then (account lease es).polled.getLast?.toList else []
  next : ∀ e, t.InTime e → lease ∈ t.futures → t.isResolved lease = false →
    (t.step e).state.isResolved lease = true →
      ∃ v, ∀ w, ((t.step e).state.step (.act lease (.poll w))).answer.answer = .verdict v
  before : t.isResolved lease = false → (account lease es).woken = []
  afterwards : t.isResolved lease = true → ∀ later, t.Timely later →
    (account lease (t.log later)).woken = []
  foreign : ∀ e, t.InTime e → (t.entry e).lease ≠ lease →
    ∀ w ∈ Effect.wakes (t.step e).effects, w ∈ (account (t.entry e).lease es).polled

theorem Kept.wokenExactly (h : t.Kept es p) (lease : Nat) : t.WokenExactly lease es where
  held := h.held_iff lease
  pending _ hpending := h.unresolved_of_pending hpending
  waits hheld hopen := h.poll_waits hheld hopen
  ready hheld hresolved := h.poll_ready hheld hresolved
  woken e htime hlease := by
    subst hlease
    exact h.wakes_step htime
  next _ htime hheld hopen hresolved := h.next_ready htime hheld hopen hresolved
  before hopen := h.unwoken hopen
  afterwards hresolved _ htimely := h.woken_after hresolved htimely
  foreign e htime _ w hw := by
    rw [h.wakes_step htime] at hw
    split at hw
    · exact List.mem_of_getLast? (Option.mem_toList.mp hw)
    · cases hw

/-- **The task that awaits a lease is woken exactly when it should be.** -/
theorem woken_exactly (home : Home) (deferred : Bool) (observer : Observer)
    (events : List (Event α κ)) (htimely : (new home deferred observer).Timely events)
    (lease : Nat) :
    WokenExactly ((new home deferred observer).after events) lease
      ((new home deferred observer).log events) := by
  obtain ⟨p, h⟩ := after_kept home deferred observer htimely
  exact h.wokenExactly lease

/-- Two tasks poll a future, and the one that came last is woken.  In the next lease a
    continuation takes the place of the task, and in the one after that the future goes away. -/
def attended : List (Event Nat String) :=
  [.lease, .act 0 (.poll 3), .act 0 (.poll 5), .act 0 (.complete (.ok 7)), .act 0 (.poll 3),
    .lease, .act 1 (.poll 3), .act 1 (.register "note"), .act 1 .drop, .act 1 .finish,
    .lease, .act 2 (.poll 5), .act 2 .detach, .act 2 (.complete (.ok 8))]

theorem woken_exactly_attended :
    (new .nowhere false .quiet).Timely attended ∧
      (∀ lease, WokenExactly ((new .nowhere false .quiet).after attended) lease
        ((new .nowhere false .quiet).log attended)) ∧
      [0, 1, 2].map (fun lease =>
        (account lease ((new .nowhere false .quiet).log attended)).woken) = [[5], [], []] :=
  have htimely := timely_of_length_le (by decide)
  ⟨htimely, woken_exactly .nowhere false .quiet attended htimely, by rfl⟩

end Tenancy

end Conduit.Lease

/-
  Conduit/Proofs/Lease/Resolution.lean
  ====================================
  **One outcome, one consumer, one recycling.**

  Every lease in a timely history of a slot has one outcome at most, the first that was
  offered; whatever is offered later comes back to whoever offered it.  The outcome
  reaches at most one consumer, and a continuation that was left for it runs once.  When
  the lease has an outcome and its consumer is done, and not before, the slot is
  recycled, by the event that came last; until then the slot cannot be leased again.
-/
import Conduit.Proofs.Lease.Accounts

namespace Conduit.Lease

/-- The continuations of a lease that wait with the spawner. -/
def Books.queued {α κ : Type} (b : Books α κ) (lease : Nat) : List (κ × Verdict α) :=
  (b.waiting.filter fun j => j.lease = lease).map fun j => (j.continuation, j.verdict)

/-- Whether a lease has an outcome and its consumer is done. -/
def Account.Done {α κ : Type} (a : Account α κ) : Prop := a.accepted ≠ [] ∧ 0 < a.released

/-- One outcome: it is the first that was offered, it is handed on at most once, and a continuation
    that was left for it runs, and runs once, unless it was thrown away unrun or still waits with
    the spawner. -/
structure Account.Single {α κ : Type} (a : Account α κ) (queued : List (κ × Verdict α)) :
    Prop where
  accepted : a.accepted = a.attempts.take 1
  delivered : a.delivered <+: a.accepted
  registered : a.registered.length ≤ 1
  runs_delivered : (a.runs.map Prod.snd).Sublist a.delivered
  runs_of : ∀ j ∈ a.runs, j.1 ∈ a.registered ∧ j.2 ∈ a.accepted
  runs : ∀ k ∈ a.registered, ∀ v ∈ a.accepted, a.discarded = 0 → a.runs ++ queued = [(k, v)]

/-- A slot as it comes out of recycling: of the given generation, with nobody counted, no flag set
    and nothing in its cells. -/
structure Slot.IsFresh {α κ : Type} (s : Slot α κ) (generation : UInt32) : Prop where
  generation : s.generation = generation
  completers : s.word.completers = 0
  flags : ∀ f, s.word.has f = false
  value : s.value = none
  continuation : s.continuation = none
  waker : s.waker = none

section

variable {α κ : Type} {deferred : Bool} {p p' : Phase α κ} {a share : Account α κ}

theorem Slot.Stands.isFresh {s : Slot α κ} {g : UInt32} {n : Nat} (h : s.Stands g n .idle) :
    s.IsFresh g where
  generation := h.generation_eq
  completers := h.word.completers_eq.trans h.counted
  flags f := by
    rw [h.word.has_eq]
    cases f <;> rfl
  value := h.value
  continuation := h.continuation
  waker := h.waker

/-- The continuations that wait with the spawner in a phase. -/
def Phase.queue : Phase α κ → List (κ × Verdict α)
  | .handed (.waiting k v) => [(k, v)]
  | _ => []

theorem Account.blank_single : (Account.blank : Account α κ).Single [] :=
  ⟨rfl, List.nil_prefix, Nat.zero_le _, List.nil_sublist _, by simp [blank], by simp [blank]⟩

theorem Fits.single (h : Fits deferred p a) : a.Single p.queue := by
  cases h with
  | idle => exact Account.blank_single
  | _ => constructor <;> simp [Phase.queue]

theorem Closed.single (h : Closed a) : a.Single [] := by
  cases h with
  | _ => constructor <;> simp

theorem Fits.signed_eq (h : Fits deferred p a) (hp : p ≠ .idle) : a.signed = 1 := by
  cases h with
  | idle => exact absurd rfl hp
  | _ => rfl

theorem Fits.idle_blank (h : Fits deferred (.idle : Phase α κ) a) : a = .blank := by
  cases h
  rfl

theorem Fits.recycled_eq (h : Fits deferred p a) : a.recycled = 0 := by
  cases h with
  | _ => rfl

theorem Fits.not_done (h : Fits deferred p a) : ¬ a.Done := by
  cases h with
  | _ => simp [Account.Done, Account.blank]

theorem Closed.signed_eq (h : Closed a) : a.signed = 1 := by
  cases h with
  | _ => rfl

theorem Closed.recycled_eq (h : Closed a) : a.recycled = 1 := by
  cases h with
  | _ => rfl

theorem Closed.done (h : Closed a) : a.Done := by
  cases h with
  | _ => simp [Account.Done]

/-- An outcome was offered in the phases that are not open. -/
theorem Fits.isOpen_iff (h : Fits deferred p a) (hp : p ≠ .idle) :
    p.isOpen = true ↔ a.attempts = [] := by
  cases h with
  | idle => exact absurd rfl hp
  | _ => simp [Phase.isOpen]

theorem Closed.attempts_ne (h : Closed a) : a.attempts ≠ [] := by
  cases h with
  | _ => simp

/-- Continuations are thrown away unrun by spawners only. -/
theorem Fits.inline (h : Fits false p a) : p.queue = [] ∧ a.discarded = 0 := by
  cases h with
  | waiting _ _ _ _ hd => cases hd
  | discarded _ _ _ _ hd => cases hd
  | _ => exact ⟨rfl, rfl⟩

theorem Closed.discarded_eq (h : Closed a) : a.discarded = 0 := by
  cases h with
  | _ => rfl

theorem Move.recycled_idle (h : Move deferred p share p') (hrecycled : share.recycled ≠ 0) :
    p ≠ .idle ∧ p' = .idle := by
  cases h with
  | settleDetached | take | detachReady | finish => exact ⟨nofun, rfl⟩
  | _ => exact absurd rfl hrecycled

/-- Only the beginning and the recycling of a lease change whether the slot is idle. -/
theorem Move.idle_iff (h : Move deferred p share p') (hsigned : share.signed = 0)
    (hrecycled : share.recycled = 0) : p' = .idle ↔ p = .idle := by
  cases h with
  | stay | refuse => exact Iff.rfl
  | sign => cases hsigned
  | settleDetached | take | detachReady | finish => cases hrecycled
  | _ => exact ⟨nofun, nofun⟩

end

namespace Tenancy

variable {α κ : Type} {t : Tenancy α κ} {p p' : Phase α κ} {es : List (Entry α κ)}

/-! ### Reading the accounts -/

theorem share_recycled (t : Tenancy α κ) (e : Event α κ) :
    (t.entry e).share.recycled = (t.step e).answer.recycled.toNat := by
  cases e <;> rfl

theorem Stands.queued_eq (h : t.Stands p) (lease : Nat) :
    t.queued lease = if lease = t.turn then p.queue else [] := by
  rw [Books.queued, h.books.waiting]
  match p with
  | .handed (.waiting k v) =>
    by_cases heq : lease = t.turn
    · simp [Phase.waiting, Phase.queue, heq]
    · simp [Phase.waiting, heq, Ne.symm heq]
  | .handed (.running k v) | .handed .lost => simp [Phase.waiting, Phase.queue]
  | .idle | .pending _ | .ready _ | .expecting _ | .detached =>
    simp [Phase.waiting, Phase.queue]

theorem Kept.single (h : t.Kept es p) (lease : Nat) :
    (account lease es).Single (t.queued lease) := by
  rw [h.stands.queued_eq]
  rcases h.account_cases lease with ⟨hlt, hclosed⟩ | ⟨rfl, hfits⟩ | ⟨hgt, hblank⟩
  · rw [if_neg (Nat.ne_of_lt hlt)]
    exact hclosed.single
  · rw [if_pos rfl]
    exact hfits.single
  · rw [if_neg (Nat.ne_of_gt hgt), hblank]
    exact Account.blank_single

theorem Kept.recycled (h : t.Kept es p) (lease : Nat) :
    (account lease es).recycled ≤ 1 ∧
      ((account lease es).recycled = 1 ↔ (account lease es).Done) := by
  rcases h.account_cases lease with ⟨_, hclosed⟩ | ⟨_, hfits⟩ | ⟨_, hblank⟩
  · rw [hclosed.recycled_eq]
    exact ⟨Nat.le_refl 1, fun _ => hclosed.done, fun _ => rfl⟩
  · rw [hfits.recycled_eq]
    exact ⟨Nat.zero_le 1, fun hone => absurd hone.symm Nat.one_ne_zero,
      fun hdone => absurd hdone hfits.not_done⟩
  · rw [hblank]
    exact ⟨Nat.zero_le 1, fun hone => absurd hone.symm Nat.one_ne_zero,
      fun hdone => absurd rfl hdone.1⟩

/-! ### Completions -/

/-- A lease with completers has begun, and the one that they act for is found. -/
theorem Stands.find_live (h : t.Stands p) {lease : Nat} (hlive : 0 < t.live lease)
    (htime : t.turn < lease + 4294967296) :
    ∃ c, t.completers.find? (fun c => c.lease = lease) = some c ∧
      ((lease = t.turn ∧ p ≠ .idle ∧ c.generation = generationOf t.turn) ∨
        (lease < t.turn ∧ t.slot.generation ≠ c.generation)) := by
  rcases h.completer_cases htime with hnone | ⟨heq, hp, _, hfind⟩ | ⟨hlt, c, _, _, hne, hfind⟩
  · obtain ⟨c, hc, hlease⟩ := List.countP_pos_iff.mp hlive
    exact absurd hlease (List.find?_eq_none.mp hnone c hc)
  · exact ⟨_, hfind, Or.inl ⟨heq, hp, rfl⟩⟩
  · exact ⟨c, hfind, Or.inr ⟨hlt, hne⟩⟩

/-- An open lease accepts an outcome. -/
theorem Stands.step_accepted (h : t.Stands p) (hopen : p.isOpen = true) {c : Pass}
    (hc : c.generation = generationOf t.turn)
    (hfind : t.completers.find? (fun c => c.lease = t.turn) = some c) (v : Verdict α) :
    (t.step (.act t.turn (.complete v))).answer.answer = .accepted := by
  obtain ⟨o, ho, hout⟩ := Slot.complete_open h.slot hopen v
  have halike := Slot.complete_alike t.slot (generationOf t.turn) v
  rw [hout] at halike
  obtain ⟨_, hsettled⟩ := follow_settles h.books ho halike.deferred .accepted
  rw [step, step_completer hfind, hc, hout]
  exact hsettled.answer

/-- A lease that was offered no outcome yet accepts one. -/
theorem Kept.step_first (h : t.Kept es p) {lease : Nat} (hnone : (account lease es).attempts = [])
    (hlive : 0 < t.live lease) (v : Verdict α) :
    (t.step (.act lease (.complete v))).answer.answer = .accepted := by
  have hle : t.turn ≤ lease := by
    refine Nat.le_of_not_lt fun hlt => ?_
    exact (h.past lease hlt).attempts_ne hnone
  obtain ⟨c, hfind, ⟨rfl, hp, hc⟩ | ⟨hlt, _⟩⟩ :=
    h.stands.find_live hlive (Nat.lt_of_le_of_lt hle (Nat.lt_add_of_pos_right (by decide)))
  · exact h.stands.step_accepted ((h.present.isOpen_iff hp).mpr hnone) hc hfind v
  · exact absurd hlt (Nat.not_lt_of_le hle)

/-- A lease that was offered an outcome refuses every other. -/
theorem Kept.step_later (h : t.Kept es p) {lease : Nat} (hsome : (account lease es).attempts ≠ [])
    (hlive : 0 < t.live lease) (htime : t.turn < lease + 4294967296) (v : Verdict α) :
    t.step (.act lease (.complete v))
      = ⟨⟨.rejected ⟨v⟩, none, false⟩, t, [.reported t.slot.observer .doubleCompletion]⟩ := by
  obtain ⟨c, hfind, ⟨rfl, hp, hc⟩ | ⟨_, hne⟩⟩ := h.stands.find_live hlive htime
  · refine step_refused v hfind ?_
    rw [hc, h.stands.slot.isSettled_eq hp, Bool.not_eq_true']
    exact Bool.eq_false_iff.mpr fun hopen => hsome ((h.present.isOpen_iff hp).mp hopen)
  · exact step_refused v hfind (Slot.isSettled_of_ne hne)

theorem Stands.step_start (h : t.Stands p) {j : Due α κ} (hj : j ∈ t.waiting) :
    (t.step (.act j.lease .start)).answer.begun = some j := by
  rcases h.waiting_cases j.lease with hnone | ⟨_, k, v, rfl, hfind, _⟩
  · exact absurd (decide_eq_true rfl) (List.find?_eq_none.mp hnone j hj)
  · rw [h.books.waiting] at hj
    rw [step, step_due hfind, List.mem_singleton.mp hj]
    rfl

/-- A lease of which the slot stands in `t` and the account is `a` has one outcome: the first that
    is offered is accepted, and every other one comes back, is reported and changes nothing.
    Without a spawner no continuation ever waits; with one, those that wait can be started. -/
structure CompletedOnce (deferred : Bool) (observer : Observer) (t : Tenancy α κ) (lease : Nat)
    (a : Account α κ) : Prop where
  account : a.Single (t.queued lease)
  first : a.attempts = [] → 0 < t.live lease → ∀ v,
    (t.step (.act lease (.complete v))).answer.answer = .accepted
  later : a.attempts ≠ [] → 0 < t.live lease → t.turn < lease + 4294967296 → ∀ v,
    t.step (.act lease (.complete v))
      = ⟨⟨.rejected ⟨v⟩, none, false⟩, t, [.reported observer .doubleCompletion]⟩
  inline : deferred = false → t.queued lease = [] ∧ a.discarded = 0
  start : ∀ j ∈ t.waiting, (t.step (.act j.lease .start)).answer.begun = some j

theorem Kept.completedOnce (h : t.Kept es p) (lease : Nat) :
    CompletedOnce t.slot.deferred t.slot.observer t lease (Lease.account lease es) where
  account := h.single lease
  first hnone hlive := h.step_first hnone hlive
  later hsome hlive htime := h.step_later hsome hlive htime
  inline hdeferred := by
    rw [h.stands.queued_eq]
    rcases h.account_cases lease with ⟨hlt, hclosed⟩ | ⟨rfl, hfits⟩ | ⟨hgt, hblank⟩
    · rw [if_neg (Nat.ne_of_lt hlt)]
      exact ⟨rfl, hclosed.discarded_eq⟩
    · rw [if_pos rfl]
      rw [hdeferred] at hfits
      exact hfits.inline
    · rw [if_neg (Nat.ne_of_gt hgt), hblank]
      exact ⟨rfl, rfl⟩
  start _ hj := h.stands.step_start hj

/-- **A lease has one outcome, and its consumer sees it once.** -/
theorem completed_once (home : Home) (deferred : Bool) (observer : Observer)
    (events : List (Event α κ)) (htimely : (new home deferred observer).Timely events)
    (lease : Nat) :
    CompletedOnce deferred observer ((new home deferred observer).after events) lease
      (account lease ((new home deferred observer).log events)) := by
  obtain ⟨p, h⟩ := after_kept home deferred observer htimely
  have halike := after_alike (new home deferred observer) events
  have honce := h.completedOnce lease
  rw [halike.deferred, halike.observer] at honce
  exact honce

/-- Two completers race, and a spawner takes the continuation.  One of them comes again while it
    runs, and the other goes away when the slot was recycled. -/
def race : List (Event Nat String) :=
  [.lease, .act 0 .clone, .act 0 (.register "note"), .act 0 (.complete (.ok 7)),
    .act 0 (.complete (.ok 8)), .act 0 .start, .act 0 (.complete (.ok 9)), .act 0 .drop,
    .act 0 .finish, .act 0 .drop]

theorem completed_once_race :
    (new .nowhere true .quiet).Timely race ∧
      CompletedOnce true .quiet ((new .nowhere true .quiet).after race) 0
        (account 0 ((new .nowhere true .quiet).log race)) ∧
      account 0 ((new .nowhere true .quiet).log race)
        = { signed := 1, attempts := [.ok 7, .ok 8, .ok 9, .error .abandoned], accepted := [.ok 7]
            delivered := [.ok 7], registered := ["note"], runs := [("note", .ok 7)]
            released := 1, recycled := 1 } :=
  have htimely := timely_of_length_le (by decide)
  ⟨htimely, completed_once .nowhere true .quiet race htimely 0, by rfl⟩

/-! ### Recycling -/

/-- An event recycles the slot of the present lease only, and while it lasts. -/
theorem Advances.recycled_idle {e : Event α κ} (h : t.Advances p e p')
    (hrecycled : (t.step e).answer.recycled = true) : p ≠ .idle ∧ p' = .idle := by
  have hshare : (t.entry e).share.recycled = 1 := by
    rw [share_recycled, hrecycled]
    rfl
  have hlease : (t.entry e).lease = t.turn := by
    refine Decidable.byContradiction fun hne => ?_
    obtain ⟨_, vs, hvs, _⟩ := h.bygone hne
    rw [hvs] at hshare
    cases hshare
  refine (h.present hlease).recycled_idle ?_
  rw [hshare]
  exact Nat.one_ne_zero

/-- An act that does not recycle the slot leaves it idle or not, as it was. -/
theorem Advances.idle_iff {lease : Nat} {a : Act α κ} (h : t.Advances p (.act lease a) p')
    (hrecycled : (t.step (.act lease a)).answer.recycled = false) : p' = .idle ↔ p = .idle := by
  by_cases hlease : (t.entry (.act lease a)).lease = t.turn
  · refine (h.present hlease).idle_iff rfl ?_
    rw [share_recycled, hrecycled]
    rfl
  · rw [(h.bygone hlease).1]

theorem Advances.fresh {e : Event α κ} (h : t.Advances p e p')
    (hrecycled : (t.step e).answer.recycled = true) :
    (t.step e).state.slot.IsFresh (generationOf t.turn + 1) := by
  obtain ⟨_, rfl⟩ := h.recycled_idle hrecycled
  have hstands := h.stands.slot
  rw [h.turn, share_recycled, hrecycled] at hstands
  rw [← generationOf_succ]
  exact hstands.isFresh

theorem Advances.generation {e : Event α κ} (h : t.Advances p e p')
    (hrecycled : (t.step e).answer.recycled = false) :
    (t.step e).state.slot.generation = generationOf t.turn := by
  rw [h.stands.slot.generation_eq, h.turn, share_recycled, hrecycled]
  rfl

/-- Whether an event recycles the slot is whether it is the last thing to be done for its lease. -/
theorem Kept.step_recycled (h : t.Kept es p) {e : Event α κ} (htime : t.InTime e) :
    (t.step e).answer.recycled = true ↔
      ¬ (account (t.entry e).lease es).Done ∧
        ((account (t.entry e).lease es).add (t.entry e).share).Done := by
  obtain ⟨p', h'⟩ := h.step htime
  obtain ⟨hle, hdone⟩ := h.recycled (t.entry e).lease
  obtain ⟨hle', hdone'⟩ := h'.recycled (t.entry e).lease
  rw [account_concat, if_pos rfl] at hle' hdone'
  have hsum : ((account (t.entry e).lease es).add (t.entry e).share).recycled
      = (account (t.entry e).lease es).recycled + (t.step e).answer.recycled.toNat := by
    rw [← share_recycled]
    rfl
  rw [← hdone, ← hdone', hsum]
  rw [hsum] at hle'
  cases hrecycled : (t.step e).answer.recycled
  · simp
  · rw [hrecycled, Bool.toNat_true] at hle'
    rw [Bool.toNat_true]
    refine iff_of_true rfl ⟨?_, ?_⟩ <;> omega

/-- A lease of which the slot stands in `t` and the account is `a` has its slot recycled once, by
    the event after which the lease has an outcome and its consumer is done.  Such an event leaves
    the slot fresh, with the next generation, and hands it to its recycler once; no other event
    hands it over or changes its generation.  While the lease lasts, the slot is not idle, and
    leasing it again is refused and changes nothing. -/
structure RecycledOnce (home : Home) (t : Tenancy α κ) (lease : Nat) (a : Account α κ) :
    Prop where
  signed : a.signed ≤ 1
  once : a.recycled ≤ 1
  done : a.recycled = 1 ↔ a.Done
  promptly : ∀ e, t.InTime e → (t.entry e).lease = lease →
    ((t.step e).answer.recycled = true ↔ ¬ a.Done ∧ (a.add (t.entry e).share).Done)
  fresh : ∀ e, t.InTime e → (t.step e).answer.recycled = true →
    (t.step e).state.slot.IsFresh (t.slot.generation + 1)
  handedOver : ∀ e n, home = .log n → (t.step e).answer.recycled = true →
    Effect.recyclings (t.step e).effects = [(n, (t.step e).state.slot.generation)]
  otherwise : ∀ e, t.InTime e → (t.step e).answer.recycled = false →
    Effect.recyclings (t.step e).effects = [] ∧
      (t.step e).state.slot.generation = t.slot.generation
  inUse : a.signed = 1 → a.recycled = 0 →
    t.slot.word.isIdle = false ∧ t.step .lease = t.reply (.panic (.slotInUse t.slot.word.debug))

theorem Kept.signed_le (h : t.Kept es p) (lease : Nat) : (account lease es).signed ≤ 1 := by
  rcases h.account_cases lease with ⟨_, hclosed⟩ | ⟨_, hfits⟩ | ⟨_, hblank⟩
  · exact Nat.le_of_eq hclosed.signed_eq
  · by_cases hp : p = .idle
    · subst hp
      rw [hfits.idle_blank]
      exact Nat.zero_le 1
    · exact Nat.le_of_eq (hfits.signed_eq hp)
  · rw [hblank]
    exact Nat.zero_le 1

/-- A lease that has begun and whose slot was not recycled is the present one, and lasts. -/
theorem Kept.lasts (h : t.Kept es p) {lease : Nat} (hsigned : (account lease es).signed = 1)
    (hrecycled : (account lease es).recycled = 0) : lease = t.turn ∧ p ≠ .idle := by
  rcases h.account_cases lease with ⟨_, hclosed⟩ | ⟨heq, hfits⟩ | ⟨_, hblank⟩
  · rw [hclosed.recycled_eq] at hrecycled
    exact absurd hrecycled Nat.one_ne_zero
  · refine ⟨heq, ?_⟩
    rintro rfl
    rw [hfits.idle_blank] at hsigned
    exact absurd hsigned.symm Nat.one_ne_zero
  · rw [hblank] at hsigned
    exact absurd hsigned.symm Nat.one_ne_zero

theorem Kept.recycledOnce (h : t.Kept es p) (lease : Nat) :
    RecycledOnce t.slot.home t lease (Lease.account lease es) where
  signed := h.signed_le lease
  once := (h.recycled lease).1
  done := (h.recycled lease).2
  promptly e htime hlease := by
    subst hlease
    exact h.step_recycled htime
  fresh e htime hrecycled := by
    obtain ⟨p', hadvances⟩ := step_advances h.stands htime
    rw [h.stands.slot.generation_eq]
    exact hadvances.fresh hrecycled
  handedOver e n hhome hrecycled := by
    have hbehaves := step_behaves t e
    rw [hbehaves.recyclings_eq, if_pos hrecycled, Slot.homecoming, hbehaves.alike.home, hhome]
    rfl
  otherwise e htime hrecycled := by
    obtain ⟨p', hadvances⟩ := step_advances h.stands htime
    have hbehaves := step_behaves t e
    refine ⟨?_, ?_⟩
    · rw [hbehaves.recyclings_eq, hrecycled]
      rfl
    · rw [hadvances.generation hrecycled, h.stands.slot.generation_eq]
  inUse hsigned hrecycled := by
    obtain ⟨_, hp⟩ := h.lasts hsigned hrecycled
    refine ⟨?_, step_lease_busy h.stands hp⟩
    exact Bool.eq_false_iff.mpr fun hidle => hp (h.stands.slot.isIdle_iff.mp hidle)

/-- **A slot is recycled once for every lease, as soon as both sides are done with it.** -/
theorem recycled_once (home : Home) (deferred : Bool) (observer : Observer)
    (events : List (Event α κ)) (htimely : (new home deferred observer).Timely events)
    (lease : Nat) :
    RecycledOnce home ((new home deferred observer).after events) lease
      (account lease ((new home deferred observer).log events)) := by
  obtain ⟨p, h⟩ := after_kept home deferred observer htimely
  have honce := h.recycledOnce lease
  rw [(after_alike (new home deferred observer) events).home] at honce
  exact honce

theorem recycled_once_race :
    (new (.log 3) true .quiet).Timely race ∧
      RecycledOnce (.log 3) ((new (.log 3) true .quiet).after race) 0
        (account 0 ((new (.log 3) true .quiet).log race)) ∧
      ((new (.log 3) true .quiet).log race).flatMap (fun e => Effect.recyclings e.effects)
        = [(3, 1)] :=
  have htimely := timely_of_length_le (by decide)
  ⟨htimely, recycled_once (.log 3) true .quiet race htimely 0, by rfl⟩

end Tenancy

end Conduit.Lease

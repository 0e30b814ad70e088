/-
  Conduit/Proofs/Lease/Isolation.lean
  ===================================
  **The leases of one slot do not touch each other.**

  A handle of an earlier lease is stale.  A history with stale handles in it, used in
  time, is compared with the same history without them: every other event is answered
  alike, has the same effects and leaves the same slot.  What stale handles are
  themselves answered does not depend on the present lease either.

  `since` is a tenancy without the completers of leases before some number.  Events that
  are not of those leases commute with it, and stale events leave it as it is.
-/
import Conduit.Proofs.Lease.Resolution

namespace Conduit.Lease

/-- What the account of a lease shows came through handles of that lease: its outcome was offered,
    and the outcome was handed on, to a continuation that had been left; whoever was woken had
    polled. -/
structure Account.Own {α κ : Type} (a : Account α κ) : Prop where
  accepted : a.accepted ⊆ a.attempts
  delivered : a.delivered ⊆ a.accepted
  runs : ∀ j ∈ a.runs, j.1 ∈ a.registered ∧ j.2 ∈ a.accepted
  woken : a.woken ⊆ a.polled

theorem Account.blank_own {α κ : Type} : (Account.blank : Account α κ).Own :=
  ⟨List.nil_subset _, List.nil_subset _, fun _ h => absurd h List.not_mem_nil, List.nil_subset _⟩

theorem Fits.own {α κ : Type} {deferred : Bool} {p : Phase α κ} {a : Account α κ}
    (h : Fits deferred p a) : a.Own := by
  cases h with
  | idle => exact Account.blank_own
  | ready ws => exact ⟨by simp, by simp, by simp, last_subset ws⟩
  | running _ _ _ _ _ hwoken => exact ⟨by simp, by simp, by simp, hwoken⟩
  | failed _ _ _ _ _ hwoken => exact ⟨by simp, by simp, by simp, hwoken⟩
  | _ => exact ⟨by simp, by simp, by simp, List.nil_subset _⟩

theorem Closed.own {α κ : Type} {a : Account α κ} (h : Closed a) : a.Own := by
  cases h with
  | taken ws => exact ⟨by simp, by simp, by simp, last_subset ws⟩
  | dropped _ _ _ _ hwoken => exact ⟨by simp, by simp, by simp, hwoken⟩
  | returned _ _ _ _ _ hwoken => exact ⟨by simp, by simp, by simp, hwoken⟩

namespace Tenancy

variable {α κ : Type}

/-- The tenancy without the completers of leases before the one of that number. -/
def since (t : Tenancy α κ) (first : Nat) : Tenancy α κ :=
  { t with completers := t.completers.filter fun c => first ≤ c.lease }

/-- A lease is over, and not so long that its generation has come round again. -/
def Stale (t : Tenancy α κ) (lease : Nat) : Prop :=
  lease < t.turn ∧ t.turn < lease + 4294967296

/-- Whether an event is of a lease that is over. -/
def isBygone (t : Tenancy α κ) : Event α κ → Bool
  | .lease => false
  | .act lease _ => lease < t.turn

/-- A history without the events of leases that were over. -/
def current (t : Tenancy α κ) : List (Event α κ) → List (Event α κ)
  | [] => []
  | e :: es =>
    if t.isBygone e then current (t.step e).state es else e :: current (t.step e).state es

/-- What is noted of the others in the whole history. -/
def observed (t : Tenancy α κ) : List (Event α κ) → List (Entry α κ)
  | [] => []
  | e :: es =>
    if t.isBygone e then observed (t.step e).state es
    else t.entry e :: observed (t.step e).state es

variable {t u : Tenancy α κ} {p : Phase α κ} {first lease : Nat}

/-! ### Events that do not mind who is left of earlier leases -/

/-- A step sees no difference. -/
def Blind (first : Nat) (use use' : Step α κ) : Prop :=
  use' = use.lift fun t => t.since first

theorem andThen_blind {β : Type} {o : Outcome β (Tenancy α κ)} {f f' : β → Tenancy α κ → Step α κ}
    (h : ∀ b, Blind first (f b o.state) (f' b (o.state.since first))) :
    Blind first (o.andThen f) ((o.lift fun t => t.since first).andThen f') := by
  have heq := h o.answer
  rw [Blind] at heq
  simp only [Blind, Outcome.andThen, Outcome.lift, heq]

theorem reply_blind (t : Tenancy α κ) (a : Answer α) :
    Blind first (t.reply a) ((t.since first).reply a) := rfl

theorem goHome_blind (t : Tenancy α κ) (a : Answer α) :
    Blind first (t.goHome a) ((t.since first).goHome a) := rfl

theorem begin_blind (t : Tenancy α κ) (a : Answer α) (j : Due α κ) :
    Blind first (t.begin a j) ((t.since first).begin a j) := rfl

theorem follow_blind (t : Tenancy α κ) (a : Answer α) (mayDefer : Bool) (next : Sequel α κ) :
    Blind first (t.follow a mayDefer next) ((t.since first).follow a mayDefer next) := by
  cases next with
  | nothing => exact reply_blind t a
  | home => exact goHome_blind t a
  | resume k v =>
    simp only [follow]
    by_cases hdefer : mayDefer ∧ t.slot.deferred
    · rw [if_pos hdefer, if_pos (show mayDefer ∧ (t.since first).slot.deferred from hdefer)]
      rfl
    · rw [if_neg hdefer, if_neg (show ¬ (mayDefer ∧ (t.since first).slot.deferred) from hdefer)]
      exact begin_blind t a _

theorem received_blind (t : Tenancy α κ) (lease : Nat) (a : Answer α) (v : Option (Verdict α)) :
    Blind first (t.received lease a v) ((t.since first).received lease a v) := by
  cases v with
  | none => exact reply_blind t a
  | some v => rfl

/-- Completers of later leases are found all the same. -/
theorem find_since (t : Tenancy α κ) (hlease : first ≤ lease) :
    (t.since first).completers.find? (fun c => c.lease = lease)
      = t.completers.find? (fun c => c.lease = lease) := by
  simp only [since, List.find?_filter]
  congr 1
  funext c
  have himp : c.lease = lease → first ≤ c.lease := fun heq => heq ▸ hlease
  simpa using himp

theorem withCompleter_blind {use use' : Pass → Step α κ} (hlease : first ≤ lease)
    (h : ∀ c, first ≤ c.lease → Blind first (use c) (use' c)) :
    Blind first (t.withCompleter lease use) ((t.since first).withCompleter lease use') := by
  rw [withCompleter, withCompleter, find_since t hlease]
  cases hfind : t.completers.find? (fun c => c.lease = lease) with
  | none => exact reply_blind t _
  | some c =>
    have heq : c.lease = lease := by simpa using List.find?_some hfind
    exact h c (heq ▸ hlease)

theorem withFuture_blind {use use' : Step α κ} (h : Blind first use use') :
    Blind first (t.withFuture lease use) ((t.since first).withFuture lease use') := by
  rw [withFuture, withFuture]
  by_cases hmem : lease ∈ t.futures
  · rw [if_pos hmem, if_pos (show lease ∈ (t.since first).futures from hmem)]
    exact h
  · rw [if_neg hmem, if_neg (show lease ∉ (t.since first).futures from hmem)]
    exact reply_blind t _

theorem withDue_blind {jobs : List (Due α κ)} {use use' : Due α κ → Step α κ}
    (h : ∀ j, Blind first (use j) (use' j)) :
    Blind first (t.withDue jobs lease use) ((t.since first).withDue jobs lease use') := by
  rw [withDue, withDue]
  split
  · exact h _
  · exact reply_blind t _

/-- A new completer of a later lease. -/
theorem since_cons (t : Tenancy α κ) {c : Pass} (hc : first ≤ c.lease) :
    since { t with completers := c :: t.completers } first
      = { t.since first with completers := c :: (t.since first).completers } := by
  simp [since, hc]

theorem since_erase (t : Tenancy α κ) (c : Pass) :
    since { t with completers := t.completers.erase c } first
      = { t.since first with completers := (t.since first).completers.erase c } := by
  simp only [since, List.erase_filter]

/-- **An event does not see who is left of leases before its own.** -/
theorem step_blind (t : Tenancy α κ) (hfirst : first ≤ t.turn) {e : Event α κ}
    (he : ∀ lease a, e = .act lease a → first ≤ lease) :
    Blind first (t.step e) ((t.since first).step e) := by
  match e with
  | .lease =>
    simp only [step]
    refine andThen_blind fun b => ?_
    cases b with
    | ok generation =>
      have hkept : first ≤ Pass.lease ⟨t.turn, generation⟩ := hfirst
      have hsince := since_cons (t.onSlot t.slot.lease).state hkept
      exact congrArg (fun u => Tenancy.reply { u with futures := t.turn :: t.futures } .nothing)
        hsince.symm
    | error e => exact reply_blind _ _
  | .act lease (.complete v) =>
    refine withCompleter_blind (he lease _ rfl) fun c _ => andThen_blind fun b => ?_
    cases b with
    | ok next => exact follow_blind _ _ _ next
    | error e => exact reply_blind _ _
  | .act lease .clone =>
    refine withCompleter_blind (he lease _ rfl) fun c hc => andThen_blind fun b => ?_
    cases b with
    | ok _ => exact congrArg (Tenancy.reply · .nothing) (since_cons _ hc).symm
    | error e => exact reply_blind _ _
  | .act lease .drop =>
    refine withCompleter_blind (he lease _ rfl) fun c hc => ?_
    show Blind first _ ((onSlot { t.since first with
      completers := (t.since first).completers.erase c } (t.slot.dismiss c.generation)).andThen _)
    rw [← since_erase t c]
    exact andThen_blind fun next => follow_blind _ .nothing true next
  | .act lease .isSettled => exact withCompleter_blind (he lease _ rfl) fun c _ => reply_blind t _
  | .act lease (.poll w) =>
    exact withFuture_blind (andThen_blind fun v => received_blind _ lease .pending v)
  | .act lease .tryResult =>
    exact withFuture_blind (andThen_blind fun v => received_blind _ lease .nothing v)
  | .act lease (.register k) =>
    exact withFuture_blind (andThen_blind fun next => follow_blind _ .nothing false next)
  | .act lease .detach =>
    exact withFuture_blind (andThen_blind fun next => follow_blind _ .nothing false next)
  | .act lease .start => exact withDue_blind fun j => begin_blind _ _ j
  | .act lease .finish => exact withDue_blind fun _ => goHome_blind _ _
  | .act lease .fail => exact withDue_blind fun _ => reply_blind _ _
  | .act lease .discard => exact withDue_blind fun _ => reply_blind _ _

/-! ### Stale handles -/

/-- A step that touches nothing but completers of earlier leases, and at most reports that an
    outcome was offered again. -/
structure Untouched (t : Tenancy α κ) (o : Step α κ) : Prop where
  state : o.state.since t.turn = t.since t.turn
  begun : o.answer.begun = none
  recycled : o.answer.recycled = false
  effects : ∀ effect ∈ o.effects, effect = .reported t.slot.observer .doubleCompletion

theorem reply_untouched (t : Tenancy α κ) (a : Answer α) : Untouched t (t.reply a) :=
  ⟨rfl, rfl, rfl, fun _ h => absurd h List.not_mem_nil⟩

/-- Who acts for a completer of a lease that is over. -/
theorem Stands.stale_cases (h : t.Stands p) (hstale : t.Stale lease) :
    t.completers.find? (fun c => c.lease = lease) = none ∨
    ∃ c ∈ t.completers, c.lease = lease ∧ t.slot.generation ≠ c.generation ∧
      t.completers.find? (fun c => c.lease = lease) = some c := by
  rcases h.completer_cases hstale.2 with hnone | ⟨heq, _⟩ | ⟨_, hsome⟩
  · exact Or.inl hnone
  · exact absurd heq (Nat.ne_of_lt hstale.1)
  · exact Or.inr hsome

/-- A live completer of a lease that is over. -/
theorem Stands.find_stale (h : t.Stands p) (hstale : t.Stale lease) (hlive : 0 < t.live lease) :
    ∃ c ∈ t.completers, c.lease = lease ∧ t.slot.generation ≠ c.generation ∧
      t.completers.find? (fun c => c.lease = lease) = some c := by
  rcases h.stale_cases hstale with hnone | hsome
  · obtain ⟨c, hc, hlease⟩ := List.countP_pos_iff.mp hlive
    exact absurd hlease (List.find?_eq_none.mp hnone c hc)
  · exact hsome

theorem since_stale_cons (t : Tenancy α κ) {c : Pass} (hc : c.lease < t.turn) :
    since { t with completers := c :: t.completers } t.turn = t.since t.turn := by
  simp [since, Nat.not_le_of_lt hc]

theorem since_stale_erase (t : Tenancy α κ) {c : Pass} (hc : c.lease < t.turn) :
    since { t with completers := t.completers.erase c } t.turn = t.since t.turn := by
  rw [since_erase, List.erase_of_not_mem]
  simp [since, Nat.not_le_of_lt hc]

/-- **What is done with a handle of a lease that is over leaves the slot untouched.** -/
theorem Stands.step_stale (h : t.Stands p) (hover : lease < t.turn) (a : Act α κ)
    (htime : t.InTime (.act lease a)) : Untouched t (t.step (.act lease a)) := by
  have hcompleter : a.ofCompleter = true → t.Stale lease := fun ha => ⟨hover, htime ha⟩
  have hne : lease ≠ t.turn := Nat.ne_of_lt hover
  have habsent : t.step (.act lease a) = t.reply .absent →
      Untouched t (t.step (.act lease a)) := fun heq => heq ▸ reply_untouched t _
  have hfuture : lease ∉ t.futures := by
    rcases h.future_cases lease with hnone | ⟨heq, _⟩
    · exact hnone
    · exact absurd heq hne
  have hwaiting : t.waiting.find? (fun j => j.lease = lease) = none := by
    rcases h.waiting_cases lease with hnone | ⟨heq, _⟩
    · exact hnone
    · exact absurd heq hne
  have hrunning : t.running.find? (fun j => j.lease = lease) = none := by
    rcases h.running_cases lease with hnone | ⟨heq, _⟩
    · exact hnone
    · exact absurd heq hne
  cases a with
  | complete v =>
    rcases h.stale_cases (hcompleter rfl) with hnone | ⟨c, _, _, hgeneration, hfind⟩
    · exact habsent (by rw [step, step_no_completer hnone])
    · rw [step_refused v hfind (Slot.isSettled_of_ne hgeneration)]
      exact ⟨rfl, rfl, rfl, fun _ heffect => List.mem_singleton.mp heffect⟩
  | clone =>
    rcases h.stale_cases (hcompleter rfl) with hnone | ⟨c, _, rfl, hgeneration, hfind⟩
    · exact habsent (by rw [step, step_no_completer hnone])
    · rw [step_stale_clone hfind hgeneration]
      exact ⟨since_stale_cons t hover, rfl, rfl, fun _ h => absurd h List.not_mem_nil⟩
  | drop =>
    rcases h.stale_cases (hcompleter rfl) with hnone | ⟨c, _, rfl, hgeneration, hfind⟩
    · exact habsent (by rw [step, step_no_completer hnone])
    · rw [step_stale_drop hfind hgeneration]
      exact ⟨since_stale_erase t hover, rfl, rfl, fun _ h => absurd h List.not_mem_nil⟩
  | isSettled =>
    rcases h.stale_cases (hcompleter rfl) with hnone | ⟨c, _, _, hgeneration, hfind⟩
    · exact habsent (by rw [step, step_no_completer hnone])
    · rw [step_stale_isSettled hfind hgeneration]
      exact reply_untouched t _
  | poll w => exact habsent (by rw [step, step_no_future hfuture])
  | tryResult => exact habsent (by rw [step, step_no_future hfuture])
  | register k => exact habsent (by rw [step, step_no_future hfuture])
  | detach => exact habsent (by rw [step, step_no_future hfuture])
  | start => exact habsent (by rw [step, step_no_due hwaiting])
  | discard => exact habsent (by rw [step, step_no_due hwaiting])
  | finish => exact habsent (by rw [step, step_no_due hrunning])
  | fail => exact habsent (by rw [step, step_no_due hrunning])

/-! ### Two histories -/

theorem turn_eq_of_since {first first' : Nat} (h : t.since first = u.since first') :
    t.turn = u.turn := by
  have hturn : (t.since first).turn = (u.since first').turn := by rw [h]
  exact hturn

theorem since_since (t : Tenancy α κ) {first later : Nat} (h : first ≤ later) :
    (t.since first).since later = t.since later := by
  simp only [since, List.filter_filter]
  congr 3
  funext c
  have himp : later ≤ c.lease → first ≤ c.lease := Nat.le_trans h
  simpa using himp

/-- Completers of a lease are counted all the same when those of earlier leases are left out. -/
theorem live_since (t : Tenancy α κ) (hlease : first ≤ lease) :
    (t.since first).live lease = t.live lease := by
  simp only [Books.live, liveIn, since, List.countP_filter]
  congr 1
  funext c
  have himp : c.lease = lease → first ≤ c.lease := fun heq => heq ▸ hlease
  simpa using himp

/-- Two tenancies that differ in completers of earlier leases only. -/
def Same (t u : Tenancy α κ) : Prop := t.since t.turn = u.since u.turn

theorem Same.turn_eq (h : Same t u) : u.turn = t.turn := (turn_eq_of_since h).symm

/-- An event that is not of an earlier lease is noted alike from both, and leaves them alike. -/
theorem Same.step (h : Same t u) {e : Event α κ} (he : t.isBygone e = false) :
    u.entry e = t.entry e ∧ Same (t.step e).state (u.step e).state := by
  have hturn := h.turn_eq
  have hlease : ∀ lease a, e = .act lease a → t.turn ≤ lease := by
    rintro lease a rfl
    exact Nat.le_of_not_lt (of_decide_eq_false he)
  have ht := step_blind t (Nat.le_refl t.turn) hlease
  have hu := step_blind u (Nat.le_of_eq hturn.symm) hlease
  have hsame : t.since t.turn = u.since t.turn := by
    rw [Same, hturn] at h
    exact h
  have hlift : (u.step e).lift (fun s => s.since t.turn)
      = (t.step e).lift (fun s => s.since t.turn) := by
    rw [Blind] at ht hu
    rw [← ht, ← hu, hsame]
  have hanswer : (u.step e).answer = (t.step e).answer := by
    simpa only [Outcome.lift_answer] using congrArg Outcome.answer hlift
  have heffects : (u.step e).effects = (t.step e).effects := by
    simpa only [Outcome.lift_effects] using congrArg Outcome.effects hlift
  have hstate : (u.step e).state.since t.turn = (t.step e).state.since t.turn := by
    simpa only [Outcome.lift_state] using congrArg Outcome.state hlift
  have hleft : ∀ lease, t.turn ≤ lease →
      (u.step e).state.live lease = (t.step e).state.live lease := by
    intro lease hle
    rw [← live_since (u.step e).state hle, ← live_since (t.step e).state hle, hstate]
  refine ⟨?_, ?_⟩
  · cases e with
    | lease => simp only [entry, hturn, hanswer, heffects, hleft t.turn (Nat.le_refl _)]
    | act lease a => simp only [entry, hanswer, heffects, hleft lease (hlease lease a rfl)]
  · have hturn' := turn_eq_of_since hstate
    have hle : t.turn ≤ (t.step e).state.turn := by
      rw [(step_behaves t e).turn]
      exact Nat.le_add_right _ _
    rw [Same, hturn', ← since_since (t.step e).state hle, ← since_since (u.step e).state hle, hstate]

/-- **A history is seen alike by the leases of their time with and without the events of leases
    that were over.** -/
theorem Stands.erase (h : t.Stands p) (hsame : Same t u) {es : List (Event α κ)}
    (htimely : t.Timely es) :
    u.log (t.current es) = t.observed es ∧ Same (t.after es) (u.after (t.current es)) := by
  induction es generalizing t u p with
  | nil => exact ⟨rfl, hsame⟩
  | cons e es ih =>
    obtain ⟨p', hadvances⟩ := step_advances h htimely.1
    rw [current, observed]
    cases hbygone : t.isBygone e with
    | true =>
      cases e with
      | lease => cases hbygone
      | act lease a =>
        have huntouched := h.step_stale (of_decide_eq_true hbygone) a htimely.1
        refine ih hadvances.stands ?_ htimely.2
        rw [Same, turn_eq_of_since huntouched.state, huntouched.state]
        exact hsame
    | false =>
      obtain ⟨hentry, hsame'⟩ := hsame.step hbygone
      obtain ⟨hlog, hafter⟩ := ih hadvances.stands hsame' htimely.2
      refine ⟨?_, hafter⟩
      show u.entry e :: _ = t.entry e :: _
      rw [hentry, hlog]

/-! ### Isolation -/

/-- What an entry may show of a handle of a lease that is over. -/
structure Harmless (observer : Observer) (e : Entry α κ) : Prop where
  begun : e.receipt.begun = none
  recycled : e.receipt.recycled = false
  effects : ∀ effect ∈ e.effects, effect = .reported observer .doubleCompletion

/-- Any number of acts on handles of leases that are over, in any order. -/
theorem Stands.after_stale (h : t.Stands p) (acts : List (Nat × Act α κ))
    (hstale : ∀ x ∈ acts, t.Stale x.1) :
    let es := acts.map fun x => Event.act x.1 x.2
    (t.after es).since t.turn = t.since t.turn ∧
      ∀ e ∈ t.log es, Harmless t.slot.observer e := by
  induction acts generalizing t p with
  | nil => exact ⟨rfl, fun _ he => absurd he List.not_mem_nil⟩
  | cons x acts ih =>
    obtain ⟨hx, hacts⟩ := List.forall_mem_cons.mp hstale
    have htime : t.InTime (.act x.1 x.2) := fun _ => hx.2
    have huntouched := h.step_stale hx.1 x.2 htime
    obtain ⟨p', hadvances⟩ := step_advances h htime
    have hturn := turn_eq_of_since huntouched.state
    have hrest : ∀ y ∈ acts, (t.step (.act x.1 x.2)).state.Stale y.1 := by
      intro y hy
      rw [Stale, hturn]
      exact hacts y hy
    obtain ⟨hafter, hlog⟩ := ih hadvances.stands hrest
    rw [hturn] at hafter
    refine ⟨hafter.trans huntouched.state, List.forall_mem_cons.mpr ⟨?_, ?_⟩⟩
    · exact ⟨huntouched.begun, huntouched.recycled, huntouched.effects⟩
    · rw [← (step_behaves t (.act x.1 x.2)).alike.observer]
      exact hlog

/-- Leases that are over have no hold on the slot that stands in `t`.  An outcome that is offered
    through one of their completers comes back, they are all settled, and copies of them come and
    go without the slot; and so it is with any number of such handles. -/
structure Isolated (observer : Observer) (t : Tenancy α κ) : Prop where
  complete : ∀ lease, t.Stale lease → 0 < t.live lease → ∀ v,
    t.step (.act lease (.complete v))
      = ⟨⟨.rejected ⟨v⟩, none, false⟩, t, [.reported observer .doubleCompletion]⟩
  isSettled : ∀ lease, t.Stale lease → 0 < t.live lease →
    t.step (.act lease .isSettled) = t.reply (.truth true)
  clone : ∀ lease, t.Stale lease → 0 < t.live lease → ∃ c ∈ t.completers, c.lease = lease ∧
    t.step (.act lease .clone)
      = Tenancy.reply { t with completers := c :: t.completers } .nothing
  drop : ∀ lease, t.Stale lease → 0 < t.live lease → ∃ c ∈ t.completers, c.lease = lease ∧
    t.step (.act lease .drop)
      = Tenancy.reply { t with completers := t.completers.erase c } .nothing
  many : ∀ acts : List (Nat × Act α κ), (∀ x ∈ acts, t.Stale x.1) →
    let es := acts.map fun x => Event.act x.1 x.2
    (t.after es).since t.turn = t.since t.turn ∧ ∀ e ∈ t.log es, Harmless observer e

theorem Stands.isolated (h : t.Stands p) : Isolated t.slot.observer t where
  complete lease hstale hlive v := by
    obtain ⟨c, _, _, hne, hfind⟩ := h.find_stale hstale hlive
    exact step_refused v hfind (Slot.isSettled_of_ne hne)
  isSettled lease hstale hlive := by
    obtain ⟨c, _, _, hne, hfind⟩ := h.find_stale hstale hlive
    exact step_stale_isSettled hfind hne
  clone lease hstale hlive := by
    obtain ⟨c, hc, hlease, hne, hfind⟩ := h.find_stale hstale hlive
    exact ⟨c, hc, hlease, step_stale_clone hfind hne⟩
  drop lease hstale hlive := by
    obtain ⟨c, hc, hlease, hne, hfind⟩ := h.find_stale hstale hlive
    exact ⟨c, hc, hlease, step_stale_drop hfind hne⟩
  many acts hstale := h.after_stale acts hstale

theorem Kept.own {es : List (Entry α κ)} (h : t.Kept es p) (lease : Nat) :
    (account lease es).Own := by
  rcases h.account_cases lease with ⟨_, hclosed⟩ | ⟨_, hfits⟩ | ⟨_, hblank⟩
  · exact hclosed.own
  · exact hfits.own
  · rw [hblank]
    exact Account.blank_own

/-- **Leases of one slot are isolated.**  Handles of leases that are over are refused and change
    nothing; what the handles of a lease hand on, run and wake was given through handles of that
    lease; and everybody else fares as if the handles of leases that were over had not been used
    at all. -/
theorem leases_isolated (home : Home) (deferred : Bool) (observer : Observer)
    (events : List (Event α κ)) (htimely : (new home deferred observer).Timely events) :
    Isolated observer ((new home deferred observer).after events) ∧
      (∀ lease, (account lease ((new home deferred observer).log events)).Own) ∧
      (new home deferred observer).log ((new home deferred observer).current events)
        = (new home deferred observer).observed events ∧
      Same ((new home deferred observer).after events)
        ((new home deferred observer).after ((new home deferred observer).current events)) := by
  obtain ⟨p, h⟩ := after_kept home deferred observer htimely
  have hisolated := h.stands.isolated
  rw [(after_alike (new home deferred observer) events).observer] at hisolated
  have herased := (new_stands home deferred observer).erase (u := new home deferred observer)
    rfl htimely
  exact ⟨hisolated, h.own, herased.1, herased.2⟩

/-- The completers of a first lease are used while the second one lasts. -/
def successors : List (Event Nat String) :=
  [.lease, .act 0 .clone, .act 0 (.poll 4), .act 0 (.complete (.ok 7)), .act 0 .tryResult, .lease,
    .act 1 (.poll 5), .act 0 (.complete (.ok 8)), .act 0 .clone, .act 0 .drop, .act 0 .drop,
    .act 0 .drop, .act 1 .drop, .act 1 .tryResult]

theorem leases_isolated_successors :
    (new .nowhere false .quiet).Timely successors ∧
      (Isolated .quiet ((new .nowhere false .quiet).after successors) ∧
        (∀ lease, (account lease ((new .nowhere false .quiet).log successors)).Own) ∧
        (new .nowhere false .quiet).log ((new .nowhere false .quiet).current successors)
          = (new .nowhere false .quiet).observed successors ∧
        Same ((new .nowhere false .quiet).after successors)
          ((new .nowhere false .quiet).after ((new .nowhere false .quiet).current successors))) ∧
      (account 1 ((new .nowhere false .quiet).log successors)).delivered = [.error .abandoned] ∧
      (account 1 ((new .nowhere false .quiet).log successors)).woken = [5] :=
  have htimely := timely_of_length_le (by decide)
  ⟨htimely, leases_isolated .nowhere false .quiet successors htimely, by rfl, by rfl⟩

end Tenancy

end Conduit.Lease

/-
  Conduit/Proofs/Lease/Abandonment.lean
  =====================================
  **A lease is abandoned by the last of its completers, and by nothing else.**

  While a lease lasts the word of its slot counts the completers that are alive.  To count
  one more or one less changes neither the generation nor a flag, so that the word tells
  the one completer that is left from all others; when that one goes away before an outcome
  was accepted, the lease is abandoned, and the observer is told once.

  Completions that were accepted and abandonments that were reported are read off the log.
  Together they are one for every lease that has an outcome, and none for any other.
-/
import Conduit.Proofs.Lease.Resolution

namespace Conduit

/-! ### Reports -/

namespace Effect

/-- The observers that were told of an abandoned lease. -/
def abandonments (es : List Effect) : List Observer :=
  es.filterMap fun
    | .reported o .futureAbandoned => some o
    | _ => none

theorem abandonments_append (es fs : List Effect) :
    abandonments (es ++ fs) = abandonments es ++ abandonments fs := List.filterMap_append

theorem abandonments_woken (ws : List Waker) : abandonments (ws.map .woken) = [] := by
  simp [abandonments]

end Effect

namespace Lease

/-- From one word to another nothing changes but the number of completers, which comes to `n`. -/
structure Word.Recounts (w w' : Word) (n : Nat) : Prop where
  generation : w'.generation = w.generation
  completers : w'.completers = n
  flags : ∀ f, w'.has f = w.has f

theorem Word.Holds.recounts {w w' : Word} {g : UInt32} {m n : Nat} {flags : Flags}
    (h : w.Holds g m flags) (h' : w'.Holds g n flags) : w.Recounts w' n where
  generation := h'.generation_eq.trans h.generation_eq.symm
  completers := h'.completers_eq
  flags f := (h'.has_eq f).trans (h.has_eq f).symm

namespace Slot

variable {α κ : Type} {s : Slot α κ} {g : UInt32} {n : Nat} {p : Phase α κ}

/-- One completer more is counted by the word and noted nowhere else. -/
theorem enlist_counted (h : s.Stands g n p) (hroom : n < Word.maxCompleters) :
    s.enlist g 1 = .pure (.ok ()) { s with word := s.word.enter 1 } := by
  have hleft : 1 ≤ Word.maxCompleters - n := by omega
  simp [enlist, h.generation_eq, h.word.completers_eq, hleft]

/-- One completer less is counted by the word and noted nowhere else, unless it was the last one
    of an open lease. -/
theorem dismiss_counted (h : s.Stands g (n + 1) p) (hp : p ≠ .idle)
    (hkept : n ≠ 0 ∨ p.isOpen = false) :
    s.dismiss g = .pure .nothing { s with word := s.word.leave } := by
  have hclaimed := h.isClaimed_eq hp
  rcases hkept with hmore | hclosed
  · simp [dismiss, h.generation_eq, h.word.leave.completers_eq, hmore]
  · simp [dismiss, h.generation_eq, hclaimed, hclosed]

theorem publish_abandonments (s : Slot α κ) (v : Verdict α) :
    Effect.abandonments (s.publish v).effects = [] := by
  simp only [publish, due]
  split
  · split <;> rfl
  · split
    · rfl
    · exact Effect.abandonments_woken _

theorem complete_abandonments (s : Slot α κ) (g : UInt32) (v : Verdict α) :
    Effect.abandonments (s.complete g v).effects = [] := by
  rw [complete]
  split
  · exact publish_abandonments _ v
  · rfl

/-- The observer is told by the completer after which none is counted, if nobody has claimed the
    lease. -/
theorem dismiss_abandonments (s : Slot α κ) (g : UInt32) :
    Effect.abandonments (s.dismiss g).effects
      = if s.generation = g ∧ s.word.leave.completers = 0 ∧ s.word.isClaimed = false
        then [s.observer] else [] := by
  by_cases hg : s.generation = g
  · by_cases hlast : s.word.leave.completers = 0 ∧ s.word.isClaimed = false
    · rw [if_pos ⟨hg, hlast⟩]
      simp only [dismiss, hg, hlast, ne_eq, not_true_eq_false, Bool.false_eq_true, not_false_eq_true,
        and_self, if_true, if_false, Outcome.andThen_effects, Effect.abandonments_append,
        publish_abandonments]
      rfl
    · simp [dismiss, hg, hlast, Effect.abandonments]
  · simp [dismiss, hg, Effect.abandonments]

theorem homecoming_abandonments (s : Slot α κ) : Effect.abandonments s.homecoming = [] := by
  rw [homecoming]
  split <;> rfl

end Slot

/-! ### What a step reports -/

namespace Tenancy

variable {α κ : Type} {t : Tenancy α κ} {p : Phase α κ}

theorem entry_effects (t : Tenancy α κ) (e : Event α κ) :
    (t.entry e).effects = (t.step e).effects := by
  cases e <;> rfl

/-- An operation on the slot reports what it does, if what follows reports nothing. -/
theorem onSlot_abandonments {β : Type} {o : Outcome β (Slot α κ)} {f : β → Tenancy α κ → Step α κ}
    (h : Effect.abandonments (f o.answer { t with slot := o.state }).effects = []) :
    Effect.abandonments ((t.onSlot o).andThen f).effects = Effect.abandonments o.effects := by
  have happend : ((t.onSlot o).andThen f).effects
      = o.effects ++ (f o.answer { t with slot := o.state }).effects := rfl
  rw [happend, Effect.abandonments_append, h, List.append_nil]

theorem follow_abandonments (t : Tenancy α κ) (a : Answer α) (mayDefer : Bool)
    (next : Sequel α κ) : Effect.abandonments (t.follow a mayDefer next).effects = [] := by
  cases next with
  | nothing => rfl
  | home => exact t.slot.homecoming_abandonments
  | resume k v =>
    rw [follow]
    split <;> rfl

theorem received_abandonments (t : Tenancy α κ) (lease : Nat) (a : Answer α)
    (v : Option (Verdict α)) : Effect.abandonments (t.received lease a v).effects = [] := by
  cases v with
  | none => rfl
  | some v => exact t.slot.homecoming_abandonments

/-- Nothing but a completer that goes away reports that a lease was abandoned. -/
theorem step_abandonments_nil {e : Event α κ} (he : ∀ lease, e ≠ .act lease .drop) :
    Effect.abandonments (t.step e).effects = [] := by
  match e with
  | .lease =>
    rw [step, Slot.lease]
    split <;> rfl
  | .act lease (.complete v) =>
    rw [step, withCompleter]
    split
    · rw [onSlot_abandonments, Slot.complete_abandonments]
      split
      · exact follow_abandonments _ _ _ _
      · rfl
    · rfl
  | .act lease .clone =>
    rw [step, withCompleter]
    split
    · rw [onSlot_abandonments, Slot.enlist_effects]
      · rfl
      · split <;> rfl
    · rfl
  | .act lease .drop => exact absurd rfl (he lease)
  | .act lease .isSettled =>
    rw [step, withCompleter]
    split <;> rfl
  | .act lease (.poll w) =>
    rw [step, withFuture]
    split
    · rw [onSlot_abandonments (received_abandonments _ _ _ _), Slot.poll_effects]
      rfl
    · rfl
  | .act lease .tryResult =>
    rw [step, withFuture]
    split
    · rw [onSlot_abandonments (received_abandonments _ _ _ _), Slot.take_effects]
      rfl
    · rfl
  | .act lease (.register k) =>
    rw [step, withFuture]
    split
    · rw [onSlot_abandonments (follow_abandonments _ _ _ _), Slot.register_effects]
      rfl
    · rfl
  | .act lease .detach =>
    rw [step, withFuture]
    split
    · rw [onSlot_abandonments (follow_abandonments _ _ _ _), Slot.detach_effects]
      rfl
    · rfl
  | .act lease .start | .act lease .fail | .act lease .discard =>
    rw [step, withDue]
    split <;> rfl
  | .act lease .finish =>
    rw [step, withDue]
    split
    · exact Slot.homecoming_abandonments _
    · rfl

theorem follow_completers (t : Tenancy α κ) (a : Answer α) (mayDefer : Bool)
    (next : Sequel α κ) : (t.follow a mayDefer next).state.completers = t.completers := by
  cases next with
  | nothing | home => rfl
  | resume k v =>
    rw [follow]
    split <;> rfl

theorem step_drop_found {lease : Nat} {c : Pass}
    (hfind : t.completers.find? (fun c => c.lease = lease) = some c) :
    Effect.abandonments (t.step (.act lease .drop)).effects
        = Effect.abandonments (t.slot.dismiss c.generation).effects ∧
      (t.step (.act lease .drop)).state.completers = t.completers.erase c := by
  rw [step, step_completer hfind]
  constructor
  · exact onSlot_abandonments (follow_abandonments _ _ _ _)
  · rw [Outcome.andThen_state, follow_completers]
    rfl

/-- **A completer that goes away reports an abandoned lease if it is the last one of the present
    lease, and the lease is open**; any other reports nothing. -/
theorem Stands.step_drop_abandonments (h : t.Stands p) {lease : Nat}
    (htime : t.turn < lease + 4294967296) :
    Effect.abandonments (t.step (.act lease .drop)).effects
      = if lease = t.turn ∧ p.isOpen = true ∧ t.live lease = 1 then [t.slot.observer] else [] := by
  rcases h.completer_cases htime with hnone | ⟨rfl, hp, hmem, hfind⟩ | ⟨hlt, c, _, _, hne, hfind⟩
  · have hdead : t.live lease = 0 :=
      List.countP_eq_zero.mpr fun c hc => List.find?_eq_none.mp hnone c hc
    rw [step, step_no_completer hnone, if_neg]
    · rfl
    · rintro ⟨_, _, hone⟩
      omega
  · obtain ⟨n, hn⟩ : ∃ n, t.live t.turn = n + 1 := ⟨_, liveIn_erase hmem⟩
    have hslot := h.slot
    rw [hn] at hslot
    rw [(step_drop_found hfind).1, Slot.dismiss_abandonments, hslot.generation_eq,
      hslot.word.leave.completers_eq, hslot.isClaimed_eq hp, hn]
    simp [and_comm]
  · rw [(step_drop_found hfind).1, Slot.dismiss_of_ne hne, if_neg]
    · rfl
    · rintro ⟨heq, _⟩
      exact Nat.ne_of_lt hlt heq

theorem received_completers (t : Tenancy α κ) (lease : Nat) (a : Answer α)
    (v : Option (Verdict α)) : (t.received lease a v).state.completers = t.completers := by
  cases v <;> rfl

/-- Consumers leave the completers alone. -/
theorem step_consumer_completers {lease : Nat} {a : Act α κ} (ha : a.ofCompleter = false) :
    (t.step (.act lease a)).state.completers = t.completers := by
  cases a with
  | complete v | clone | drop | isSettled => cases ha
  | poll w | tryResult =>
    rw [step, withFuture]
    split
    · exact received_completers _ _ _ _
    · rfl
  | register k | detach =>
    rw [step, withFuture]
    split
    · exact follow_completers _ _ _ _
    · rfl
  | start | finish | fail | discard =>
    rw [step, withDue]
    split <;> rfl

/-- Nobody gets a completer of a lease that has none, unless the lease begins. -/
theorem step_completers_mem {e : Event α κ} :
    ∀ c ∈ (t.step e).state.completers,
      c ∈ t.completers ∨ e = .lease ∧ t.slot.word.isIdle = true ∧ c.lease = t.turn := by
  intro c hc
  match e with
  | .lease =>
    rw [step, Slot.lease] at hc
    split at hc
    · next hidle =>
      rcases List.mem_cons.mp hc with rfl | hold
      · exact Or.inr ⟨rfl, hidle, rfl⟩
      · exact Or.inl hold
    · exact Or.inl hc
  | .act lease .clone =>
    rw [step, withCompleter] at hc
    split at hc
    · next c' hfind =>
      rw [Outcome.andThen_state] at hc
      split at hc
      · rcases List.mem_cons.mp hc with rfl | hold
        · exact Or.inl (List.mem_of_find?_eq_some hfind)
        · exact Or.inl hold
      · exact Or.inl hc
    · exact Or.inl hc
  | .act lease .drop =>
    rw [step, withCompleter] at hc
    split at hc
    · rw [Outcome.andThen_state, follow_completers] at hc
      exact Or.inl (List.mem_of_mem_erase hc)
    · exact Or.inl hc
  | .act lease (.complete v) =>
    rw [step, withCompleter] at hc
    split at hc
    · rw [Outcome.andThen_state] at hc
      split at hc
      · rw [follow_completers] at hc
        exact Or.inl hc
      · exact Or.inl hc
    · exact Or.inl hc
  | .act lease .isSettled =>
    rw [step, withCompleter] at hc
    split at hc <;> exact Or.inl hc
  | .act lease (.poll _) | .act lease .tryResult | .act lease (.register _) | .act lease .detach
  | .act lease .start | .act lease .finish | .act lease .fail | .act lease .discard =>
    rw [step_consumer_completers rfl] at hc
    exact Or.inl hc

/-- A lease that has begun and has no completer gets none. -/
theorem Kept.stays_dead {es : List (Entry α κ)} (h : t.Kept es p) {lease : Nat}
    (hbegun : account lease es ≠ .blank) (hdead : t.live lease = 0) (e : Event α κ) :
    (t.step e).state.live lease = 0 := by
  refine List.countP_eq_zero.mpr fun c hc => ?_
  rcases step_completers_mem c hc with hold | ⟨_, hidle, hlease⟩
  · exact List.countP_eq_zero.mp hdead c hold
  · obtain rfl := h.stands.slot.isIdle_iff.mp hidle
    have hne : c.lease ≠ lease := by
      rintro rfl
      rw [hlease] at hbegun
      exact hbegun h.present.idle_blank
    simpa using hne

end Tenancy

/-! ### What the log has of completions and abandonments -/

section

variable {α κ : Type}

/-- Whether a completion was accepted. -/
def Entry.completes (e : Entry α κ) : Bool :=
  match e.act, e.receipt.answer with
  | some (.complete _), .accepted => true
  | _, _ => false

/-- How many completions of a lease were accepted. -/
def completions (lease : Nat) (es : List (Entry α κ)) : Nat :=
  es.countP fun e => e.lease = lease && e.completes

/-- The observers that were told that a lease was abandoned, each as often as it was. -/
def abandonments (lease : Nat) (es : List (Entry α κ)) : List Observer :=
  es.flatMap fun e => if e.lease = lease then Effect.abandonments e.effects else []

theorem completions_concat (lease : Nat) (es : List (Entry α κ)) (e : Entry α κ) :
    completions lease (es ++ [e])
      = completions lease es + if e.lease = lease then e.completes.toNat else 0 := by
  cases hcompletes : e.completes <;> simp [completions, List.countP_append, hcompletes]

theorem abandonments_concat (lease : Nat) (es : List (Entry α κ)) (e : Entry α κ) :
    abandonments lease (es ++ [e])
      = abandonments lease es
        ++ if e.lease = lease then Effect.abandonments e.effects else [] := by
  simp [abandonments]

theorem Entry.abandons_iff (e : Entry α κ) :
    e.abandons = true ↔ Effect.abandonments e.effects ≠ [] := by
  rw [abandons]
  induction e.effects with
  | nil => simp [Effect.abandonments]
  | cons x es ih =>
    rw [List.any_cons, Bool.or_eq_true, ih]
    cases x with
    | reported o e => cases e <;> simp [Effect.abandonments]
    | woken w => simp [Effect.abandonments]
    | destroyed i => simp [Effect.abandonments]
    | recycled n g => simp [Effect.abandonments]

/-- Completers apart that go away, an outcome is accepted by a completion. -/
theorem Entry.accepted_of_ne (e : Entry α κ) (he : e.act ≠ some .drop) :
    e.share.accepted.length = e.completes.toNat := by
  obtain ⟨lease, act, ⟨answer, begun, recycled⟩, effects, left⟩ := e
  cases act with
  | none => rfl
  | some a =>
    cases a with
    | drop => exact absurd rfl he
    | complete v => cases answer <;> rfl
    | _ => rfl

theorem Entry.accepted_drop (e : Entry α κ) (he : e.act = some .drop) :
    e.completes = false ∧
      e.share.accepted
        = if Effect.abandonments e.effects = [] then [] else [.error .abandoned] := by
  have habandons := e.abandons_iff
  obtain ⟨lease, act, receipt, effects, left⟩ := e
  subst he
  refine ⟨rfl, ?_⟩
  simp only [share, accepted?]
  by_cases hnone : Effect.abandonments effects = []
  · rw [if_neg fun h => habandons.mp h hnone, if_pos hnone]
    rfl
  · rw [if_pos (habandons.mpr hnone), if_neg hnone]
    rfl

end

/-! ### Accounts with an outcome -/

section

variable {α κ : Type} {deferred : Bool} {p : Phase α κ} {a : Account α κ}

theorem Fits.claimed_iff (h : Fits deferred p a) :
    (p.flags.completing || p.flags.completed) = true ↔ a.accepted ≠ [] := by
  cases h with
  | _ => simp [Phase.flags, Flags.none, Account.blank]

theorem Fits.accepted_pending {w : Option Waker} (h : Fits deferred (.pending w) a) :
    a.accepted = [] := by
  cases h
  rfl

theorem Fits.accepted_ready {v : Verdict α} (h : Fits deferred (.ready v) a) :
    a.accepted = [v] := by
  cases h
  rfl

theorem Fits.accepted_waiting {k : κ} {v : Verdict α}
    (h : Fits deferred (.handed (.waiting k v)) a) : a.accepted = [v] := by
  cases h
  rfl

end

namespace Tenancy

variable {α κ : Type} {t : Tenancy α κ} {p : Phase α κ} {es : List (Entry α κ)}

/-- **Whatever is accepted is a completion or an abandonment.** -/
theorem Stands.step_accepts (h : t.Stands p) {e : Event α κ} (htime : t.InTime e) :
    (t.entry e).share.accepted.length
      = (t.entry e).completes.toNat + (Effect.abandonments (t.step e).effects).length := by
  by_cases hdrop : ∃ lease, e = .act lease .drop
  · obtain ⟨lease, rfl⟩ := hdrop
    obtain ⟨hcompletes, haccepted⟩ := (t.entry (.act lease .drop)).accepted_drop rfl
    rw [hcompletes, haccepted, entry_effects, h.step_drop_abandonments (htime rfl)]
    split <;> simp
  · have he : ∀ lease, e ≠ .act lease .drop := fun lease heq => hdrop ⟨lease, heq⟩
    rw [step_abandonments_nil he, Entry.accepted_of_ne]
    · rfl
    · cases e with
      | lease => exact fun heq => by cases heq
      | act lease a =>
        intro heq
        cases heq
        exact he lease rfl

theorem Stands.step_drop_live (h : t.Stands p) {lease : Nat} (hlive : 0 < t.live lease)
    (htime : t.turn < lease + 4294967296) :
    (t.step (.act lease .drop)).state.live lease + 1 = t.live lease := by
  obtain ⟨c, hfind, _⟩ := h.find_live hlive htime
  have hmem := List.mem_of_find?_eq_some hfind
  have hlease : c.lease = lease := by simpa using List.find?_some hfind
  rw [Books.live, Books.live, (step_drop_found hfind).2, ← hlease]
  exact (liveIn_erase hmem).symm

/-- What was accepted is what the log has of completions and abandonments; and a lease that was
    abandoned has no completer, and nothing else was accepted for it. -/
structure Attributed (t : Tenancy α κ) (es : List (Entry α κ)) : Prop where
  total : ∀ lease, completions lease es + (abandonments lease es).length
    = (account lease es).accepted.length
  deserted : ∀ lease, abandonments lease es ≠ [] →
    (account lease es).accepted = [.error .abandoned] ∧ t.live lease = 0

theorem new_attributed (home : Home) (deferred : Bool) (observer : Observer) :
    (new home deferred observer : Tenancy α κ).Attributed [] where
  total _ := rfl
  deserted _ hsome := absurd rfl hsome

theorem Kept.accepted_le (h : t.Kept es p) (lease : Nat) :
    (account lease es).accepted.length ≤ 1 := by
  rw [(h.single lease).accepted, List.length_take]
  exact Nat.min_le_left 1 _

/-- A step that reports an abandoned lease. -/
theorem Stands.step_abandons (h : t.Stands p) {e : Event α κ} (htime : t.InTime e)
    (hsome : Effect.abandonments (t.step e).effects ≠ []) :
    e = .act t.turn .drop ∧ p.isOpen = true ∧ t.live t.turn = 1 := by
  have hdrop : ∃ lease, e = .act lease .drop := by
    refine Classical.byContradiction fun hnone => ?_
    exact hsome (step_abandonments_nil fun lease heq => hnone ⟨lease, heq⟩)
  obtain ⟨lease, rfl⟩ := hdrop
  rw [h.step_drop_abandonments (htime rfl)] at hsome
  split at hsome
  · next hlast =>
    obtain ⟨rfl, hopen, hone⟩ := hlast
    exact ⟨rfl, hopen, hone⟩
  · exact absurd rfl hsome

theorem Attributed.step (ha : t.Attributed es) (h : t.Kept es p) {e : Event α κ}
    (htime : t.InTime e) : (t.step e).state.Attributed (es ++ [t.entry e]) where
  total lease := by
    have htotal := ha.total lease
    have hstep := h.stands.step_accepts htime
    rw [completions_concat, abandonments_concat, account_concat, entry_effects]
    by_cases hlease : (t.entry e).lease = lease
    · simp only [if_pos hlease, Account.add, List.length_append]
      omega
    · simp only [if_neg hlease, List.append_nil, Nat.add_zero]
      exact htotal
  deserted lease hsome := by
    obtain ⟨p', h'⟩ := h.step htime
    have hle := h'.accepted_le lease
    rw [abandonments_concat, entry_effects] at hsome
    rw [account_concat] at hle ⊢
    -- a lease that was abandoned already accepts nothing more and stays without completers
    have hold (hbefore : abandonments lease es ≠ []) :
        (account lease es).accepted = [.error .abandoned] ∧ (t.step e).state.live lease = 0 := by
      obtain ⟨haccepted, hdead⟩ := ha.deserted lease hbefore
      refine ⟨haccepted, h.stays_dead ?_ hdead e⟩
      intro hblank
      rw [hblank] at haccepted
      cases haccepted
    by_cases hlease : (t.entry e).lease = lease
    · simp only [if_pos hlease, Account.add, List.length_append] at hle ⊢
      by_cases hnew : Effect.abandonments (t.step e).effects = []
      · rw [if_pos hlease, hnew, List.append_nil] at hsome
        obtain ⟨haccepted, hdead⟩ := hold hsome
        rw [haccepted, List.length_singleton] at hle
        have hnone : (t.entry e).share.accepted = [] := List.length_eq_zero_iff.mp (by omega)
        rw [haccepted, hnone]
        exact ⟨rfl, hdead⟩
      · obtain ⟨rfl, _, hone⟩ := h.stands.step_abandons htime hnew
        obtain rfl : t.turn = lease := hlease
        have haccepted := ((t.entry (.act t.turn .drop)).accepted_drop rfl).2
        rw [entry_effects, if_neg hnew] at haccepted
        have hlive := h.stands.step_drop_live (by omega) (htime rfl)
        rw [haccepted, List.length_singleton] at hle
        have hnone : (account t.turn es).accepted = [] := List.length_eq_zero_iff.mp (by omega)
        rw [haccepted, hnone]
        exact ⟨rfl, by omega⟩
    · rw [if_neg hlease, List.append_nil] at hsome
      rw [if_neg hlease]
      exact hold hsome

theorem Attributed.after {fs : List (Event α κ)} (ha : t.Attributed es) (h : t.Kept es p)
    (htimely : t.Timely fs) : (t.after fs).Attributed (es ++ t.log fs) := by
  induction fs generalizing t es p with
  | nil => exact (List.append_nil es).symm ▸ ha
  | cons e fs ih =>
    obtain ⟨p', h'⟩ := h.step htimely.1
    rw [log, List.append_cons]
    exact ih (ha.step h htimely.1) h' htimely.2

/-! ### Leases with an outcome -/

/-- Whether a lease has an outcome: it is claimed, or its slot was recycled since. -/
def isResolved (t : Tenancy α κ) (lease : Nat) : Bool :=
  lease < t.turn || lease == t.turn && t.slot.word.isClaimed

/-- A lease has an outcome when its account does. -/
theorem Kept.isResolved_iff (h : t.Kept es p) (lease : Nat) :
    t.isResolved lease = true ↔ (account lease es).accepted ≠ [] := by
  rw [isResolved]
  rcases h.account_cases lease with ⟨hlt, hclosed⟩ | ⟨rfl, hfits⟩ | ⟨hgt, hblank⟩
  · simp [hlt, hclosed.done.1]
  · rw [← hfits.claimed_iff, h.stands.slot.word.isClaimed_eq]
    simp
  · have hne : ¬ lease < t.turn ∧ lease ≠ t.turn := by omega
    simp [hne, hblank, Account.blank]

theorem Kept.accepted_of_unresolved (h : t.Kept es p) {lease : Nat}
    (hopen : t.isResolved lease = false) : (account lease es).accepted = [] := by
  refine Classical.byContradiction fun hsome => ?_
  rw [(h.isResolved_iff lease).mpr hsome] at hopen
  cases hopen

/-- A lease with a completer and without an outcome is the present one, and open. -/
theorem Kept.open_of_live (h : t.Kept es p) {lease : Nat} (hlive : 0 < t.live lease)
    (hnone : (account lease es).accepted = []) : lease = t.turn ∧ p ≠ .idle ∧ p.isOpen = true := by
  obtain ⟨c, hc, hlease⟩ := List.countP_pos_iff.mp hlive
  have hle := (h.stands.books.passes c hc).1
  rw [of_decide_eq_true hlease] at hle
  rcases h.account_cases lease with ⟨_, hclosed⟩ | ⟨rfl, hfits⟩ | ⟨hgt, _⟩
  · exact absurd hnone hclosed.done.1
  · have hp : p ≠ .idle := by
      rintro rfl
      exact Nat.ne_of_gt hlive h.stands.slot.counted
    refine ⟨rfl, hp, (hfits.isOpen_iff hp).mpr ?_⟩
    have hfirst := (h.single t.turn).accepted
    rw [hnone] at hfirst
    simpa using hfirst
  · omega

/-- A completer is told whether its lease has an outcome. -/
theorem Stands.told (h : t.Stands p) {lease : Nat} (hlive : 0 < t.live lease)
    (htime : t.turn < lease + 4294967296) :
    (t.step (.act lease .isSettled)).answer.answer = .truth (t.isResolved lease) := by
  obtain ⟨c, hfind, ⟨rfl, hp, hc⟩ | ⟨hlt, hne⟩⟩ := h.find_live hlive htime
  · have hresolved : t.isResolved t.turn = t.slot.word.isClaimed := by simp [isResolved]
    rw [step, step_completer hfind, hc, h.slot.isSettled_eq hp, hresolved, h.slot.isClaimed_eq hp]
    rfl
  · have hresolved : t.isResolved lease = true := by simp [isResolved, hlt]
    rw [step, step_completer hfind, Slot.isSettled_of_ne hne, hresolved]
    rfl

/-- A future that is still held finds the outcome of its lease, once there is one. -/
theorem Kept.poll_ready (h : t.Kept es p) {lease : Nat} (hheld : lease ∈ t.futures)
    (hresolved : t.isResolved lease = true) :
    ∃ v, (account lease es).accepted = [v] ∧
      ∀ w, (t.step (.act lease (.poll w))).answer.answer = .verdict v := by
  have hsome := (h.isResolved_iff lease).mp hresolved
  rcases h.stands.future_cases lease with hnone | ⟨rfl, _, _, ⟨w, rfl⟩ | ⟨v, rfl⟩⟩
  · exact absurd hheld hnone
  · exact absurd (h.present.accepted_pending) hsome
  · refine ⟨v, h.present.accepted_ready, fun w => ?_⟩
    rw [Tenancy.step, step_future hheld, Slot.poll_ready h.stands.slot]
    rfl

/-- While its lease lasts a slot counts the completers of the lease that are alive.  To count one
    more, or one less, leaves the generation and the flags of the word alone, and that is all that
    a copy of a completer does, and one that goes away without abandoning the lease. -/
structure CountsCompleters (t : Tenancy α κ) (lease : Nat) : Prop where
  generation : t.slot.word.generation = generationOf lease
  counted : t.slot.word.completers = t.live lease
  more : t.live lease < Word.maxCompleters →
    t.slot.word.Recounts (t.slot.word.enter 1) (t.live lease + 1)
  less : 0 < t.live lease → t.slot.word.Recounts t.slot.word.leave (t.live lease - 1)
  clone : 0 < t.live lease → t.live lease < Word.maxCompleters →
    (t.step (.act lease .clone)).state.slot = { t.slot with word := t.slot.word.enter 1 } ∧
      (t.step (.act lease .clone)).state.live lease = t.live lease + 1
  drop : 0 < t.live lease → t.live lease ≠ 1 ∨ t.isResolved lease = true →
    (t.step (.act lease .drop)).state.slot = { t.slot with word := t.slot.word.leave } ∧
      (t.step (.act lease .drop)).state.live lease = t.live lease - 1

theorem Kept.countsCompleters (h : t.Kept es p) (hp : p ≠ .idle) :
    t.CountsCompleters t.turn where
  generation := h.stands.slot.generation_eq
  counted := h.stands.slot.word.completers_eq
  more hroom := h.stands.slot.word.recounts (h.stands.slot.word.enter hroom)
  less hlive := by
    obtain ⟨n, hn⟩ := Nat.exists_eq_add_of_lt hlive
    have hword := h.stands.slot.word
    rw [Nat.zero_add] at hn
    rw [hn] at hword ⊢
    exact hword.recounts hword.leave
  clone hlive hroom := by
    obtain ⟨c, hfind, ⟨_, _, hc⟩ | ⟨hlt, _⟩⟩ :=
      h.stands.find_live hlive (Nat.lt_add_of_pos_right (by decide))
    · have hlease : c.lease = t.turn := by simpa using List.find?_some hfind
      rw [Tenancy.step, step_completer hfind, hc, Slot.enlist_counted h.stands.slot hroom]
      refine ⟨rfl, ?_⟩
      have hcons := liveIn_cons t.turn c t.completers
      rw [if_pos hlease] at hcons
      exact hcons
    · exact absurd hlt (Nat.lt_irrefl _)
  drop hlive hkept := by
    have htime : t.turn < t.turn + 4294967296 := Nat.lt_add_of_pos_right (by decide)
    have hleft := h.stands.step_drop_live hlive htime
    refine ⟨?_, by omega⟩
    obtain ⟨c, hfind, ⟨_, _, hc⟩ | ⟨hlt, _⟩⟩ := h.stands.find_live hlive htime
    · obtain ⟨n, hn⟩ := Nat.exists_eq_add_of_lt hlive
      have hslot := h.stands.slot
      rw [Nat.zero_add] at hn
      rw [hn] at hslot
      have hkept' : n ≠ 0 ∨ p.isOpen = false := by
        rcases hkept with hmore | hresolved
        · exact Or.inl (by omega)
        · have hsome := (h.isResolved_iff t.turn).mp hresolved
          refine Or.inr (Bool.eq_false_iff.mpr fun hopen => hsome ?_)
          rw [(h.single t.turn).accepted, (h.present.isOpen_iff hp).mp hopen]
          rfl
      rw [Tenancy.step, step_completer hfind, hc, Slot.dismiss_counted hslot hp hkept']
      rfl
    · exact absurd hlt (Nat.lt_irrefl _)

/-- The completer of a new lease is counted. -/
theorem Kept.counts_first (h : t.Kept es p) (hnone : (account t.turn es).signed = 0) :
    t.slot.word.Recounts (t.slot.word.enter 1) 1 ∧
      (t.step .lease).state.slot = { t.slot with word := t.slot.word.enter 1 } ∧
      (t.step .lease).state.live t.turn = 1 := by
  have hp : p = .idle := by
    refine Classical.byContradiction fun hp => ?_
    rw [h.present.signed_eq hp] at hnone
    cases hnone
  have hidle := h.stands.slot.isIdle_iff.mpr hp
  have hcounted := h.stands.slot.counted
  have hword := h.stands.slot.word
  rw [hp] at hcounted
  have hzero : t.live t.turn = 0 := hcounted
  rw [hzero] at hword
  refine ⟨hword.recounts (hword.enter (by decide)), ?_⟩
  rw [Tenancy.step, Slot.lease, if_pos hidle]
  refine ⟨rfl, ?_⟩
  have hcons := liveIn_cons t.turn ⟨t.turn, t.slot.generation⟩ t.completers
  rw [if_pos rfl] at hcons
  exact hcons.trans (congrArg (· + 1) hzero)

/-- A slot that was recycled does not hear of the completers of the lease that is over. -/
theorem Kept.stale_unheard (h : t.Kept es p) {lease : Nat}
    (hrecycled : (account lease es).recycled = 1) (htime : t.turn < lease + 4294967296) :
    (t.step (.act lease .clone)).state.slot = t.slot ∧
      (t.step (.act lease .drop)).state.slot = t.slot := by
  have hlt : lease < t.turn := by
    rcases h.account_cases lease with ⟨hlt, _⟩ | ⟨_, hfits⟩ | ⟨_, hblank⟩
    · exact hlt
    · exact absurd (hfits.recycled_eq.symm.trans hrecycled) Nat.zero_ne_one
    · rw [hblank] at hrecycled
      exact absurd hrecycled Nat.zero_ne_one
  rcases h.stands.completer_cases htime with hnone | ⟨heq, _⟩ | ⟨_, c, _, _, hne, hfind⟩
  · rw [Tenancy.step, Tenancy.step, step_no_completer hnone, step_no_completer hnone]
    exact ⟨rfl, rfl⟩
  · exact absurd heq (Nat.ne_of_lt hlt)
  · rw [step_stale_clone hfind hne, step_stale_drop hfind hne]
    exact ⟨rfl, rfl⟩

/-- A lease of which the slot stands in `t` and the log is `es` has its completers counted from the
    first one on, and unheard once the slot was recycled.  It is abandoned by the last of them if no
    completion was accepted, and never otherwise: the observer is told once, and then whoever wants
    the outcome is told that there will be none.  So a lease with an outcome was either completed or
    abandoned, and once only. -/
structure AbandonedExactly (observer : Observer) (t : Tenancy α κ) (lease : Nat)
    (es : List (Entry α κ)) : Prop where
  begins : lease = t.turn → (account lease es).signed = 0 →
    t.slot.word.Recounts (t.slot.word.enter 1) 1 ∧
      (t.step .lease).state.slot = { t.slot with word := t.slot.word.enter 1 } ∧
      (t.step .lease).state.live lease = 1
  counting : (account lease es).signed = 1 → (account lease es).recycled = 0 →
    t.CountsCompleters lease
  stale : (account lease es).recycled = 1 → t.turn < lease + 4294967296 →
    (t.step (.act lease .clone)).state.slot = t.slot ∧
      (t.step (.act lease .drop)).state.slot = t.slot
  told : 0 < t.live lease → t.turn < lease + 4294967296 →
    (t.step (.act lease .isSettled)).answer.answer = .truth (t.isResolved lease)
  last : t.live lease = 1 → completions lease es = 0 →
    Effect.abandonments (t.step (.act lease .drop)).effects = [observer] ∧
      t.isResolved lease = false ∧ (t.step (.act lease .drop)).state.isResolved lease = true
  only : ∀ e, t.InTime e → (t.entry e).lease = lease →
    Effect.abandonments (t.step e).effects ≠ [] →
      e = .act lease .drop ∧ t.live lease = 1 ∧ completions lease es = 0 ∧
        abandonments lease es = [] ∧ (account lease es).recycled = 0
  outcome : abandonments lease es ≠ [] → t.live lease = 0 ∧
    (∀ v ∈ (account lease es).delivered, v = .error .abandoned) ∧
    (lease ∈ t.futures →
      ∀ w, (t.step (.act lease (.poll w))).answer.answer = .verdict (.error .abandoned)) ∧
    ∀ j ∈ t.waiting, j.lease = lease → j.verdict = .error .abandoned
  once : completions lease es + (abandonments lease es).length ≤ 1
  resolved : t.isResolved lease = true ↔
    completions lease es + (abandonments lease es).length = 1
  resolving : ∀ e, t.InTime e → t.isResolved lease = false →
    ((t.step e).state.isResolved lease = true ↔ (t.entry e).lease = lease ∧
      ((t.entry e).completes = true ∨ Effect.abandonments (t.step e).effects ≠ []))

theorem Kept.resolving (h : t.Kept es p) {lease : Nat} {e : Event α κ} (htime : t.InTime e)
    (hopen : t.isResolved lease = false) :
    (t.step e).state.isResolved lease = true ↔ (t.entry e).lease = lease ∧
      ((t.entry e).completes = true ∨ Effect.abandonments (t.step e).effects ≠ []) := by
  obtain ⟨p', h'⟩ := h.step htime
  have hnone := h.accepted_of_unresolved hopen
  have hstep := h.stands.step_accepts htime
  rw [h'.isResolved_iff, account_concat]
  by_cases hlease : (t.entry e).lease = lease
  · rw [if_pos hlease, Account.add, hnone, List.nil_append, ← List.length_pos_iff, hstep,
      ← List.length_pos_iff]
    cases (t.entry e).completes with
    | false => simp [hlease]
    | true =>
      simp only [hlease, Bool.toNat_true, true_or, and_self, iff_true]
      omega
  · simp [hnone, hlease]

theorem Attributed.abandonedExactly (ha : t.Attributed es) (h : t.Kept es p) (lease : Nat) :
    AbandonedExactly t.slot.observer t lease es where
  begins hlease hnone := by
    subst hlease
    exact h.counts_first hnone
  stale hrecycled htime := h.stale_unheard hrecycled htime
  told hlive htime := h.stands.told hlive htime
  counting hsigned hrecycled := by
    obtain ⟨rfl, hp⟩ := h.lasts hsigned hrecycled
    exact h.countsCompleters hp
  last hone hnone := by
    have htotal := ha.total lease
    have hquiet : abandonments lease es = [] := by
      refine Classical.byContradiction fun hsome => ?_
      have hdead := (ha.deserted lease hsome).2
      omega
    rw [hnone, hquiet] at htotal
    have haccepted := List.length_eq_zero_iff.mp htotal.symm
    obtain ⟨rfl, _, hopen⟩ := h.open_of_live (by omega) haccepted
    have htime : t.turn < t.turn + 4294967296 := Nat.lt_add_of_pos_right (by decide)
    have hreports := h.stands.step_drop_abandonments htime
    rw [if_pos ⟨rfl, hopen, hone⟩] at hreports
    have hunresolved : t.isResolved t.turn = false := by
      rw [Bool.eq_false_iff, Ne, h.isResolved_iff]
      exact fun hsome => hsome haccepted
    have hresolving := h.resolving (e := .act t.turn .drop) (fun _ => htime) hunresolved
    refine ⟨hreports, hunresolved, hresolving.mpr ⟨rfl, Or.inr ?_⟩⟩
    rw [hreports]
    exact List.cons_ne_nil _ _
  only e htime hlease hsome := by
    obtain ⟨rfl, hopen, hone⟩ := h.stands.step_abandons htime hsome
    obtain rfl : t.turn = lease := hlease
    have hp : p ≠ .idle := by
      rintro rfl
      cases hopen
    have haccepted := (h.single t.turn).accepted
    rw [(h.present.isOpen_iff hp).mp hopen, List.take_nil] at haccepted
    have htotal := ha.total t.turn
    rw [haccepted, List.length_nil] at htotal
    refine ⟨rfl, hone, by omega, List.length_eq_zero_iff.mp (by omega), h.present.recycled_eq⟩
  outcome hsome := by
    obtain ⟨haccepted, hdead⟩ := ha.deserted lease hsome
    refine ⟨hdead, fun v hv => ?_, fun hheld w => ?_, fun j hj hlease => ?_⟩
    · have hmem := (h.single lease).delivered.subset hv
      rw [haccepted] at hmem
      exact List.mem_singleton.mp hmem
    · have hresolved : t.isResolved lease = true := by
        rw [h.isResolved_iff, haccepted]
        exact List.cons_ne_nil _ _
      obtain ⟨v, hv, hpoll⟩ := h.poll_ready hheld hresolved
      rw [haccepted] at hv
      cases hv
      exact hpoll w
    · subst hlease
      rcases h.stands.waiting_cases j.lease with hnone | ⟨hturn, k, v, rfl, hfind, _⟩
      · exact absurd (decide_eq_true rfl) (List.find?_eq_none.mp hnone j hj)
      · have hv := h.present.accepted_waiting
        rw [← hturn, haccepted] at hv
        cases hv
        rw [h.stands.books.waiting] at hj
        rw [List.mem_singleton.mp hj]
  once := by
    rw [ha.total]
    exact h.accepted_le lease
  resolved := by
    have hle := h.accepted_le lease
    rw [h.isResolved_iff, ha.total, ← List.length_pos_iff]
    omega
  resolving e htime hopen := h.resolving htime hopen

/-- **A lease is abandoned by the last of its completers, and then no completion was accepted.** -/
theorem abandoned_exactly (home : Home) (deferred : Bool) (observer : Observer)
    (events : List (Event α κ)) (htimely : (new home deferred observer).Timely events)
    (lease : Nat) :
    AbandonedExactly observer ((new home deferred observer).after events) lease
      ((new home deferred observer).log events) := by
  obtain ⟨p, h⟩ := after_kept home deferred observer htimely
  have ha := (new_attributed home deferred observer).after (new_kept home deferred observer) htimely
  have hexactly := ha.abandonedExactly h lease
  rw [(after_alike (new home deferred observer) events).observer] at hexactly
  exact hexactly

/-- A task waits for an outcome, and both completers go away; then the slot is leased again, and
    the second lease is completed. -/
def forsaken : List (Event Nat String) :=
  [.lease, .act 0 .clone, .act 0 (.poll 3), .act 0 .drop, .act 0 .drop, .act 0 (.poll 3), .lease,
    .act 1 (.complete (.ok 7)), .act 1 .drop]

theorem abandoned_exactly_forsaken :
    (new .nowhere false .quiet).Timely forsaken ∧
      AbandonedExactly .quiet ((new .nowhere false .quiet).after forsaken) 0
        ((new .nowhere false .quiet).log forsaken) ∧
      abandonments 0 ((new .nowhere false .quiet).log forsaken) = [.quiet] ∧
      completions 1 ((new .nowhere false .quiet).log forsaken) = 1 ∧
      account 0 ((new .nowhere false .quiet).log forsaken)
        = { signed := 1, attempts := [.error .abandoned], accepted := [.error .abandoned]
            delivered := [.error .abandoned], released := 1, recycled := 1, polled := [3]
            woken := [3] } :=
  have htimely := timely_of_length_le (by decide)
  ⟨htimely, abandoned_exactly .nowhere false .quiet forsaken htimely 0, by rfl, by rfl, by rfl⟩

end Tenancy

end Lease

end Conduit

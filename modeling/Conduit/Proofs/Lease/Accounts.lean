/-
  Conduit/Proofs/Lease/Accounts.lean
  ==================================
  **What the account of a lease can look like.**

  The account of the present lease fits the phase that the slot stands in, and the
  account of a lease that is over is closed: there are few ways for either, and every
  move leads from one of them to another.  Whatever comes too late adds to the outcomes
  that were offered and to nothing else.

  `Kept` is what a history keeps of its log.  It holds of an empty one, and an event
  preserves it.
-/
import Conduit.Proofs.Lease.Conduct
import Conduit.Proofs.Lease.Course

namespace Conduit.Lease

/-! ### Adding up -/

namespace Account

variable {α κ : Type}

theorem add_blank (a : Account α κ) : a.add .blank = a := by
  simp [add, blank]

theorem blank_add (a : Account α κ) : blank.add a = a := by
  simp [add, blank]

theorem add_assoc (a b c : Account α κ) : (a.add b).add c = a.add (b.add c) := by
  simp [add, Nat.add_assoc]

end Account

section

variable {α κ : Type}

theorem account_append (lease : Nat) (es fs : List (Entry α κ)) :
    account lease (es ++ fs) = (account lease es).add (account lease fs) := by
  induction es with
  | nil => exact (Account.blank_add _).symm
  | cons e es ih =>
    rw [List.cons_append, account, account, ih]
    split
    · rw [Account.add_assoc]
    · rfl

/-- An entry adds its share to the account of its lease, and nothing to any other. -/
theorem account_concat (lease : Nat) (es : List (Entry α κ)) (e : Entry α κ) :
    account lease (es ++ [e])
      = if e.lease = lease then (account lease es).add e.share else account lease es := by
  rw [account_append, account, account, Account.add_blank]
  split
  · rfl
  · exact Account.add_blank _

end

/-! ### Accounts of a lease that lasts -/

/-- The account of a lease in a phase.  `ws` are the wakers of the polls so far, and `late` is what
    was offered too late. -/
inductive Fits {α κ : Type} (deferred : Bool) : Phase α κ → Account α κ → Prop
  | idle : Fits deferred .idle .blank
  | pending (ws : List Waker) :
    Fits deferred (.pending ws.getLast?) { signed := 1, polled := ws }
  | ready (ws : List Waker) (v : Verdict α) (late : List (Verdict α)) :
    Fits deferred (.ready v)
      { signed := 1, attempts := v :: late, accepted := [v]
        polled := ws, woken := ws.getLast?.toList }
  | expecting (ws : List Waker) (k : κ) :
    Fits deferred (.expecting k)
      { signed := 1, registered := [k], polled := ws }
  | detached (ws : List Waker) :
    Fits deferred .detached { signed := 1, released := 1, polled := ws }
  | waiting (ws : List Waker) (k : κ) (v : Verdict α) (late : List (Verdict α))
    (hdeferred : deferred = true) :
    Fits deferred (.handed (.waiting k v))
      { signed := 1, attempts := v :: late, accepted := [v]
        registered := [k], polled := ws }
  | running (ws woken : List Waker) (k : κ) (v : Verdict α) (late : List (Verdict α))
    (hwoken : woken ⊆ ws) :
    Fits deferred (.handed (.running k v))
      { signed := 1, attempts := v :: late, accepted := [v], delivered := [v]
        registered := [k], runs := [(k, v)], polled := ws, woken := woken }
  | discarded (ws : List Waker) (k : κ) (v : Verdict α) (late : List (Verdict α))
    (hdeferred : deferred = true) :
    Fits deferred (.handed .lost)
      { signed := 1, attempts := v :: late, accepted := [v]
        registered := [k], discarded := 1, polled := ws }
  | failed (ws woken : List Waker) (k : κ) (v : Verdict α) (late : List (Verdict α))
    (hwoken : woken ⊆ ws) :
    Fits deferred (.handed .lost)
      { signed := 1, attempts := v :: late, accepted := [v], delivered := [v]
        registered := [k], runs := [(k, v)], polled := ws, woken := woken }

/-- The account of a lease that is over: the future took the outcome, or it was dropped, or the
    continuation has returned. -/
inductive Closed {α κ : Type} : Account α κ → Prop
  | taken (ws : List Waker) (v : Verdict α) (late : List (Verdict α)) :
    Closed
      { signed := 1, attempts := v :: late, accepted := [v], delivered := [v]
        released := 1, recycled := 1, polled := ws, woken := ws.getLast?.toList }
  | dropped (ws woken : List Waker) (v : Verdict α) (late : List (Verdict α))
    (hwoken : woken ⊆ ws) :
    Closed
      { signed := 1, attempts := v :: late, accepted := [v]
        released := 1, recycled := 1, polled := ws, woken := woken }
  | returned (ws woken : List Waker) (k : κ) (v : Verdict α) (late : List (Verdict α))
    (hwoken : woken ⊆ ws) :
    Closed
      { signed := 1, attempts := v :: late, accepted := [v], delivered := [v]
        registered := [k], runs := [(k, v)], released := 1, recycled := 1
        polled := ws, woken := woken }

section

variable {α κ : Type} {deferred : Bool} {p p' : Phase α κ} {a share : Account α κ}

theorem last_subset (ws : List Waker) : ws.getLast?.toList ⊆ ws := by
  intro w hw
  exact List.mem_of_getLast? (Option.mem_toList.mp hw)

/-- What is offered after the lease is over leaves its account closed. -/
theorem Closed.late (h : Closed a) (vs : List (Verdict α)) :
    Closed (a.add { attempts := vs }) := by
  cases h with
  | taken ws v late => simpa [Account.add] using Closed.taken ws v (late ++ vs)
  | dropped ws woken v late hwoken =>
    simpa [Account.add] using Closed.dropped ws woken v (late ++ vs) hwoken
  | returned ws woken k v late hwoken =>
    simpa [Account.add] using Closed.returned ws woken k v (late ++ vs) hwoken

/-- **A move leads from an account that fits to one that fits, or closes it.** -/
theorem Fits.move (h : Fits deferred p a) (hmove : Move deferred p share p') :
    (share.recycled = 0 ∧ Fits deferred p' (a.add share)) ∨
    (share.recycled = 1 ∧ p' = .idle ∧ Closed (a.add share)) := by
  cases hmove with
  | sign =>
    cases h
    exact Or.inl ⟨rfl, .pending []⟩
  | stay => exact Or.inl ⟨rfl, by rwa [Account.add_blank]⟩
  | refuse _ v' hopen hp =>
    refine Or.inl ⟨rfl, ?_⟩
    cases h with
    | idle => exact absurd rfl hp
    | pending | expecting | detached => cases hopen
    | ready ws v late => simpa [Account.add] using Fits.ready ws v (late ++ [v'])
    | waiting ws k v late hd =>
      simpa [Account.add] using Fits.waiting ws k v (late ++ [v']) hd
    | running ws woken k v late hw =>
      simpa [Account.add] using Fits.running ws woken k v (late ++ [v']) hw
    | discarded ws k v late hd =>
      simpa [Account.add] using Fits.discarded ws k v (late ++ [v']) hd
    | failed ws woken k v late hw =>
      simpa [Account.add] using Fits.failed ws woken k v (late ++ [v']) hw
  | settle w v =>
    cases h with
    | pending ws => exact Or.inl ⟨rfl, by simpa [Account.add] using Fits.ready ws v []⟩
  | defer k v hd =>
    cases h with
    | expecting ws =>
      exact Or.inl ⟨rfl, by simpa [Account.add] using Fits.waiting ws k v [] hd⟩
  | resume k v =>
    cases h with
    | expecting ws =>
      have hfits : Fits deferred _ _ := .running ws [] k v [] (List.nil_subset ws)
      exact Or.inl ⟨rfl, by simpa [Account.add] using hfits⟩
  | settleDetached v =>
    cases h with
    | detached ws =>
      have hclosed := Closed.dropped (κ := κ) ws [] v [] (List.nil_subset ws)
      exact Or.inr ⟨rfl, rfl, by simpa [Account.add] using hclosed⟩
  | poll w w' =>
    cases h with
    | pending ws =>
      have hfits : Fits (α := α) (κ := κ) deferred _ _ := .pending (ws ++ [w'])
      exact Or.inl ⟨rfl, by simpa [Account.add] using hfits⟩
  | take v =>
    cases h with
    | ready ws _ late =>
      exact Or.inr ⟨rfl, rfl, by simpa [Account.add] using Closed.taken ws v late⟩
  | register w k =>
    cases h with
    | pending ws =>
      have hfits : Fits (α := α) deferred _ _ := .expecting ws k
      exact Or.inl ⟨rfl, by simpa [Account.add] using hfits⟩
  | registerReady v k =>
    cases h with
    | ready ws _ late =>
      have hfits : Fits deferred _ _ := .running ws _ k v late (last_subset ws)
      exact Or.inl ⟨rfl, by simpa [Account.add] using hfits⟩
  | detach w =>
    cases h with
    | pending ws =>
      have hfits : Fits (α := α) (κ := κ) deferred _ _ := .detached ws
      exact Or.inl ⟨rfl, by simpa [Account.add] using hfits⟩
  | detachReady v =>
    cases h with
    | ready ws _ late =>
      have hclosed := Closed.dropped (κ := κ) ws _ v late (last_subset ws)
      exact Or.inr ⟨rfl, rfl, by simpa [Account.add] using hclosed⟩
  | start k v =>
    cases h with
    | waiting ws _ _ late hd =>
      have hfits : Fits deferred _ _ := .running ws [] k v late (List.nil_subset ws)
      exact Or.inl ⟨rfl, by simpa [Account.add] using hfits⟩
  | discard k v hd =>
    cases h with
    | waiting ws _ _ late =>
      exact Or.inl ⟨rfl, by simpa [Account.add] using Fits.discarded ws k v late hd⟩
  | finish k v =>
    cases h with
    | running ws woken _ _ late hw =>
      have hclosed := Closed.returned ws woken k v late hw
      exact Or.inr ⟨rfl, rfl, by simpa [Account.add] using hclosed⟩
  | fail k v =>
    cases h with
    | running ws woken _ _ late hw =>
      exact Or.inl ⟨rfl, by rw [Account.add_blank]; exact .failed ws woken k v late hw⟩

end

/-! ### What a history keeps -/

namespace Tenancy

variable {α κ : Type} {t : Tenancy α κ} {p : Phase α κ}

/-- What a history keeps of its log: the account of the present lease fits the phase of the slot,
    those of earlier leases are closed, and those of later ones blank. -/
structure Kept (t : Tenancy α κ) (es : List (Entry α κ)) (p : Phase α κ) : Prop where
  stands : t.Stands p
  present : Fits t.slot.deferred p (account t.turn es)
  past : ∀ lease < t.turn, Closed (account lease es)
  future : ∀ lease, t.turn < lease → account lease es = .blank

/-- The account of an earlier lease, of the present one, and of a later one. -/
theorem Kept.account_cases {es : List (Entry α κ)} (h : t.Kept es p) (lease : Nat) :
    (lease < t.turn ∧ Closed (account lease es)) ∨
    (lease = t.turn ∧ Fits t.slot.deferred p (account lease es)) ∨
    (t.turn < lease ∧ account lease es = .blank) := by
  rcases Nat.lt_trichotomy lease t.turn with hlt | rfl | hgt
  · exact Or.inl ⟨hlt, h.past lease hlt⟩
  · exact Or.inr (Or.inl ⟨rfl, h.present⟩)
  · exact Or.inr (Or.inr ⟨hgt, h.future lease hgt⟩)

theorem new_kept (home : Home) (deferred : Bool) (observer : Observer) :
    (new home deferred observer : Tenancy α κ).Kept [] .idle where
  stands := new_stands home deferred observer
  present := .idle
  past _ hlease := absurd hlease (Nat.not_lt_zero _)
  future _ _ := rfl

/-- An event of the present lease. -/
theorem Kept.step_present {es : List (Entry α κ)} (h : t.Kept es p) {e : Event α κ}
    {p' : Phase α κ} (hadvances : t.Advances p e p') (hlease : (t.entry e).lease = t.turn) :
    (t.step e).state.Kept (es ++ [t.entry e]) p' := by
  have halike := (step_behaves t e).alike
  have hpresent := account_concat t.turn es (t.entry e)
  rw [if_pos hlease] at hpresent
  have hothers : ∀ lease, lease ≠ t.turn →
      account lease (es ++ [t.entry e]) = account lease es := by
    intro lease hne
    rw [account_concat, if_neg]
    exact fun heq => hne (heq ▸ hlease)
  have hturn := hadvances.turn
  rcases h.present.move (hadvances.present hlease) with ⟨hlasts, hfits⟩ | ⟨hover, rfl, hclosed⟩
  · rw [hlasts, Nat.add_zero] at hturn
    refine ⟨hadvances.stands, ?_, fun lease hlt => ?_, fun lease hlt => ?_⟩
    · rw [hturn, hpresent, halike.deferred]
      exact hfits
    · rw [hturn] at hlt
      rw [hothers lease (Nat.ne_of_lt hlt)]
      exact h.past lease hlt
    · rw [hturn] at hlt
      rw [hothers lease (Nat.ne_of_gt hlt)]
      exact h.future lease hlt
  · rw [hover] at hturn
    refine ⟨hadvances.stands, ?_, fun lease hlt => ?_, fun lease hlt => ?_⟩
    · rw [hturn, hothers _ (Nat.succ_ne_self _), h.future _ (Nat.lt_succ_self _)]
      exact .idle
    · rw [hturn] at hlt
      rcases Nat.lt_succ_iff_lt_or_eq.mp hlt with hearlier | rfl
      · rw [hothers lease (Nat.ne_of_lt hearlier)]
        exact h.past lease hearlier
      · rw [hpresent]
        exact hclosed
    · rw [hturn] at hlt
      have hlater := Nat.lt_of_succ_lt hlt
      rw [hothers lease (Nat.ne_of_gt hlater)]
      exact h.future lease hlater

/-- An event of another lease. -/
theorem Kept.step_bygone {es : List (Entry α κ)} (h : t.Kept es p) {e : Event α κ}
    {p' : Phase α κ} (hadvances : t.Advances p e p') (hlease : (t.entry e).lease ≠ t.turn) :
    (t.step e).state.Kept (es ++ [t.entry e]) p' := by
  obtain ⟨rfl, vs, hshare, hearlier⟩ := hadvances.bygone hlease
  have hturn : (t.step e).state.turn = t.turn := by
    rw [hadvances.turn, hshare]
    rfl
  refine ⟨hadvances.stands, ?_, fun lease hlt => ?_, fun lease hlt => ?_⟩
  · rw [hturn, (step_behaves t e).alike.deferred, account_concat, if_neg hlease]
    exact h.present
  · rw [hturn] at hlt
    rw [account_concat]
    split
    · rw [hshare]
      exact (h.past lease hlt).late vs
    · exact h.past lease hlt
  · rw [hturn] at hlt
    rw [account_concat]
    split
    · next heq =>
      rw [hshare, hearlier (heq ▸ hlt), h.future lease hlt]
      rfl
    · exact h.future lease hlt

/-- **An event that is in time keeps the accounts in order.** -/
theorem Kept.step {es : List (Entry α κ)} (h : t.Kept es p) {e : Event α κ}
    (htime : t.InTime e) : ∃ p', (t.step e).state.Kept (es ++ [t.entry e]) p' := by
  obtain ⟨p', hadvances⟩ := step_advances h.stands htime
  by_cases hlease : (t.entry e).lease = t.turn
  · exact ⟨p', h.step_present hadvances hlease⟩
  · exact ⟨p', h.step_bygone hadvances hlease⟩

theorem Kept.after {es : List (Event α κ)} {before : List (Entry α κ)} (h : t.Kept before p)
    (htimely : t.Timely es) : ∃ p', (t.after es).Kept (before ++ t.log es) p' := by
  induction es generalizing t before p with
  | nil => exact ⟨p, (List.append_nil before).symm ▸ h⟩
  | cons e es ih =>
    obtain ⟨q, hq⟩ := h.step htimely.1
    obtain ⟨p', hp'⟩ := ih hq htimely.2
    refine ⟨p', ?_⟩
    rw [log, List.append_cons]
    exact hp'

/-- **A timely history of a new slot keeps its accounts in order.** -/
theorem after_kept (home : Home) (deferred : Bool) (observer : Observer) {es : List (Event α κ)}
    (htimely : (new home deferred observer).Timely es) :
    ∃ p, ((new home deferred observer).after es).Kept ((new home deferred observer).log es) p :=
  (new_kept home deferred observer).after htimely

end Tenancy

end Conduit.Lease

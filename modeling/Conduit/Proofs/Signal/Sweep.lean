/-
  Conduit/Proofs/Signal/Sweep.lean
  ================================
  **One poll of each wait delivers every release.**

  While no thread waits and nobody sets the signal, all registered waits are polled once,
  in some order.  Which of them are released differs from signal to signal, and with the
  order; how many does not: as many as releases are pending, or all.  What is left over is
  nothing, or one release that the next caller takes.

  The polls that are still to come split the registered waits in two: those polled in
  vain so far, which were all missed, and those not polled yet.  From the first poll in
  vain on, no more releases are pending than waits are still to be polled (`Sweepable`),
  so each of them finds its wait before the sweep is over.
-/
import Conduit.Proofs.Signal.Missed
import Conduit.Proofs.Signal.Wakeups

namespace Conduit.Signal

open Tracked Staged

/-! ### Sweeps -/

/-- The request that polls a handle. -/
def Handle.pollWith (w : Waker) : Handle → Request
  | .wait id => .poll id w
  | .key id => .pollKey id w

/-- Handles to be polled one after another, each with the waker for it. -/
abbrev Sweep := List (Handle × Waker)

def Sweep.requests (polls : Sweep) : List Request := polls.map fun x => x.1.pollWith x.2

/-- A stage with a ticket is registered under it. -/
theorem Stage.of_ticket? {τ : Type} {stage : Stage τ} {t : τ} (h : stage.ticket? = some t) :
    stage = .registered t := by
  cases stage with
  | registered t' => exact congrArg _ (Option.some.inj h)
  | idle => exact absurd h (by simp [Stage.ticket?])
  | spent => exact absurd h (by simp [Stage.ticket?])

/-! ### Polled in vain, and still to be polled -/

section Parted

variable {σ ω τ : Type} [Facilities σ ω] [Staged ω τ] [Tracked σ ω τ] [Sweepable σ ω τ]
variable {s : σ} {wait : ω} {age : Nat} {t : τ} {K K' D R : List τ}

/-- The registered tickets `K` of a signal without threads are those that were polled in vain and
    those that are still to be polled. -/
structure Parted (age : Nat) (K D R : List τ) (s : σ) : Prop where
  sound : Sound age K [] s
  split : K.Perm (D ++ R)
  missed : ∀ t ∈ D, Sweepable.Missed s t

/-- Among the others the ticket that is polled next is still to be polled. -/
theorem Parted.others (h : Parted age (t :: K) D (t :: R) s) : K.Perm (D ++ R) :=
  (h.split.trans List.perm_middle).cons_inv

theorem Parted.still_missed (h : Parted age (t :: K) D (t :: R) s) (w : Waker)
    (hwait : stage wait = .registered t) :
    ∀ t' ∈ D, Sweepable.Missed (AutoReset.poll w wait s).state t' := by
  intro t' hmem
  have hother : t' ∈ K := h.others.mem_iff.mpr (List.mem_append_left _ hmem)
  exact Sweepable.poll_keeps w hwait h.sound hother (h.missed t' hmem)

variable [LawfulSignal σ ω τ]

theorem Parted.perm (h : Parted age K D R s) (hK : K.Perm K') : Parted age K' D R s :=
  ⟨LawfulSignal.perm hK (.refl _) h.sound, hK.symm.trans h.split, h.missed⟩

/-- A poll that releases its wait takes a release with it. -/
theorem Parted.released (h : Parted age (t :: K) D (t :: R) s) (w : Waker)
    (hwait : stage wait = .registered t) (hready : (AutoReset.poll w wait s).answer.1 = true) :
    Parted (age + 1) K D R (AutoReset.poll w wait s).state ∧
      (countsOf s).pending = (countsOf (AutoReset.poll w wait s).state).pending + 1 ∧
      (countsOf s).registered = (countsOf (AutoReset.poll w wait s).state).registered + 1 := by
  rcases LawfulSignal.poll_registered w hwait h.sound with ⟨_, _, hsound, hturn⟩ | ⟨hvain, _⟩
  · exact ⟨⟨hsound, h.others, h.still_missed w hwait⟩, hturn.counts.resolve_counts⟩
  · exact absurd (hvain.symm.trans hready) (by simp)

/-- A poll in vain leaves the counts as they are, and no more releases are pending than waits are
    still to be polled. -/
theorem Parted.vain (h : Parted age (t :: K) D (t :: R) s) (w : Waker)
    (hwait : stage wait = .registered t) (hvain : (AutoReset.poll w wait s).answer.1 = false) :
    Parted (age + 1) (t :: K) (t :: D) R (AutoReset.poll w wait s).state ∧
      countsOf (AutoReset.poll w wait s).state = countsOf s ∧
      (countsOf s).pending ≤ R.length := by
  rcases LawfulSignal.poll_registered w hwait h.sound with
    ⟨hready, _⟩ | ⟨_, _, hsound, hturn, _⟩
  · exact absurd (hready.symm.trans hvain) (by simp)
  · have hmissed := List.forall_mem_cons.mpr
      ⟨Sweepable.missed w hwait h.sound hvain, h.still_missed w hwait⟩
    have hsplit : (t :: K).Perm ((t :: D) ++ R) := h.others.cons t
    have hcounts := hturn.counts.nil_eq
    have hshort := Sweepable.short (LawfulSignal.perm hsplit (.refl _) hsound)
      (List.cons_ne_nil _ _) hmissed
    refine ⟨⟨hsound, hsplit, hmissed⟩, hcounts, ?_⟩
    rw [← hcounts]
    exact hshort

/-- A wait that ends right after a poll in vain takes no release with it. -/
theorem Parted.ended (h : Parted age (t :: K) (t :: D) R s) (hwait : stage wait = .registered t) :
    Parted age K D R (AutoReset.drop wait s).state ∧
      (countsOf (AutoReset.drop wait s).state).pending = (countsOf s).pending ∧
      (countsOf s).registered = (countsOf (AutoReset.drop wait s).state).registered + 1 := by
  obtain ⟨hsound, hturn⟩ := LawfulSignal.drop_registered hwait h.sound
  obtain ⟨hpending, hregistered⟩ := hturn.counts.withdraw_counts
  have hothers : K.Perm (D ++ R) := h.split.cons_inv
  have hshort : (countsOf s).pending ≤ R.length :=
    Sweepable.short (LawfulSignal.perm h.split (.refl _) h.sound) (List.cons_ne_nil _ _) h.missed
  have hroom : R.length ≤ (countsOf s).registered := by
    have hall : (countsOf s).registered = (t :: K).length + ([] : List Thread).length :=
      LawfulSignal.registered h.sound
    have hlength := hothers.length_eq
    rw [List.length_append] at hlength
    rw [hall, List.length_cons]
    omega
  refine ⟨⟨hsound, hothers, fun t' hmem => ?_⟩, ?_, hregistered⟩
  · have hother : t' ∈ K := hothers.mem_iff.mpr (List.mem_append_left _ hmem)
    exact Sweepable.drop_keeps hwait h.sound (h.missed t List.mem_cons_self) hother
      (h.missed t' (List.mem_cons_of_mem _ hmem))
  · rw [hpending]
    exact Nat.min_eq_left (Nat.le_trans hshort hroom)

end Parted

namespace Session

section Statements

variable {σ ω τ : Type} [Facilities σ ω] [Staged ω τ]

/-- How many waits a sweep releases. -/
def released (s : Session σ ω) (polls : Sweep) : Nat :=
  (s.run polls.requests).countP fun o => o.answer.1 == .ready

/-- A sweep that polls every wait that the signal counts as registered, each once.  Since every
    one of them is held under a name, no thread is blocked in the signal. -/
structure Covers (s : Session σ ω) (polls : Sweep) : Prop where
  distinct : (polls.map Prod.fst).Nodup
  registered : ∀ x ∈ polls, s.isRegistered x.1 = true
  all : polls.length = AutoReset.registeredWaits s.signal

/-- What comes of a sweep of `n` waits for `p` releases: as many waits are released as there are
    releases for them, one release is left if there are more, and it is for the next caller and
    for no other. -/
structure Delivers (s : Session σ ω) (polls : Sweep) (p n : Nat) : Prop where
  released : s.released polls = min p n
  left : AutoReset.pendingReleases (s.after polls.requests).signal = (decide (n < p)).toNat
  next : ((s.after polls.requests).step .tryWait).answer.1 = .truth (decide (n < p))
  drained : (((s.after polls.requests).step .tryWait).state.step .tryWait).answer.1 = .truth false

/-- What comes of every sweep of the registered waits. -/
def SweptOut (s : Session σ ω) : Prop :=
  ∀ polls, s.Covers polls →
    s.Delivers polls (AutoReset.pendingReleases s.signal) (AutoReset.registeredWaits s.signal) ∧
      AutoReset.pendingReleases (s.after polls.requests).signal
        = AutoReset.pendingReleases s.signal
          - min (AutoReset.pendingReleases s.signal) (AutoReset.registeredWaits s.signal) ∧
      AutoReset.pendingReleases (s.after polls.requests).signal ≤ 1

/-- Waits that are begun under names and polled, one after another. -/
def arrivals (xs : List (String × Waker)) : List Request :=
  xs.flatMap fun x => [.wait x.1, .poll x.1 x.2]

/-- What comes of a signal that is set `n` times while these waits are pending, and of a sweep of
    them in any order. -/
def SetAndSwept (s : Session σ ω) (xs : List (String × Waker)) (n : Nat) : Prop :=
  ∀ polls : Sweep, (polls.map Prod.fst).Perm (xs.map fun x => .wait x.1) →
    (s.after (arrivals xs ++ List.replicate n .set)).Delivers polls n xs.length

end Statements

variable {σ ω τ : Type} [Facilities σ ω] [Staged ω τ] [Tracked σ ω τ]
variable {s : Session σ ω} {orphans : List τ} {age : Nat} {h h' : Handle} {t : τ}

/-! ### The tickets of several handles -/

/-- A session without what a handle holds. -/
def without (s : Session σ ω) : Handle → Session σ ω
  | .wait id => { s with waits := s.waits.erase id }
  | .key id => { s with keys := s.keys.erase id }

theorem without_ticket? (hne : h' ≠ h) : (s.without h).ticket? h' = s.ticket? h' := by
  cases h with
  | wait id =>
    cases h' with
    | wait id' =>
      have hid : id' ≠ id := fun heq => hne (congrArg _ heq)
      simp only [without, ticket?, Named.get?_erase_ne _ hid]
    | key id' => rfl
  | key id =>
    cases h' with
    | wait id' => rfl
    | key id' =>
      have hid : id' ≠ id := fun heq => hne (congrArg _ heq)
      simp only [without, ticket?, Named.get?_erase_ne _ hid]

omit [Staged ω τ] [Tracked σ ω τ] [Facilities σ ω] in
theorem without_distinct (hnames : s.waits.Distinct) (hkeys : s.keys.Distinct) (h : Handle) :
    (s.without h).waits.Distinct ∧ (s.without h).keys.Distinct := by
  cases h with
  | wait id => exact ⟨hnames.erase id, hkeys⟩
  | key id => exact ⟨hnames, hkeys.erase id⟩

/-- The tickets of a session are that of one handle and those of the session without it. -/
theorem tickets_without (hnames : s.waits.Distinct) (hkeys : s.keys.Distinct) (h : Handle) :
    s.tickets.Perm ((s.ticket? h).toList ++ (s.without h).tickets) := by
  have hperm := tickets_perm hnames hkeys [] h
  rw [List.append_nil] at hperm
  refine hperm.trans (List.Perm.append_left _ ?_)
  cases h with
  | wait id =>
    simp only [beside, List.append_nil]
    exact .refl _
  | key id =>
    simp only [beside, List.append_nil]
    exact List.perm_append_comm

/-- Distinct handles have tickets of their own among those of the session. -/
theorem exists_tickets (hs : List Handle) : ∀ {s : Session σ ω}, s.waits.Distinct →
    s.keys.Distinct → hs.Nodup → (∀ h ∈ hs, ∃ t, s.ticket? h = some t) →
    ∃ R rest, hs.map s.ticket? = R.map some ∧ s.tickets.Perm (R ++ rest) := by
  induction hs with
  | nil =>
    intro s _ _ _ _
    exact ⟨[], s.tickets, rfl, .refl _⟩
  | cons h hs ih =>
    intro s hnames hkeys hdistinct hheld
    obtain ⟨hfirst, hdistinct⟩ := List.nodup_cons.mp hdistinct
    obtain ⟨t, ht⟩ := hheld h List.mem_cons_self
    obtain ⟨hnames', hkeys'⟩ := without_distinct hnames hkeys h
    have hsame : ∀ h' ∈ hs, (s.without h).ticket? h' = s.ticket? h' := by
      intro h' hmem
      exact without_ticket? fun heq => hfirst (heq ▸ hmem)
    obtain ⟨R, rest, hR, hperm⟩ := ih hnames' hkeys' hdistinct (by
      intro h' hmem
      rw [hsame h' hmem]
      exact hheld h' (List.mem_cons_of_mem _ hmem))
    refine ⟨t :: R, rest, ?_, ?_⟩
    · rw [List.map_cons, List.map_cons, ht, ← hR, List.map_congr_left hsame]
    · have hall := tickets_without hnames hkeys h
      rw [ht] at hall
      exact hall.trans (hperm.cons t)

variable [LawfulSignal σ ω τ]

/-- A sweep that covers all registered waits leaves no room for threads, for orphans, or for
    tickets of other handles. -/
theorem Covers.tickets {polls : Sweep} (hcovers : s.Covers polls) (hfits : Fits orphans age s) :
    ∃ R, polls.map (fun x => s.ticket? x.1) = R.map some ∧ s.tickets.Perm R ∧
      orphans = [] ∧ s.blocked = [] := by
  obtain ⟨R, rest, hR, hperm⟩ := exists_tickets (polls.map Prod.fst) hfits.names hfits.key_names
    hcovers.distinct (by
      intro h hmem
      obtain ⟨x, hx, rfl⟩ := List.mem_map.mp hmem
      exact (isRegistered_iff hfits x.1).mp (hcovers.registered x hx))
  rw [List.map_map] at hR
  have hlength : polls.length = R.length := by
    have hlengths := congrArg List.length hR
    rw [List.length_map, List.length_map] at hlengths
    exact hlengths
  have hregistered := LawfulSignal.registered hfits.sound
  have htickets := hperm.length_eq
  rw [← hcovers.all, List.length_append, htickets, List.length_append] at hregistered
  have hrest : rest = [] := List.length_eq_zero_iff.mp (by omega)
  rw [hrest, List.append_nil] at hperm
  exact ⟨R, hR, hperm, List.length_eq_zero_iff.mp (by omega),
    List.length_eq_zero_iff.mp (by omega)⟩

/-! ### One poll -/

/-- What a poll of a handle with this ticket comes to: its wait is released, or stays, or is
    polled in vain and then ended by its cancellation. -/
inductive PollEnds (h : Handle) (t : τ) (p : Outcome (Bool × ω) σ)
    (o : Outcome Reply (Session σ ω)) : Prop
  | ready (answer : o.answer = .ready) (released : p.answer.1 = true)
    (signal : o.state.signal = p.state) (ticket : o.state.ticket? h = none)
  | pending (answer : o.answer = .pending) (vain : p.answer.1 = false)
    (signal : o.state.signal = p.state) (ticket : o.state.ticket? h = some t)
  | cancelled (answer : o.answer = .cancelled) (vain : p.answer.1 = false)
    (wait : ω) (stage : stage wait = .registered t)
    (signal : o.state.signal = (AutoReset.drop wait p.state).state)
    (ticket : o.state.ticket? h = none)

variable {wait : ω} {K : List τ} {T : List Thread}

/-- A poll that answers for its wait, and leaves the wait as it is then under the handle. -/
theorem pollEnds_of_answer (w : Waker) {o : Outcome Reply (Session σ ω)}
    (hwait : stage wait = .registered t) (hsound : Sound age (t :: K) T s.signal)
    (hanswer : o.answer = if (AutoReset.poll w wait s.signal).answer.1 then .ready else .pending)
    (hsignal : o.state.signal = (AutoReset.poll w wait s.signal).state)
    (hticket : o.state.ticket? h = (stage (AutoReset.poll w wait s.signal).answer.2).ticket?) :
    PollEnds h t (AutoReset.poll w wait s.signal) o := by
  rcases LawfulSignal.poll_registered w hwait hsound with ⟨hready, hnone, _⟩ | ⟨hvain, hstage, _⟩
  · rw [hready, if_pos rfl] at hanswer
    exact .ready hanswer hready hsignal (hticket.trans hnone)
  · rw [hvain] at hanswer
    rw [hstage] at hticket
    exact .pending hanswer hvain hsignal hticket

theorem poll_wait_ends (hfits : Fits orphans age s) {id : String}
    (ht : s.ticket? (.wait id) = some t) (w : Waker) :
    ∃ wait : ω, stage wait = .registered t ∧
      Elsewhere (.wait id) s (s.request (.poll id w)).state ∧
      PollEnds (.wait id) t (AutoReset.poll w wait s.signal) (s.request (.poll id w)) := by
  have hseat := sound_at hfits (.wait id)
  rw [ht] at hseat
  obtain ⟨held, hget, hheld⟩ := Option.bind_eq_some_iff.mp ht
  have hwait : stage held.wait = .registered t := Stage.of_ticket? hheld
  refine ⟨held.wait, hwait, ?_⟩
  simp only [request, poll, hget]
  cases held with
  | plain wait =>
    refine ⟨elsewhere_wait hfits (hfits.names.put id _) (Named.erase_put _ _ _) rfl rfl,
      pollEnds_of_answer w hwait hseat rfl rfl ?_⟩
    simp only [onSignal, Outcome.andThen, Outcome.lift, Outcome.pure, ticket?,
      Named.get?_put_self, Option.bind_some]
    rfl
  | cancellable wait =>
    rcases LawfulSignal.poll_registered w hwait hseat with
      ⟨hready, hnone, _⟩ | ⟨hvain, hstage, _⟩
    · simp only [onSignal, Outcome.andThen, Outcome.lift, raceCancel, Held.wait] at hready ⊢
      simp only [hready, if_true, Outcome.pure]
      refine ⟨elsewhere_wait hfits (hfits.names.erase id) (Named.erase_erase _ _) rfl rfl,
        .ready rfl hready rfl ?_⟩
      simp only [ticket?, Named.get?_erase_self, Option.bind_none]
    · simp only [onSignal, Outcome.andThen, Outcome.lift, raceCancel, Held.wait] at hvain hstage ⊢
      simp only [hvain, Bool.false_eq_true, if_false]
      cases hfired : ((s.cancellations.get? id).getD ⟨false, none⟩).fired with
      | true =>
        simp only [if_true, Outcome.map, Outcome.pure]
        refine ⟨elsewhere_wait hfits (hfits.names.erase id) (Named.erase_erase _ _) rfl rfl,
          .cancelled rfl hvain _ hstage rfl ?_⟩
        simp only [ticket?, Named.get?_erase_self, Option.bind_none]
      | false =>
        simp only [Bool.false_eq_true, if_false, Outcome.pure]
        refine ⟨elsewhere_wait hfits (hfits.names.put id _) (Named.erase_put _ _ _) rfl rfl,
          .pending rfl hvain rfl ?_⟩
        simp only [ticket?, Named.get?_put_self, Option.bind_some, heldTicket?, Held.wait, hstage]
        rfl

theorem poll_key_ends (hfits : Fits orphans age s) {id : String}
    (ht : s.ticket? (.key id) = some t) (w : Waker) :
    ∃ wait : ω, stage wait = .registered t ∧
      Elsewhere (.key id) s (s.request (.pollKey id w)).state ∧
      PollEnds (.key id) t (AutoReset.poll w wait s.signal) (s.request (.pollKey id w)) := by
  have hseat := sound_at hfits (.key id)
  rw [ht] at hseat
  obtain ⟨key, hget, hkey⟩ := Option.bind_eq_some_iff.mp ht
  obtain ⟨pollKey, hoffered, _⟩ := key_offered hfits hget
  have hwait : stage (ofKey σ key) = .registered t := Stage.of_ticket? hkey
  refine ⟨ofKey σ key, hwait, ?_⟩
  simp only [request, offered, hoffered, hget, LawfulSignal.pollKey hoffered]
  refine ⟨elsewhere_key hfits (hfits.key_names.put id _) (Named.erase_put _ _ _) rfl
    (by rw [hoffered]; simp) rfl, pollEnds_of_answer w hwait hseat rfl rfl ?_⟩
  simp only [onSignal, Outcome.andThen, Outcome.lift, Outcome.map, Outcome.pure, ticket?,
    Named.get?_put_self, Option.bind_some, keyTicket?, LawfulSignal.ofKey_toKey hoffered]

theorem poll_ends (hfits : Fits orphans age s) (ht : s.ticket? h = some t) (w : Waker) :
    ∃ wait : ω, stage wait = .registered t ∧
      Elsewhere h s (s.request (h.pollWith w)).state ∧
      PollEnds h t (AutoReset.poll w wait s.signal) (s.request (h.pollWith w)) := by
  cases h with
  | wait id => exact poll_wait_ends hfits ht w
  | key id => exact poll_key_ends hfits ht w

/-! ### Steps of a sweep -/

variable [Sweepable σ ω τ] {D D' R : List τ} {s₁ : Session σ ω}

/-- A session in the middle of a sweep: the tickets `D` were polled in vain, and `R` are still to
    be polled. -/
structure Sweeping (D R : List τ) (age : Nat) (s : Session σ ω) : Prop where
  fits : Fits [] age s
  idle : s.blocked = []
  parted : Parted age s.tickets D R s.signal

omit [LawfulSignal σ ω τ] in
/-- Without blocked threads nothing follows a request. -/
theorem settle_still (hfits : Fits orphans age s) (hidle : s.blocked = []) :
    s.settle.state = s := by
  have hsound := hfits.sound
  rw [hidle] at hsound
  have hstill := Sweepable.still hsound
  obtain ⟨signal, waits, cancellations, keys, blocked⟩ := s
  subst hidle
  simp only [settle, onSignal, Outcome.andThen_state, Outcome.pure_state, Outcome.lift_state,
    List.filter_nil]
  rw [hstill]

/-- The tickets of a session in the middle of a sweep, that of the handle to be polled in front. -/
theorem Sweeping.seat (hs : Sweeping D R age s) (h : Handle) :
    Parted age ((s.ticket? h).toList ++ s.beside [] h) D R s.signal := by
  have hperm := tickets_perm hs.fits.names hs.fits.key_names [] h
  rw [List.append_nil] at hperm
  exact hs.parted.perm hperm

/-- The sweep goes on after a poll, from what the poll left to its handle. -/
theorem Sweeping.after_poll {age' : Nat} (hs : Sweeping D R age s) (helse : Elsewhere h s s₁)
    {D' R' : List τ}
    (hparted : Parted age' ((s₁.ticket? h).toList ++ s.beside [] h) D' R' s₁.signal) :
    Sweeping D' R' age' s₁ ∧ s₁.settle.state = s₁ := by
  have hsound := hparted.sound
  have hfits : Fits [] age' s₁ := by
    refine helse.fits hs.fits ?_
    rw [hs.idle]
    exact hsound
  have hidle := helse.blocked.trans hs.idle
  refine ⟨⟨hfits, hidle, ?_⟩, settle_still hfits hidle⟩
  have hperm := tickets_perm helse.names helse.key_names [] h
  rw [List.append_nil, helse.beside] at hperm
  exact hparted.perm hperm.symm

/-- What one poll of a sweep comes to: a release and its wait are gone; or no release is gone, and
    then no more are pending than waits are still to be polled. -/
inductive PollCounts (c c' : Counts) (left : Nat) (reply : Reply) : Prop
  | ready (answer : reply = .ready) (pending : c.pending = c'.pending + 1)
    (registered : c.registered = c'.registered + 1)
  | vain (answer : reply ≠ .ready) (pending : c'.pending = c.pending)
    (short : c.pending ≤ left) (registered : c'.registered ≤ c.registered)

theorem Sweeping.poll (hs : Sweeping D (t :: R) age s) (ht : s.ticket? h = some t) (w : Waker) :
    let o := s.step (h.pollWith w)
    (∀ h', h' ≠ h → o.state.ticket? h' = s.ticket? h') ∧
      (∃ D', Sweeping D' R (age + 1) o.state) ∧
      PollCounts (countsOf s.signal) (countsOf o.state.signal) R.length o.answer.1 := by
  obtain ⟨wait, hwait, helse, hends⟩ := poll_ends hs.fits ht w
  have hseat := hs.seat h
  rw [ht] at hseat
  show (∀ h', h' ≠ h → (s.request (h.pollWith w)).state.settle.state.ticket? h' = s.ticket? h') ∧
    (∃ D', Sweeping D' R (age + 1) (s.request (h.pollWith w)).state.settle.state) ∧
    PollCounts (countsOf s.signal) (countsOf (s.request (h.pollWith w)).state.settle.state.signal)
      R.length (s.request (h.pollWith w)).answer
  revert helse hends
  generalize s.request (h.pollWith w) = o
  intro helse hends
  cases hends with
  | ready hanswer hready hsignal hticket =>
    obtain ⟨hparted, hpending, hregistered⟩ := hseat.released w hwait hready
    rw [← hsignal] at hparted hpending hregistered
    obtain ⟨hsweeping, hstill⟩ := hs.after_poll helse (by rw [hticket]; exact hparted)
    rw [hstill]
    exact ⟨helse.others, ⟨D, hsweeping⟩, .ready hanswer hpending hregistered⟩
  | pending hanswer hvain hsignal hticket =>
    obtain ⟨hparted, hcounts, hshort⟩ := hseat.vain w hwait hvain
    rw [← hsignal] at hparted hcounts
    obtain ⟨hsweeping, hstill⟩ := hs.after_poll helse (by rw [hticket]; exact hparted)
    rw [hstill, hcounts]
    exact ⟨helse.others, ⟨t :: D, hsweeping⟩,
      .vain (by rw [hanswer]; simp) rfl hshort (Nat.le_refl _)⟩
  | cancelled hanswer hvain wait' hwait' hsignal hticket =>
    obtain ⟨hparted, hcounts, hshort⟩ := hseat.vain w hwait hvain
    obtain ⟨hended, hpending, hregistered⟩ := hparted.ended hwait'
    rw [hcounts] at hpending hregistered
    rw [← hsignal] at hended hpending hregistered
    obtain ⟨hsweeping, hstill⟩ := hs.after_poll helse (by rw [hticket]; exact hended)
    rw [hstill]
    exact ⟨helse.others, ⟨D, hsweeping⟩, .vain (by rw [hanswer]; simp) hpending hshort (by omega)⟩

/-! ### Whole sweeps -/

omit [Tracked σ ω τ] [LawfulSignal σ ω τ] [Sweepable σ ω τ] in
theorem released_cons (s : Session σ ω) (x : Handle × Waker) (polls : Sweep) :
    s.released (x :: polls)
      = (s.step (x.1.pollWith x.2)).state.released polls
        + if (s.step (x.1.pollWith x.2)).answer.1 = .ready then 1 else 0 := by
  show (_ :: _ : List _).countP _ = _
  rw [List.countP_cons]
  simp only [beq_iff_eq]
  rfl

/-- A sweep takes as many releases as it releases waits.  It releases every wait or takes every
    release, and it takes every release if there are no more than waits. -/
theorem Sweeping.run (polls : Sweep) : ∀ {D R : List τ} {age : Nat} {s : Session σ ω},
    Sweeping D R age s → polls.map (fun x => s.ticket? x.1) = R.map some →
    (polls.map Prod.fst).Nodup →
      (∃ D' age', Sweeping D' [] age' (s.after polls.requests)) ∧
      (countsOf (s.after polls.requests).signal).pending + s.released polls
        = (countsOf s.signal).pending ∧
      (countsOf (s.after polls.requests).signal).registered + s.released polls
        ≤ (countsOf s.signal).registered ∧
      (s.released polls = polls.length ∨
        (countsOf (s.after polls.requests).signal).pending = 0) ∧
      ((countsOf s.signal).pending ≤ polls.length →
        (countsOf (s.after polls.requests).signal).pending = 0) := by
  induction polls with
  | nil =>
    intro D R age s hs htickets _
    obtain rfl : R = [] := List.map_eq_nil_iff.mp htickets.symm
    exact ⟨⟨D, age, hs⟩, rfl, Nat.le_refl _, Or.inl rfl, Nat.le_zero.mp⟩
  | cons x polls ih =>
    intro D R age s hs htickets hdistinct
    obtain ⟨hfirst, hdistinct⟩ := List.nodup_cons.mp hdistinct
    cases R with
    | nil => exact absurd htickets (List.cons_ne_nil _ _)
    | cons t R =>
      obtain ⟨ht, htickets⟩ := List.cons.inj htickets
      obtain ⟨hothers, ⟨D', hs'⟩, hcounts⟩ := hs.poll ht x.2
      have hlength : polls.length = R.length := by
        have hlengths := congrArg List.length htickets
        rw [List.length_map, List.length_map] at hlengths
        exact hlengths
      have htickets' : polls.map (fun y => (s.step (x.1.pollWith x.2)).state.ticket? y.1)
          = R.map some := by
        rw [← htickets]
        apply List.map_congr_left
        intro y hy
        exact hothers y.1 fun heq => hfirst (heq ▸ List.mem_map_of_mem hy)
      obtain ⟨hends, hpending, hregistered, hall, hnone⟩ := ih hs' htickets' hdistinct
      have hafter : s.after (Sweep.requests (x :: polls))
          = (s.step (x.1.pollWith x.2)).state.after (Sweep.requests polls) := rfl
      rw [hafter, released_cons, List.length_cons]
      refine ⟨hends, ?_⟩
      cases hcounts with
      | ready hanswer hpending' hregistered' =>
        rw [if_pos hanswer]
        refine ⟨by omega, by omega, ?_, fun hle => hnone (by omega)⟩
        exact hall.imp_left fun heq => by omega
      | vain hanswer hpending' hshort hregistered' =>
        rw [if_neg hanswer]
        have hgone := hnone (by omega)
        exact ⟨by omega, by omega, Or.inr hgone, fun _ => hgone⟩

/-! ### What is left -/

omit [Sweepable σ ω τ] in
/-- Whoever does not wait takes a release that is pending, or changes nothing that counts. -/
theorem tryWait_pending (hfits : Fits orphans age s) :
    ((AutoReset.tryWait s.signal).answer = true ∧ (countsOf s.signal).pending
        = (countsOf (AutoReset.tryWait s.signal).state).pending + 1) ∨
      ((AutoReset.tryWait s.signal).answer = false ∧
        countsOf (AutoReset.tryWait s.signal).state = countsOf s.signal) := by
  obtain ⟨_, hturn⟩ := LawfulSignal.tryWait hfits.sound
  have hcounts := hturn.counts
  cases hanswer : (AutoReset.tryWait s.signal).answer with
  | true =>
    rw [hanswer, if_pos rfl] at hcounts
    exact Or.inl ⟨rfl, hcounts.take_pending⟩
  | false =>
    rw [hanswer, if_neg (by simp)] at hcounts
    exact Or.inr ⟨rfl, hcounts.nil_eq⟩

/-- Without blocked threads nothing comes of an attempt but its answer. -/
theorem tryWait_step (hfits : Fits orphans age s) (hidle : s.blocked = []) :
    (s.step .tryWait).answer.1 = .truth (AutoReset.tryWait s.signal).answer ∧
      (s.step .tryWait).state.signal = (AutoReset.tryWait s.signal).state ∧
      (s.step .tryWait).state.blocked = [] ∧
      Fits orphans (age + 1) (s.step .tryWait).state := by
  have hfits' := (tryWait_answered hfits).fits
  have hstill : (s.step .tryWait).state = (s.request .tryWait).state :=
    settle_still hfits' hidle
  rw [hstill]
  exact ⟨rfl, rfl, hidle, hfits'⟩

/-- A release that is left when nobody is registered is for the next caller, and for no other. -/
theorem leftover (hfits : Fits orphans age s) (hidle : s.blocked = [])
    (hone : (countsOf s.signal).pending ≤ 1)
    (hspare : (countsOf s.signal).pending = 0 ∨ (countsOf s.signal).registered = 0) :
    (s.step .tryWait).answer.1 = .truth (decide (0 < (countsOf s.signal).pending)) ∧
      ((s.step .tryWait).state.step .tryWait).answer.1 = .truth false := by
  obtain ⟨hanswer, hsignal, hidle', hfits'⟩ := tryWait_step hfits hidle
  have htaken : (AutoReset.tryWait s.signal).answer = decide (0 < (countsOf s.signal).pending) := by
    rcases hspare with hnone | hnobody
    · rw [hnone]
      rcases tryWait_pending hfits with ⟨_, hcounts⟩ | ⟨hvain, _⟩
      · omega
      · exact hvain
    · have hsound := hfits.sound
      have hall : (countsOf s.signal).registered = _ := LawfulSignal.registered hsound
      rw [hall] at hnobody
      have htickets : s.tickets ++ orphans = [] := List.length_eq_zero_iff.mp (by omega)
      rw [htickets, hidle] at hsound
      exact Sweepable.spare hsound
  have hnone : (countsOf (s.step .tryWait).state.signal).pending = 0 := by
    rw [hsignal]
    rcases tryWait_pending hfits with ⟨_, hcounts⟩ | ⟨hvain, hcounts⟩
    · omega
    · rw [hvain, eq_comm, decide_eq_false_iff_not] at htaken
      rw [hcounts]
      omega
  refine ⟨hanswer.trans (congrArg _ htaken), ?_⟩
  rw [(tryWait_step hfits' hidle').1]
  rcases tryWait_pending hfits' with ⟨_, hcounts⟩ | ⟨hvain, _⟩
  · omega
  · rw [hvain]

omit [Tracked σ ω τ] [LawfulSignal σ ω τ] [Sweepable σ ω τ] in
theorem run_length (rs : List Request) : ∀ s : Session σ ω, (s.run rs).length = rs.length := by
  induction rs with
  | nil =>
    intro s
    rfl
  | cons r rs ih =>
    intro s
    exact congrArg Nat.succ (ih _)

omit [Tracked σ ω τ] [LawfulSignal σ ω τ] [Sweepable σ ω τ] in
theorem released_le (s : Session σ ω) (polls : Sweep) : s.released polls ≤ polls.length := by
  have hlength : (s.run polls.requests).length = polls.length := by
    rw [run_length, Sweep.requests, List.length_map]
  exact hlength ▸ List.countP_le_length

/-- A sweep delivers whatever is pending, wherever it starts from. -/
theorem swept_out (hfits : Fits orphans age s) (hcapped : (countsOf s.signal).Capped) :
    s.SweptOut := by
  intro polls hcovers
  obtain ⟨R, htickets, hperm, rfl, hidle⟩ := hcovers.tickets hfits
  have hsweeping : Sweeping [] R age s := by
    refine ⟨hfits, hidle, ⟨?_, hperm, fun t ht => absurd ht (by simp)⟩⟩
    have hsound := hfits.sound
    rw [List.append_nil, hidle] at hsound
    exact hsound
  obtain ⟨⟨D', age', hend⟩, hpending, hregistered, hall, hnone⟩ :=
    hsweeping.run polls htickets hcovers.distinct
  have hle := s.released_le polls
  have hcount : polls.length = (countsOf s.signal).registered := hcovers.all
  have hcap : (countsOf s.signal).pending ≤ (countsOf s.signal).registered + 1 := hcapped
  obtain ⟨hnext, hdrained⟩ := leftover hend.fits hend.idle (by omega) (by omega)
  have hleft : (countsOf (s.after polls.requests).signal).pending
      = (countsOf s.signal).pending
        - min (countsOf s.signal).pending (countsOf s.signal).registered := by omega
  have hone : (countsOf (s.after polls.requests).signal).pending ≤ 1 := by omega
  have hmore : 0 < (countsOf (s.after polls.requests).signal).pending
      ↔ (countsOf s.signal).registered < (countsOf s.signal).pending := by omega
  refine ⟨⟨?_, ?_, ?_, hdrained⟩, hleft, hone⟩
  · show s.released polls = min (countsOf s.signal).pending (countsOf s.signal).registered
    omega
  · show (countsOf (s.after polls.requests).signal).pending
      = (decide ((countsOf s.signal).registered < (countsOf s.signal).pending)).toNat
    rw [← decide_eq_decide.mpr hmore]
    by_cases hpos : 0 < (countsOf (s.after polls.requests).signal).pending
    · rw [decide_eq_true hpos, Bool.toNat_true]
      omega
    · rw [decide_eq_false hpos, Bool.toNat_false]
      omega
  · rw [hnext]
    exact congrArg _ (decide_eq_decide.mpr hmore)

omit [Tracked σ ω τ] [LawfulSignal σ ω τ] [Sweepable σ ω τ] in
theorem SweptOut.delivers {polls : Sweep} {p n : Nat} (h : s.SweptOut) (hcovers : s.Covers polls)
    (hcounts : countsOf s.signal = ⟨p, n⟩) : s.Delivers polls p n := by
  have hdelivers := (h polls hcovers).1
  have hpending : AutoReset.pendingReleases s.signal = p := congrArg Counts.pending hcounts
  have hregistered : AutoReset.registeredWaits s.signal = n :=
    congrArg Counts.registered hcounts
  rw [hpending, hregistered] at hdelivers
  exact hdelivers

/-! ### From a fresh signal -/

/-- A session without blocked threads whose waits of these names are registered. -/
structure Crowd (names : List String) (c : Counts) (age : Nat) (s : Session σ ω) : Prop where
  fits : Fits [] age s
  idle : s.blocked = []
  counts : countsOf s.signal = c
  named : ∀ id, s.isRegistered (.wait id) = true ↔ id ∈ names
  held : ∀ id, (s.waits.get? id).isSome = true ↔ id ∈ names

variable {names : List String} {c : Counts} {n p : Nat}

omit [Sweepable σ ω τ] in
/-- The first poll of a wait registers it, if nothing is pending. -/
theorem first_poll_joins {K : List τ} {T : List Thread} {signal : σ} {wait : ω}
    (hidle : stage wait = .idle) (hsound : Sound age K T signal) (sparse : Sparse signal)
    (hcounts : countsOf signal = ⟨0, n⟩) (w : Waker) :
    countsOf (AutoReset.poll w wait signal).state = ⟨0, n + 1⟩ ∧
      (stage (AutoReset.poll w wait signal).answer.2).isRegistered = true := by
  rcases LawfulSignal.poll_idle w hidle hsound sparse with
    ⟨_, _, _, hturn⟩ | ⟨_, t, hstage, _, hturn, _⟩
  · have htaken := hturn.counts.take_pending
    rw [hcounts] at htaken
    exact absurd htaken (by simp)
  · have hjoined := hturn.counts.join_counts
    rw [hcounts] at hjoined
    rw [hstage]
    exact ⟨hjoined, rfl⟩

/-- A wait that is begun under a free name changes nothing else. -/
theorem begin_step (hfits : Fits orphans age s) (hidle : s.blocked = []) {id : String}
    (hfree : s.waits.get? id = none) :
    (s.step (.wait id)).state = { s with waits := s.waits.put id (.plain (AutoReset.wait σ)) } ∧
      Fits orphans (age + 1) (s.step (.wait id)).state := by
  have hfits' : Fits orphans (age + 1) (s.request (.wait id)).state :=
    (replace_answered (r := .wait id) hfits LawfulSignal.wait_idle s.cancellations (fun _ => rfl)
      fun _ => rfl).fits
  have hrequest : (s.request (.wait id)).state
      = { s with waits := s.waits.put id (.plain (AutoReset.wait σ)) } := by
    simp only [request, replace, hfree, Outcome.pure_state]
  have hstill : (s.step (.wait id)).state = (s.request (.wait id)).state :=
    settle_still hfits' (by rw [hrequest]; exact hidle)
  rw [hstill]
  exact ⟨hrequest, hfits'⟩

/-- A poll of a plain wait renews the wait under its name. -/
theorem poll_step (hfits : Fits orphans age s) (hidle : s.blocked = []) (sparse : Sparse s.signal)
    {id : String} {wait : ω} (hget : s.waits.get? id = some (.plain wait)) (w : Waker) :
    let p := AutoReset.poll w wait s.signal
    (s.step (.poll id w)).state
        = { s with signal := p.state, waits := s.waits.put id (.plain p.answer.2) } ∧
      Fits orphans (age + 1) (s.step (.poll id w)).state := by
  intro p
  have hfits' := (poll_answered hfits sparse id w).fits
  have hrequest : (s.request (.poll id w)).state
      = { s with signal := p.state, waits := s.waits.put id (.plain p.answer.2) } := by
    simp only [request, poll, hget]
    rfl
  have hstill : (s.step (.poll id w)).state = (s.request (.poll id w)).state :=
    settle_still hfits' (by rw [hrequest]; exact hidle)
  rw [hstill]
  exact ⟨hrequest, hfits'⟩

/-- A wait that is begun under a new name and polled joins the others, if nothing is pending. -/
theorem Crowd.arrive (hs : Crowd names ⟨0, n⟩ age s) (sparse : Sparse s.signal) {id : String}
    (hnew : id ∉ names) (w : Waker) :
    Crowd (id :: names) ⟨0, n + 1⟩ (age + 1 + 1) (s.after [.wait id, .poll id w]) := by
  have hfree : s.waits.get? id = none := by
    rw [← Option.not_isSome_iff_eq_none, hs.held id]
    exact hnew
  obtain ⟨hbegun, hfits₁⟩ := begin_step hs.fits hs.idle hfree
  show Crowd _ _ _ ((s.step (.wait id)).state.step (.poll id w)).state
  rw [hbegun] at hfits₁ ⊢
  obtain ⟨hpolled, hfits₂⟩ := poll_step hfits₁ hs.idle sparse (Named.get?_put_self _ _ _) w
  have hsound := hs.fits.sound
  obtain ⟨hcounts, hregistered⟩ :=
    first_poll_joins (LawfulSignal.wait_idle (σ := σ)) hsound sparse hs.counts w
  rw [hpolled] at hfits₂ ⊢
  refine ⟨hfits₂, hs.idle, hcounts, fun id' => ?_, fun id' => ?_⟩
  · by_cases hid : id' = id
    · subst hid
      simp only [isRegistered, Named.get?_put_self, Option.any_some, Held.wait, hregistered,
        List.mem_cons_self]
    · rw [List.mem_cons, or_iff_right hid, ← hs.named id']
      simp only [isRegistered, Named.get?_put_ne _ _ hid]
  · by_cases hid : id' = id
    · subst hid
      simp only [Named.get?_put_self, Option.isSome_some, List.mem_cons_self]
    · rw [List.mem_cons, or_iff_right hid, ← hs.held id']
      simp only [Named.get?_put_ne _ _ hid]

/-- Setting the signal while the waits are pending banks no more than one release beyond them. -/
theorem Crowd.set (hs : Crowd names ⟨p, n⟩ age s) (sparse : Sparse s.signal) :
    Crowd names ⟨min (p + 1) (n + 1), n⟩ (age + 1) (s.after [.set]) := by
  obtain ⟨hsound, hturn⟩ := LawfulSignal.set hs.fits.sound sparse
  have hfits := (set_answered hs.fits sparse).fits
  have hstill : (s.step .set).state = (s.request .set).state := settle_still hfits hs.idle
  show Crowd names _ _ (s.step .set).state
  rw [hstill]
  refine ⟨hfits, hs.idle, ?_, hs.named, hs.held⟩
  have hcounts := hturn.counts.set_counts
  rw [hs.counts] at hcounts
  exact hcounts

theorem Crowd.arrivals (xs : List (String × Waker)) : ∀ {names : List String} {n age : Nat}
    {s : Session σ ω}, Crowd names ⟨0, n⟩ age s →
    (∀ signal : σ, AutoReset.registeredWaits signal ≤ n + xs.length → Sparse signal) →
    (∀ x ∈ xs, x.1 ∉ names) → (xs.map Prod.fst).Nodup →
    ∃ age', Crowd ((xs.map Prod.fst).reverse ++ names) ⟨0, n + xs.length⟩ age'
      (s.after (arrivals xs)) := by
  induction xs with
  | nil =>
    intro names n age s hs _ _ _
    exact ⟨age, hs⟩
  | cons x xs ih =>
    intro names n age s hs hsparse hnew hdistinct
    obtain ⟨hfirst, hdistinct⟩ := List.nodup_cons.mp hdistinct
    rw [List.length_cons] at hsparse
    have hsparse₁ : Sparse s.signal := by
      apply hsparse
      have hregistered : AutoReset.registeredWaits s.signal = n :=
        congrArg Counts.registered hs.counts
      omega
    have harrived := hs.arrive hsparse₁ (hnew x List.mem_cons_self) x.2
    obtain ⟨age', hall⟩ := ih harrived (fun signal hle => hsparse signal (by omega))
      (fun y hy => by
        rw [List.mem_cons, not_or]
        exact ⟨fun heq => hfirst (heq ▸ List.mem_map_of_mem hy),
          hnew y (List.mem_cons_of_mem _ hy)⟩) hdistinct
    refine ⟨age', ?_⟩
    rw [List.map_cons, List.reverse_cons, List.append_assoc, List.singleton_append,
      List.length_cons, ← Nat.add_assoc, Nat.add_right_comm]
    exact hall

theorem Crowd.sets (k : Nat) : ∀ {p age : Nat} {s : Session σ ω}, p ≤ n + 1 →
    Crowd names ⟨p, n⟩ age s →
    (∀ signal : σ, AutoReset.registeredWaits signal ≤ n → Sparse signal) →
    ∃ age', Crowd names ⟨min (p + k) (n + 1), n⟩ age' (s.after (List.replicate k .set)) := by
  induction k with
  | zero =>
    intro p age s hle hs _
    rw [Nat.add_zero, Nat.min_eq_left hle]
    exact ⟨age, hs⟩
  | succ k ih =>
    intro p age s hle hs hsparse
    have hset := hs.set (hsparse _ (Nat.le_of_eq (congrArg Counts.registered hs.counts)))
    obtain ⟨age', hall⟩ := ih (Nat.min_le_right _ _) hset hsparse
    have hmin : min (p + (k + 1)) (n + 1) = min (min (p + 1) (n + 1) + k) (n + 1) := by omega
    rw [hmin]
    exact ⟨age', hall⟩

omit [Sweepable σ ω τ] in
theorem new_crowd (observer : Observer) :
    Crowd [] ⟨0, 0⟩ 0 (Session.new observer : Session σ ω) where
  fits := new_fits observer
  idle := rfl
  counts := LawfulSignal.new_counts observer
  named id := by simp [isRegistered, Session.new, Named.get?]
  held id := by simp [Session.new, Named.get?]

/-- Waits that register with a fresh signal, settings of the signal, and a sweep. -/
theorem set_and_swept (observer : Observer) (xs : List (String × Waker)) (k : Nat)
    (hdistinct : (xs.map Prod.fst).Nodup)
    (hsparse : ∀ signal : σ, AutoReset.registeredWaits signal ≤ xs.length → Sparse signal) :
    (Session.new observer : Session σ ω).SetAndSwept xs k := by
  intro polls hpolls
  obtain ⟨_, hcrowd⟩ := Crowd.arrivals xs (new_crowd observer)
    (fun signal hle => hsparse signal (by omega)) (fun _ _ => List.not_mem_nil) hdistinct
  obtain ⟨age, hset⟩ := Crowd.sets k (Nat.zero_le _) hcrowd
    (fun signal hle => hsparse signal (by omega))
  rw [← after_append, Nat.zero_add, Nat.zero_add] at hset
  have hlength : polls.length = xs.length := by
    have hlengths := hpolls.length_eq
    rw [List.length_map, List.length_map] at hlengths
    exact hlengths
  have hcovers : ((Session.new observer : Session σ ω).after
      (Session.arrivals xs ++ List.replicate k .set)).Covers polls := by
    refine ⟨?_, fun x hx => ?_, ?_⟩
    · refine hpolls.nodup_iff.mpr ?_
      rw [show (xs.map fun x => Handle.wait x.1) = (xs.map Prod.fst).map Handle.wait by
        rw [List.map_map]; rfl]
      exact List.Pairwise.map _ (fun _ _ hne heq => hne (Handle.wait.inj heq)) hdistinct
    · obtain ⟨y, hy, hxy⟩ := List.mem_map.mp (hpolls.mem_iff.mp (List.mem_map_of_mem hx))
      rw [← hxy, hset.named, List.append_nil, List.mem_reverse]
      exact List.mem_map_of_mem hy
    · rw [hlength]
      exact (congrArg Counts.registered hset.counts).symm
  have hcapped : (countsOf ((Session.new observer : Session σ ω).after
      (Session.arrivals xs ++ List.replicate k .set)).signal).Capped := by
    rw [hset.counts]
    exact Nat.min_le_right _ _
  obtain ⟨hreleased, hleft, hnext, hdrained⟩ :=
    (swept_out hset.fits hcapped).delivers hcovers hset.counts
  have hmore : decide (xs.length < min k (xs.length + 1)) = decide (xs.length < k) :=
    decide_eq_decide.mpr (by omega)
  rw [hmore] at hleft hnext
  refine ⟨?_, hleft, hnext, hdrained⟩
  rw [hreleased]
  omega

/-! ### All signals -/

/-- A signal that a run has led to delivers what is pending to a sweep. -/
theorem swept_out_after (observer : Observer) {rs : List Request}
    (hroom : (Session.new observer : Session σ ω).Roomy rs) :
    ((Session.new observer : Session σ ω).after rs).SweptOut := by
  obtain ⟨⟨orphans, hfits⟩, _, hrun⟩ :=
    after_fits (new_fits observer) (LawfulSignal.new_rested observer) hroom
  have hcapped : (countsOf ((Session.new observer : Session σ ω).after rs).signal).Capped := by
    refine hrun.capped ?_
    have hstart : countsOf (Session.new observer : Session σ ω).signal = ⟨0, 0⟩ :=
      LawfulSignal.new_counts observer
    rw [hstart]
    exact Nat.zero_le _
  exact swept_out hfits hcapped

/-- **One poll of each registered wait, in any order, delivers every pending release.**  As many
    waits are released as there are releases for them, in whatever state a run has left the
    signal; at most one release is left, when there are more of them than waits, and it is for
    the next caller alone.  So a fresh signal that is set while waits are pending releases as
    many of them as it was set, or all and banks one more. -/
theorem sweep_delivers (observer : Observer) :
    (∀ rs : List Request,
      ((Session.new observer : Session Queue Queue.Wait).after rs).SweptOut ∧
      ((Session.new observer : Session Spin Spin.Wait).Uncrowded rs →
        ((Session.new observer : Session Spin Spin.Wait).after rs).SweptOut) ∧
      ((Session.new observer : Session Slim Slim.Wait).Uncrowded rs →
        ((Session.new observer : Session Slim Slim.Wait).after rs).SweptOut)) ∧
    ∀ (xs : List (String × Waker)) (n : Nat), (xs.map Prod.fst).Nodup →
      (Session.new observer : Session Queue Queue.Wait).SetAndSwept xs n ∧
      (xs.length < 2147483648 →
        (Session.new observer : Session Spin Spin.Wait).SetAndSwept xs n ∧
        (Session.new observer : Session Slim Slim.Wait).SetAndSwept xs n) := by
  refine ⟨fun rs => ⟨?_, fun hfew => ?_, fun hfew => ?_⟩,
    fun xs n hdistinct => ⟨?_, fun hfew => ⟨?_, ?_⟩⟩⟩
  · exact swept_out_after observer (roomy_of_sparse (fun _ => trivial) _ _)
  · exact swept_out_after observer hfew.roomy
  · exact swept_out_after observer hfew.roomy
  · exact set_and_swept observer xs n hdistinct fun _ _ => trivial
  · exact set_and_swept observer xs n hdistinct fun signal hle =>
      LawfulSignal.sparse_of_few (Nat.lt_of_le_of_lt hle hfew)
  · exact set_and_swept observer xs n hdistinct fun signal hle =>
      LawfulSignal.sparse_of_few (Nat.lt_of_le_of_lt hle hfew)

/-- A wait that its cancellation ends in the middle of a sweep takes nothing from the other, and a
    signal that is set twice while three waits are pending releases two of them. -/
theorem sweep_delivers_cancelled :
    let rs : List Request := [.wait "b", .poll "b" 2, .waitOrCancel "a" false, .poll "a" 1,
      .fire "a", .set]
    let polls : Sweep := [(.wait "a", 3), (.wait "b", 4)]
    let xs : List (String × Waker) := [("a", 1), ("b", 2), ("c", 3)]
    ((Session.new .quiet : Session Queue Queue.Wait).after rs).Delivers polls 1 2 ∧
    ((Session.new .quiet : Session Spin Spin.Wait).after rs).Delivers polls 1 2 ∧
    ((Session.new .quiet : Session Slim Slim.Wait).after rs).Delivers polls 1 2 ∧
    (Session.new .quiet : Session Queue Queue.Wait).SetAndSwept xs 2 ∧
    (Session.new .quiet : Session Slim Slim.Wait).SetAndSwept xs 2 := by
  intro rs polls xs
  obtain ⟨hswept, hset⟩ := sweep_delivers .quiet
  obtain ⟨hqueue, hspin, hslim⟩ := hswept rs
  obtain ⟨hfresh, hfew⟩ := hset xs 2 (by decide)
  refine ⟨?_, ?_, ?_, hfresh, (hfew (by decide)).2⟩
  · exact hqueue.delivers ⟨by decide, by decide, by decide⟩ (by decide)
  · exact (hspin (by decide)).delivers ⟨by decide, by decide, by decide⟩ (by decide)
  · exact (hslim (by decide)).delivers ⟨by decide, by decide, by decide⟩ (by decide)

end Session

end Conduit.Signal

/-
  Conduit/Proofs/Signal/Roster.lean
  =================================
  **Everybody that a session knows of.**

  The tickets that a session's waits and keys hold, and its blocked threads, are those
  that its signal counts as registered (`Fits`), but for keys that were thrown away
  while they were registered: their tickets are *orphans*, which nobody can poll again.

  A request changes at most one of the things that are held.  `Answered` says what comes
  of it: the signal fits the session again, the counter has made the moves of the
  request, and every registered handle is *attended*: it was polled and sleeps, or it
  was left alone and heeded.
-/
import Conduit.Proofs.Named
import Conduit.Proofs.Signal.Seat

namespace Conduit.Signal

open Tracked Staged

/-- What holds a wait: the name of a wait, or the name of a key. -/
inductive Handle
  | wait (id : String)
  | key (id : String)
deriving DecidableEq, Repr

/-- The waker with which a request polls a handle. -/
def Request.polls : Request → Handle → Option Waker
  | .poll id w, .wait id' => if id' = id then some w else none
  | .pollKey id w, .key id' => if id' = id then some w else none
  | _, _ => none

namespace Session

variable {σ ω τ : Type} [Facilities σ ω] [Staged ω τ] [Tracked σ ω τ]

/-- The ticket of a wait that is held. -/
def heldTicket? (held : Held ω) : Option τ := (stage held.wait).ticket?

/-- The ticket of a key. -/
def keyTicket? (σ : Type) {ω τ : Type} [Facilities σ ω] [Staged ω τ] [Tracked σ ω τ]
    (key : WaitKey) : Option τ := (stage (ofKey σ key)).ticket?

/-- The ticket that a handle holds. -/
def ticket? (s : Session σ ω) : Handle → Option τ
  | .wait id => (s.waits.get? id).bind heldTicket?
  | .key id => (s.keys.get? id).bind (keyTicket? σ)

/-- The tickets of everything that is held. -/
def tickets (s : Session σ ω) : List τ :=
  s.waits.collect heldTicket? ++ s.keys.collect (keyTicket? σ)

/-- The tickets beside that of a handle, the orphans among them. -/
def beside (s : Session σ ω) (orphans : List τ) : Handle → List τ
  | .wait id =>
    (s.waits.erase id).collect heldTicket? ++ (s.keys.collect (keyTicket? σ) ++ orphans)
  | .key id =>
    (s.keys.erase id).collect (keyTicket? σ) ++ (s.waits.collect heldTicket? ++ orphans)

/-- The orphan that a request leaves behind. -/
def orphaned (s : Session σ ω) : Request → List τ
  | .newKey id => (s.ticket? (.key id)).toList
  | _ => []

/-- The signal counts as registered what the session holds and the orphans; names and threads are
    distinct, and there are keys only where the signal offers them. -/
structure Fits (orphans : List τ) (age : Nat) (s : Session σ ω) : Prop where
  names : s.waits.Distinct
  key_names : s.keys.Distinct
  keyless : Facilities.pollKey? (σ := σ) = none → s.keys = []
  threads : s.blocked.Nodup
  sound : Sound age (s.tickets ++ orphans) s.blocked s.signal

variable {s s' : Session σ ω} {orphans : List τ} {age : Nat} {h h' : Handle} {t : τ}

theorem tickets_perm (hnames : s.waits.Distinct) (hkeys : s.keys.Distinct)
    (orphans : List τ) (h : Handle) :
    (s.tickets ++ orphans).Perm ((s.ticket? h).toList ++ s.beside orphans h) := by
  unfold tickets beside ticket?
  cases h with
  | wait id =>
    have hperm := Named.collect_perm (heldTicket? (ω := ω)) hnames id
    simp only [← List.append_assoc]
    exact (hperm.append_right _).append_right _
  | key id =>
    have hperm := Named.collect_perm (keyTicket? σ) hkeys id
    simp only [← List.append_assoc]
    refine List.Perm.append_right _ ?_
    exact (List.perm_append_comm.trans (hperm.append_right _))

/-- Another handle's ticket is beside that of this one. -/
theorem mem_beside (hfits : Fits orphans age s) (hne : h' ≠ h) (ht : s.ticket? h' = some t) :
    t ∈ s.beside orphans h := by
  unfold beside
  unfold ticket? at ht
  cases h with
  | wait id =>
    cases h' with
    | wait id' =>
      have hid : id' ≠ id := fun heq => hne (congrArg _ heq)
      refine List.mem_append_left _ ((Named.mem_collect (hfits.names.erase id)).mpr ⟨id', ?_⟩)
      rw [Named.get?_erase_ne _ hid]
      exact ht
    | key id' =>
      refine List.mem_append_right _ (List.mem_append_left _ ?_)
      exact (Named.mem_collect hfits.key_names).mpr ⟨id', ht⟩
  | key id =>
    cases h' with
    | key id' =>
      have hid : id' ≠ id := fun heq => hne (congrArg _ heq)
      refine List.mem_append_left _ ((Named.mem_collect (hfits.key_names.erase id)).mpr ⟨id', ?_⟩)
      rw [Named.get?_erase_ne _ hid]
      exact ht
    | wait id' =>
      refine List.mem_append_right _ (List.mem_append_left _ ?_)
      exact (Named.mem_collect hfits.names).mpr ⟨id', ht⟩

/-- Every ticket that is held has a handle. -/
theorem exists_handle (hfits : Fits orphans age s) (ht : t ∈ s.tickets) :
    ∃ h, s.ticket? h = some t := by
  rcases List.mem_append.mp ht with hmem | hmem
  · obtain ⟨id, hid⟩ := (Named.mem_collect hfits.names).mp hmem
    exact ⟨.wait id, hid⟩
  · obtain ⟨id, hid⟩ := (Named.mem_collect hfits.key_names).mp hmem
    exact ⟨.key id, hid⟩

/-! ### Changes at one handle -/

/-- Two sessions that differ in what one handle holds, and in their signals. -/
structure Elsewhere (h : Handle) (s s' : Session σ ω) : Prop where
  names : s'.waits.Distinct
  key_names : s'.keys.Distinct
  keyless : Facilities.pollKey? (σ := σ) = none → s'.keys = []
  blocked : s'.blocked = s.blocked
  beside : ∀ orphans, s'.beside orphans h = s.beside orphans h
  others : ∀ h', h' ≠ h → s'.ticket? h' = s.ticket? h'

theorem elsewhere_wait (hfits : Fits orphans age s) {id : String} (hnames : s'.waits.Distinct)
    (herase : s'.waits.erase id = s.waits.erase id) (hkeys : s'.keys = s.keys)
    (hblocked : s'.blocked = s.blocked) : Elsewhere (.wait id) s s' where
  names := hnames
  key_names := hkeys ▸ hfits.key_names
  keyless hnone := hkeys ▸ hfits.keyless hnone
  blocked := hblocked
  beside orphans := by
    simp only [Session.beside, herase, hkeys]
  others h' hne := by
    cases h' with
    | wait id' =>
      have hid : id' ≠ id := fun heq => hne (congrArg _ heq)
      simp only [ticket?]
      rw [← Named.get?_erase_ne s'.waits hid, herase, Named.get?_erase_ne s.waits hid]
    | key id' => simp only [ticket?, hkeys]

theorem elsewhere_key (hfits : Fits orphans age s) {id : String} (hnames : s'.keys.Distinct)
    (herase : s'.keys.erase id = s.keys.erase id) (hwaits : s'.waits = s.waits)
    (hkeyless : Facilities.pollKey? (σ := σ) ≠ none) (hblocked : s'.blocked = s.blocked) :
    Elsewhere (.key id) s s' where
  names := hwaits ▸ hfits.names
  key_names := hnames
  keyless hnone := absurd hnone hkeyless
  blocked := hblocked
  beside orphans := by
    simp only [Session.beside, herase, hwaits]
  others h' hne := by
    cases h' with
    | key id' =>
      have hid : id' ≠ id := fun heq => hne (congrArg _ heq)
      simp only [ticket?]
      rw [← Named.get?_erase_ne s'.keys hid, herase, Named.get?_erase_ne s.keys hid]
    | wait id' => simp only [ticket?, hwaits]

variable [LawfulSignal σ ω τ]

theorem Elsewhere.fits {age' : Nat} (hfits : Fits orphans age s) (helse : Elsewhere h s s')
    (hsound : Sound age' ((s'.ticket? h).toList ++ s.beside orphans h) s.blocked s'.signal) :
    Fits orphans age' s' where
  names := helse.names
  key_names := helse.key_names
  keyless := helse.keyless
  threads := helse.blocked ▸ hfits.threads
  sound := by
    have hperm := tickets_perm helse.names helse.key_names orphans h
    rw [helse.beside] at hperm
    rw [helse.blocked]
    exact LawfulSignal.perm hperm.symm (.refl _) hsound

/-! ### What a request leaves behind -/

/-- What comes of a request: the signal fits, the counter has moved, and whoever is registered was
    polled and sleeps, or was left alone and heeded. -/
structure Answered (orphans : List τ) (age : Nat) (s : Session σ ω) (r : Request)
    (o : Outcome Reply (Session σ ω)) : Prop where
  fits : Fits orphans (age + 1) o.state
  counts : (countsOf s.signal).Path (s.moves r o.answer) (countsOf o.state.signal)
  attended : Young σ (age + 1) → ∀ h t, o.state.ticket? h = some t →
    (∃ w, r.polls h = some w ∧ asleepAs o.state.signal t = some w) ∨
    (r.polls h = none ∧ s.ticket? h = some t ∧ ∀ w, asleepAs s.signal t = some w →
      asleepAs o.state.signal t = some w ∨ .woken w ∈ o.effects)

variable {r : Request} {o : Outcome Reply (Session σ ω)}

/-- A request that changes what one handle holds. -/
theorem answered_at (hfits : Fits orphans age s) (helse : Elsewhere h s o.state)
    (hsound : Sound (age + 1) ((o.state.ticket? h).toList ++ s.beside orphans h) s.blocked
      o.state.signal)
    (hcounts : (countsOf s.signal).Path (s.moves r o.answer) (countsOf o.state.signal))
    (hheeded : Young σ (age + 1) →
      Heeded (s.beside orphans h) s.signal o.state.signal o.effects)
    (hself : Young σ (age + 1) → ∀ t, o.state.ticket? h = some t →
      ∃ w, r.polls h = some w ∧ asleepAs o.state.signal t = some w)
    (hpolls : ∀ h', h' ≠ h → r.polls h' = none) : Answered orphans age s r o where
  fits := helse.fits hfits hsound
  counts := hcounts
  attended hyoung h' t ht := by
    by_cases hh : h' = h
    · exact Or.inl (hself hyoung t (hh ▸ ht) |>.imp fun w hw => hh ▸ hw)
    · rw [helse.others h' hh] at ht
      refine Or.inr ⟨hpolls h' hh, ht, fun w hasleep => ?_⟩
      exact hheeded hyoung t (mem_beside hfits hh ht) w hasleep

/-- A request that leaves everything that is held as it is. -/
theorem answered_alone (hfits : Fits orphans age s) (hwaits : o.state.waits = s.waits)
    (hkeys : o.state.keys = s.keys) (hthreads : o.state.blocked.Nodup)
    (hsound : Sound age (s.tickets ++ orphans) o.state.blocked o.state.signal)
    (hturn : Turn s.signal o.state.signal o.effects (s.moves r o.answer) none)
    (hpolls : ∀ h, s.ticket? h ≠ none → r.polls h = none) : Answered orphans age s r o where
  fits :=
    { names := hwaits ▸ hfits.names
      key_names := hkeys ▸ hfits.key_names
      keyless := fun hnone => hkeys ▸ hfits.keyless hnone
      threads := hthreads
      sound := by
        have htickets : o.state.tickets = s.tickets := by
          unfold tickets
          rw [hwaits, hkeys]
        rw [htickets]
        exact LawfulSignal.older hsound }
  counts := hturn.counts
  attended _ h t ht := by
    have hticket : o.state.ticket? h = s.ticket? h := by
      unfold ticket?
      rw [hwaits, hkeys]
    rw [hticket] at ht
    exact Or.inr ⟨hpolls h (by rw [ht]; simp), ht, fun w hasleep => hturn.heard t w (by simp) hasleep⟩

/-- A request that leaves the signal alone as well. -/
theorem answered_untouched (hfits : Fits orphans age s) (hwaits : o.state.waits = s.waits)
    (hkeys : o.state.keys = s.keys) (hblocked : o.state.blocked = s.blocked)
    (hsignal : o.state.signal = s.signal) (hmoves : s.moves r o.answer = [])
    (hpolls : ∀ h, s.ticket? h ≠ none → r.polls h = none) : Answered orphans age s r o := by
  refine answered_alone hfits hwaits hkeys (hblocked ▸ hfits.threads) ?_ ?_ hpolls
  · rw [hblocked, hsignal]
    exact hfits.sound
  · rw [hsignal, hmoves]
    exact ⟨.nil _, fun _ _ _ hasleep => Or.inl hasleep⟩

end Session

end Conduit.Signal

/-
  Conduit/Proofs/Signal/Packing.lean
  ==================================
  **What the packed words stand for, in every state that a run leads to.**

  The signal in a single word counts as waiters the registered keys, those among them
  that were thrown away, and the blocked threads.  The signal that counts permits counts
  the nodes of its queue, and each wait that is held and not resolved has one of them.

  What a request does to the word is read off its moves: it does them to the word one
  after another, each exactly (`Exactly`), and the word that this leads to is the one
  that the signal then has, since a word is what it stands for.
-/
import Conduit.Proofs.Signal.Exact
import Conduit.Proofs.Signal.Listing

namespace Conduit.Signal

open Tracked Staged

/-! ### The tickets of a queue without threads -/

theorem Roll.tickets_perm {K : List Nat} {next : Nat} {l : Line} (h : Roll K [] next l) :
    (l.map Node.ticket).Perm K := by
  have hsub : K ⊆ l.map Node.ticket := by
    intro t ht
    obtain ⟨n, hn, hticket, _⟩ := h.exists_task ht
    exact List.mem_map.mpr ⟨n, hn, hticket⟩
  have hlength : (l.map Node.ticket).length ≤ K.length := by
    rw [List.length_map, h.length_eq]
    exact Nat.le_refl _
  exact ((h.nodup.subperm hsub).perm_of_length_le hlength).symm

/-- A ticket that is held is in the queue once. -/
theorem Roll.count_ticket {K : List Nat} {next t : Nat} {l : Line} (h : Roll K [] next l)
    (ht : t ∈ K) : (l.countP fun n => n.ticket == t) = 1 := by
  have hmem : t ∈ l.map Node.ticket := h.tickets_perm.mem_iff.mpr ht
  have hcount := h.distinct.count (a := t)
  rw [if_pos hmem, List.count, List.countP_map] at hcount
  exact hcount

namespace Session

/-! ### Runs that remember what was thrown away -/

section Lost

variable {σ ω τ : Type} [Facilities σ ω] [Staged ω τ] [Tracked σ ω τ] [LawfulSignal σ ω τ]
variable {s : Session σ ω} {orphans : List τ} {age : Nat}

/-- After a run the signal fits what is held, and the keys that were thrown away in it while they
    were registered. -/
theorem after_fits_lost {rs : List Request} (hfits : Fits orphans age s)
    (rested : Rested s.signal) (hroom : s.Roomy rs) :
    Fits (s.overwritten rs ++ orphans) (age + rs.length) (s.after rs) ∧
      Rested (s.after rs).signal := by
  induction rs generalizing s orphans age with
  | nil => exact ⟨hfits, rested⟩
  | cons r rs ih =>
    obtain ⟨hfits', hrested', _⟩ := step_fits hfits rested hroom.1 r
    have hafter := ih hfits' hrested' hroom.2
    have hage : age + 1 + rs.length = age + (r :: rs).length := by
      rw [List.length_cons]
      omega
    rw [← List.append_assoc, hage] at hafter
    exact hafter

end Lost

theorem Uncrowded.last {σ ω : Type} [Facilities σ ω] {s : Session σ ω} {rs : List Request}
    (h : s.Uncrowded rs) : AutoReset.registeredWaits (s.after rs).signal < 2147483648 := by
  induction rs generalizing s with
  | nil => exact h
  | cons r rs ih => exact ih h.2

/-! ### The signal in a single word -/

section Single

variable {s : Session Slim Slim.Wait} {lost : List UInt64} {age : Nat}

/-- What the word of the signal stands for, where the keys that were thrown away while they were
    registered are these: its waiters are the registered keys and the blocked threads, and each
    entry of the queue is for a registration of its own; no more is owed than there are waiters,
    and nothing unless the bit is up; and every request does the operations of its moves to the
    word, each of them exactly. -/
structure WordKept (lost : List UInt64) (s : Session Slim Slim.Wait) : Prop where
  waiters : s.signal.word.waiters.toNat = (s.tickets ++ lost).length + s.blocked.length
  queued : (s.signal.tasks.map Prod.fst).Subperm (s.tickets ++ lost)
  owed_le : s.signal.word.owed ≤ s.signal.word.waiters
  owed_up : 0 < s.signal.word.owed → s.signal.word.signaled = true
  exactly : ∀ r, Exactly Word.Op.apply Word.Op.Exact s.signal.word
    ((s.stepMoves r).flatMap Word.moveOps) (s.step r).state.signal.word

/-- The word stands for the counts of a signal that fits. -/
theorem word_stands (hfits : Fits lost age s) :
    s.signal.word.Stands (countsOf s.signal).registered (countsOf s.signal).pending := by
  obtain ⟨p, hp⟩ := hfits.sound.stands
  rw [Slim.countsOf_eq hp]
  exact hp

theorem step_word_exactly (hfits : Fits lost age s) (rested : Rested s.signal)
    (few : AutoReset.registeredWaits s.signal < 2147483648) (r : Request) :
    Exactly Word.Op.apply Word.Op.Exact s.signal.word ((s.stepMoves r).flatMap Word.moveOps)
      (s.step r).state.signal.word := by
  obtain ⟨hfits', _, hpath⟩ := step_fits hfits rested few r
  have hadds := s.stepMoves_adds r
  have hroom : (countsOf s.signal).registered + (s.stepMoves r).countP Move.adds ≤ 2147483648 := by
    simp only [countsOf]
    omega
  obtain ⟨w, hexactly, hw⟩ := exactly_of_path Word.moveOps
    (fun (w : Word) c => w.Stands c.registered c.pending) Word.Stands.move_exactly hpath
    (word_stands hfits) hroom
  have hsame : w = (s.step r).state.signal.word := hw.holds.word_unique (word_stands hfits').holds
  rw [← hsame]
  exact hexactly

theorem word_kept (hlisted : s.Listed lost) (hfits : Fits lost age s) (rested : Rested s.signal)
    (few : AutoReset.registeredWaits s.signal < 2147483648) : s.WordKept lost := by
  obtain ⟨p, hp⟩ := hfits.sound.stands
  have hcapped := hp.capped
  have howed := hp.holds.owed_toNat
  refine
    { waiters := hp.waiters_toNat
      queued := hlisted.lists.tasks
      owed_le := ?_
      owed_up := ?_
      exactly := step_word_exactly hfits rested few }
  · rw [UInt64.le_iff_toNat_le, howed, hp.waiters_toNat]
    omega
  · intro hpos
    rw [UInt64.lt_iff_toNat_lt, howed] at hpos
    rw [hp.signaled_eq, decide_eq_true_eq]
    exact Nat.lt_of_lt_of_le hpos (Nat.sub_le _ _)

end Single

/-! ### The signal that counts permits -/

section Permits

variable {s : Session Spin Spin.Wait} {age : Nat}

/-- What the counters of the signal stand for: its waiters are the nodes of the queue, which are
    those of the waits that are held and not resolved, each there once and none of them
    cancelled; no more than one permit is there beyond the waiters, and as many nodes are
    notified as there are permits for them; and every request does its moves to the counters,
    each of them exactly. -/
structure CountersKept (s : Session Spin Spin.Wait) : Prop where
  waiters : s.signal.counters.waiters.toNat = s.signal.queue.length
  capped : s.signal.counters.permits.toNat ≤ s.signal.counters.waiters.toNat + 1
  queued : (s.signal.queue.map Node.ticket).Perm s.tickets
  once : ∀ id held t, s.waits.get? id = some held → held.wait = .queued t →
    (s.signal.queue.countP fun n => n.ticket == t) = 1
  standing : ∀ n ∈ s.signal.queue, n.mark ≠ .cancelled
  notified : min s.signal.counters.permits.toNat s.signal.counters.waiters.toNat
    ≤ s.signal.queue.countP fun n => n.mark == .notified
  exactly : ∀ r, Exactly Counters.apply Counters.Exact s.signal.counters (s.stepMoves r)
    (s.step r).state.signal.counters

/-- The counters stand for the counts of a signal that fits. -/
theorem counters_hold {orphans : List Nat} (hfits : Fits orphans age s) :
    s.signal.counters.Holds (countsOf s.signal).pending (countsOf s.signal).registered ∧
      (countsOf s.signal).Capped := by
  obtain ⟨p, hp⟩ := hfits.sound
  rw [hp.countsOf_eq]
  exact ⟨hp.counters, hp.capped⟩

theorem step_counters_exactly {orphans : List Nat} (hfits : Fits orphans age s)
    (sparse : AutoReset.registeredWaits s.signal < 4294967295) (r : Request) :
    Exactly Counters.apply Counters.Exact s.signal.counters (s.stepMoves r)
      (s.step r).state.signal.counters := by
  obtain ⟨hfits', _, hpath⟩ := step_fits hfits trivial sparse r
  have hadds := s.stepMoves_adds r
  have hroom : (countsOf s.signal).registered + (s.stepMoves r).countP Move.adds ≤ 4294967295 := by
    simp only [countsOf]
    omega
  obtain ⟨c, hexactly, hc⟩ := exactly_of_path (fun m => [m])
    (fun (c : Counters) d => c.Holds d.pending d.registered ∧ d.Capped)
    Counters.Holds.move_exactly hpath (counters_hold hfits) hroom
  have hsame : c = (s.step r).state.signal.counters := hc.1.word_unique (counters_hold hfits').1
  rw [← hsame, ← List.flatMap_singleton' (s.stepMoves r)]
  exact hexactly

theorem counters_kept (hfits : Fits [] age s)
    (sparse : AutoReset.registeredWaits s.signal < 4294967295) : s.CountersKept := by
  obtain ⟨p, hp⟩ := hfits.sound
  have hroll : Roll s.tickets [] s.signal.nextTicket s.signal.queue := by
    have hroll := hp.roll
    rw [hp.alone, List.append_nil] at hroll
    exact hroll
  refine
    { waiters := hp.counters.waiters_toNat
      capped := ?_
      queued := hroll.tickets_perm
      once := ?_
      standing := hp.standing
      notified := ?_
      exactly := step_counters_exactly hfits sparse }
  · rw [hp.counters.permits_toNat, hp.counters.waiters_toNat]
    exact hp.capped
  · intro id held t hget hqueued
    have hticket : s.ticket? (.wait id) = some t := by
      simp only [ticket?, hget, Option.bind_some, heldTicket?, hqueued]
      rfl
    apply hroll.count_ticket
    apply List.mem_append_left
    exact (Named.mem_collect hfits.names).mpr ⟨id, hticket⟩
  · rw [hp.counters.permits_toNat, hp.counters.waiters_toNat]
    exact hp.enough

/-- Where no keys are offered none is thrown away. -/
theorem overwritten_eq_nil {rs : List Request} (hfits : Fits [] age s) (hroom : s.Roomy rs) :
    s.overwritten rs = [] := by
  induction rs generalizing s age with
  | nil => rfl
  | cons r rs ih =>
    have hnone : s.orphaned r = [] := by
      have hkeys : s.keys = [] := hfits.keyless rfl
      cases r with
      | newKey id => simp [orphaned, ticket?, hkeys, Named.get?]
      | _ => rfl
    obtain ⟨hfits', _, _⟩ := step_fits hfits trivial hroom.1 r
    rw [hnone] at hfits'
    rw [overwritten, hnone, List.append_nil]
    exact ih hfits' hroom.2

end Permits

/-! ### Every state that a run leads to -/

/-- The packed words keep what they stand for.  The signal in a single word does as long as fewer
    than 2^31 waits are registered at once, and while its 64-bit keys have not come round no two
    of them are alike; the signal that counts permits does as long as fewer than 2^32 - 1 waits
    are queued at once. -/
theorem packed_words_kept (observer : Observer) (rs : List Request) :
    ((Session.new observer : Session Slim Slim.Wait).Uncrowded rs →
      let s := (Session.new observer : Session Slim Slim.Wait)
      (s.after rs).WordKept (s.overwritten rs) ∧
      (rs.length < UInt64.size → ((s.after rs).tickets ++ s.overwritten rs).Nodup ∧
        ((s.after rs).signal.tasks.map Prod.fst).Nodup)) ∧
    ((Session.new observer : Session Spin Spin.Wait).Below 4294967295 rs →
      ((Session.new observer : Session Spin Spin.Wait).after rs).CountersKept) := by
  constructor
  · intro hfew
    have hlisted := (after_listed rs (new_listed observer) rfl).1
    obtain ⟨hfits, hrested⟩ := after_fits_lost (new_fits observer)
      (LawfulSignal.new_rested observer) hfew.roomy
    rw [List.append_nil] at hlisted hfits
    have hkept := word_kept hlisted hfits hrested hfew.last
    refine ⟨hkept, ?_⟩
    intro hyoung
    have hnodup := LawfulSignal.distinct hfits.sound (by rw [Nat.zero_add]; exact hyoung)
    refine ⟨hnodup, ?_⟩
    obtain ⟨l, hperm, hsub⟩ := hkept.queued
    exact hperm.nodup_iff.mp (hnodup.sublist hsub)
  · intro hfew
    have hnone := overwritten_eq_nil (new_fits observer) hfew.roomy
    obtain ⟨hfits, _⟩ := after_fits_lost (new_fits observer) trivial hfew.roomy
    rw [hnone] at hfits
    exact counters_kept hfits hfew.roomy.last

/-- A key is thrown away while it is registered, a thread blocks, releases are owed and taken past
    the queue; and two waits of the signal that counts permits, one of them notified in vain. -/
theorem packed_words_kept_barging :
    (let s := (Session.new .quiet : Session Slim Slim.Wait).after [.newKey "k", .pollKey "k" 1,
        .newKey "k", .wait "a", .poll "a" 2, .block "t", .set, .set, .tryWait, .poll "a" 3];
      s.WordKept [0] ∧ (s.signal.tasks.map Prod.fst).Nodup) ∧
    ((Session.new .quiet : Session Spin Spin.Wait).after [.wait "a", .poll "a" 1, .wait "b",
        .poll "b" 2, .set, .set, .tryWait, .tryWait, .poll "a" 3, .set, .drop "b"]).CountersKept := by
  constructor
  · obtain ⟨hkept, hdistinct⟩ := (packed_words_kept .quiet [.newKey "k", .pollKey "k" 1,
        .newKey "k", .wait "a", .poll "a" 2, .block "t", .set, .set, .tryWait, .poll "a" 3]).1
      (by decide)
    exact ⟨hkept, (hdistinct (by decide)).2⟩
  · exact (packed_words_kept .quiet [.wait "a", .poll "a" 1, .wait "b",
        .poll "b" 2, .set, .set, .tryWait, .tryWait, .poll "a" 3, .set, .drop "b"]).2 (by decide)

end Session

end Conduit.Signal

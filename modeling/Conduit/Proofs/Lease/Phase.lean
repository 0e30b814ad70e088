/-
  Conduit/Proofs/Lease/Phase.lean
  ===============================
  **The phases of a slot.**

  A word with four flags, a count and three cells could stand in many ways; a slot in
  use stands in one of few.  It is idle; or its lease is open, and then the consumer
  still holds the future, has left a continuation, or has gone away; or the outcome is
  there and the future may take it; or the outcome has been given to the continuation,
  whose return is awaited.

  `Slot.Stands` says that a slot is what its phase says.  For each operation one lemma
  tells what it does in the phases in which somebody can ask for it.
-/
import Conduit.Lease.Slot
import Conduit.Proofs.Lease.Word

namespace Conduit.Lease

/-- What has become of a continuation that was given the outcome: it waits with the spawner, it
    runs, or it will never return. -/
inductive Handover (α κ : Type)
  | waiting (k : κ) (v : Verdict α)
  | running (k : κ) (v : Verdict α)
  | lost

/-- How far the lease of a slot has come: not begun, no outcome and the future held with the waker
    of its last poll, the outcome there and the future held, a continuation left or the future
    dropped before there is an outcome, and the outcome handed over to a continuation. -/
inductive Phase (α κ : Type)
  | idle
  | pending (w : Option Waker)
  | ready (v : Verdict α)
  | expecting (k : κ)
  | detached
  | handed (x : Handover α κ)

namespace Phase

variable {α κ : Type}

def flags : Phase α κ → Flags
  | .idle | .pending _ => .none
  | .ready _ => ⟨true, true, false, false⟩
  | .expecting _ => ⟨false, false, true, false⟩
  | .detached => ⟨false, false, false, true⟩
  | .handed _ => ⟨true, true, true, false⟩

def value? : Phase α κ → Option (Verdict α)
  | .ready v => some v
  | _ => none

def continuation? : Phase α κ → Option κ
  | .expecting k => some k
  | _ => none

/-- Whether an outcome is still looked for. -/
def isOpen : Phase α κ → Bool
  | .pending _ | .expecting _ | .detached => true
  | _ => false

/-- Whether the waker's cell can hold this.  Nobody looks at a waker that was left behind. -/
def Keeps (w : Option Waker) : Phase α κ → Prop
  | .idle | .ready _ => w = none
  | .pending w' => w = w'
  | _ => True

/-- Whether so many completers can be counted: none of an idle slot, some of an open lease. -/
def Counts (n : Nat) : Phase α κ → Prop
  | .idle => n = 0
  | .pending _ | .expecting _ | .detached => 0 < n
  | _ => True

end Phase

namespace Slot

variable {α κ : Type}

/-- A slot of a generation, with so many completers, stands in a phase. -/
structure Stands (s : Slot α κ) (g : UInt32) (n : Nat) (p : Phase α κ) : Prop where
  word : s.word.Holds g n p.flags
  value : s.value = p.value?
  continuation : s.continuation = p.continuation?
  waker : p.Keeps s.waker
  counted : p.Counts n

variable {s : Slot α κ} {g : UInt32} {n : Nat} {p : Phase α κ}

theorem Stands.generation_eq (h : s.Stands g n p) : s.generation = g := h.word.generation_eq

theorem Stands.isClaimed_eq (h : s.Stands g n p) (hp : p ≠ .idle) :
    s.word.isClaimed = !p.isOpen := by
  rw [h.word.isClaimed_eq]
  cases p with
  | idle => exact absurd rfl hp
  | _ => rfl

theorem new_stands (home : Home) (deferred : Bool) (observer : Observer) :
    (new home deferred observer : Slot α κ).Stands 0 0 .idle where
  word := Word.holds_idle 0
  value := rfl
  continuation := rfl
  waker := rfl
  counted := rfl

theorem recycle_stands (h : s.generation = g) : s.recycle.Stands (g + 1) 0 .idle where
  word := h ▸ Word.holds_idle (s.generation + 1)
  value := rfl
  continuation := rfl
  waker := rfl
  counted := rfl

/-! ### What no operation touches -/

/-- Two states of one slot: it goes to the same home, its continuations run in the same place, and
    the same observer is told. -/
structure Alike (s s' : Slot α κ) : Prop where
  home : s'.home = s.home
  deferred : s'.deferred = s.deferred
  observer : s'.observer = s.observer

variable {s' s'' : Slot α κ}

theorem Alike.refl (s : Slot α κ) : s.Alike s := ⟨rfl, rfl, rfl⟩

theorem Alike.trans (h : s.Alike s') (h' : s'.Alike s'') : s.Alike s'' :=
  ⟨h'.home.trans h.home, h'.deferred.trans h.deferred, h'.observer.trans h.observer⟩

theorem lease_alike (s : Slot α κ) : s.Alike s.lease.state := by
  rw [lease]
  split <;> exact ⟨rfl, rfl, rfl⟩

theorem recycle_alike (s : Slot α κ) : s.Alike s.recycle := by
  rw [recycle]
  exact ⟨rfl, rfl, rfl⟩

theorem due_alike (s : Slot α κ) : s.Alike s.due.state := by
  simp only [due]
  split
  · exact ⟨rfl, rfl, rfl⟩
  · exact ⟨rfl, rfl, rfl⟩

theorem publish_alike (s : Slot α κ) (v : Verdict α) : s.Alike (s.publish v).state := by
  have hseen : s.Alike { s with value := some v, word := s.word.raise .completed } :=
    ⟨rfl, rfl, rfl⟩
  simp only [publish]
  split
  · exact hseen.trans (due_alike _)
  · split
    · exact hseen.trans (recycle_alike _)
    · exact ⟨rfl, rfl, rfl⟩

theorem complete_alike (s : Slot α κ) (g : UInt32) (v : Verdict α) :
    s.Alike (s.complete g v).state := by
  rw [complete]
  cases hclaim : s.claim? g with
  | none => exact .refl s
  | some t =>
    have ht : s.Alike t := by
      rw [claim?] at hclaim
      split at hclaim
      · cases hclaim
      · cases hclaim
        exact ⟨rfl, rfl, rfl⟩
    exact ht.trans (publish_alike t v)

theorem enlist_alike (s : Slot α κ) (g : UInt32) (m : Nat) : s.Alike (s.enlist g m).state := by
  rw [enlist]
  split <;> exact ⟨rfl, rfl, rfl⟩

theorem dismiss_alike (s : Slot α κ) (g : UInt32) : s.Alike (s.dismiss g).state := by
  have hclaimed : s.Alike { s with word := s.word.leave.raise .completing } := ⟨rfl, rfl, rfl⟩
  simp only [dismiss]
  split
  · exact .refl s
  · split
    · exact hclaimed.trans (publish_alike _ _)
    · exact ⟨rfl, rfl, rfl⟩

theorem take_alike (s : Slot α κ) : s.Alike s.take.state := by
  rw [take]
  split
  · exact recycle_alike s
  · exact .refl s

theorem poll_alike (s : Slot α κ) (w : Waker) : s.Alike (s.poll w).state := by
  rw [poll, Outcome.andThen_state]
  split
  · exact take_alike s
  · exact (take_alike s).trans ⟨rfl, rfl, rfl⟩

theorem register_alike (s : Slot α κ) (k : κ) : s.Alike (s.register k).state := by
  have hleft : s.Alike { s with continuation := some k, word := s.word.raise .continuation } :=
    ⟨rfl, rfl, rfl⟩
  simp only [register]
  split
  · exact hleft.trans (due_alike _)
  · exact hleft

theorem detach_alike (s : Slot α κ) : s.Alike s.detach.state := by
  have hgone : s.Alike { s with word := s.word.raise .detached } := ⟨rfl, rfl, rfl⟩
  simp only [detach]
  split
  · exact hgone.trans (recycle_alike _)
  · exact hgone

/-! ### Beginning a lease -/

theorem Stands.isIdle_iff (h : s.Stands g n p) : s.word.isIdle = true ↔ p = .idle := by
  rw [h.word.isIdle_iff]
  have hcounted := h.counted
  cases p with
  | idle => exact ⟨fun _ => rfl, fun _ => ⟨hcounted, rfl⟩⟩
  | pending w => simp only [Phase.Counts] at hcounted; simp; omega
  | _ => simp [Phase.flags, Flags.none]

theorem lease_idle (h : s.Stands g n .idle) :
    ∃ s', s.lease = .pure (.ok g) s' ∧ s'.Stands g 1 (.pending none) := by
  refine ⟨{ s with word := s.word.enter 1 }, ?_, ?_⟩
  · rw [lease, if_pos (h.isIdle_iff.mpr rfl), h.generation_eq]
  · have hzero : n = 0 := h.counted
    have hword := h.word
    rw [hzero] at hword
    exact
      { word := hword.enter (by decide)
        value := h.value
        continuation := h.continuation
        waker := h.waker
        counted := Nat.one_pos }

theorem lease_busy (h : s.Stands g n p) (hp : p ≠ .idle) :
    s.lease = .pure (.error (.slotInUse s.word.debug)) s := by
  rw [lease, if_neg (fun hidle => hp (h.isIdle_iff.mp hidle))]

/-! ### Settling an open lease -/

/-- What an outcome leads to, by the phase that it finds: the waiting task is woken, the
    continuation is due, or the slot is recycled. -/
inductive Settles (g : UInt32) (n : Nat) (v : Verdict α) :
    Phase α κ → Outcome (Sequel α κ) (Slot α κ) → Prop
  | pending {w : Option Waker} {s' : Slot α κ} (h : s'.Stands g n (.ready v)) :
    Settles g n v (.pending w) ⟨.nothing, s', w.toList.map .woken⟩
  | expecting {k : κ} {s' : Slot α κ} (h : ∀ x, s'.Stands g n (.handed x)) :
    Settles g n v (.expecting k) ⟨.resume k v, s', []⟩
  | detached {s' : Slot α κ} (h : s'.Stands (g + 1) 0 .idle) :
    Settles g n v .detached ⟨.home, s', []⟩

/-- The one who has claimed an open lease settles it, whoever is left of its completers. -/
theorem publish_settles {word : Word} (v : Verdict α) (hopen : p.isOpen = true)
    (hword : word.Holds g n (p.flags.raise .completing)) (hvalue : s.value = p.value?)
    (hcontinuation : s.continuation = p.continuation?) (hwaker : p.Keeps s.waker) :
    Settles g n v p (publish { s with word := word } v) := by
  have hcompleted := hword.raise .completed
  cases p with
  | pending w =>
    have hw : s.waker = w := hwaker
    have hout : publish { s with word := word } v =
        ⟨.nothing,
          { s with value := some v, word := word.raise .completed, waker := none },
          w.toList.map .woken⟩ := by
      simp [publish, hword.has_eq, Phase.flags, Flags.raise, Flags.has, Flags.none, hw]
    rw [hout]
    refine .pending ⟨hcompleted, rfl, hcontinuation, rfl, trivial⟩
  | expecting k =>
    have hout : publish { s with word := word } v =
        ⟨.resume k v,
          { s with value := none, continuation := none, word := word.raise .completed }, []⟩ := by
      simp [publish, due, hword.has_eq, Phase.flags, Flags.raise, Flags.has, hcontinuation,
        Phase.continuation?, Outcome.pure]
    rw [hout]
    exact .expecting fun _ => ⟨hcompleted, rfl, rfl, trivial, trivial⟩
  | detached =>
    have hout : publish { s with word := word } v =
        ⟨.home, recycle { s with value := some v, word := word.raise .completed }, []⟩ := by
      simp [publish, hword.has_eq, Phase.flags, Flags.raise, Flags.has, Outcome.pure]
    rw [hout]
    exact .detached (recycle_stands hcompleted.generation_eq)
  | idle => cases hopen
  | ready v => cases hopen
  | handed x => cases hopen

/-! ### Completers -/

/-- A completer of the lease settles it while it is open. -/
theorem complete_open (h : s.Stands g n p) (hopen : p.isOpen = true) (v : Verdict α) :
    ∃ o, Settles g n v p o ∧ s.complete g v = o.map .ok := by
  refine ⟨publish { s with word := s.word.raise .completing } v, ?_, ?_⟩
  · exact publish_settles v hopen (h.word.raise .completing) h.value h.continuation h.waker
  · have hclaimed : s.word.isClaimed = false := by
      rw [h.isClaimed_eq (by rintro rfl; cases hopen), hopen]
      rfl
    simp [complete, claim?, h.generation_eq, hclaimed]

/-- Once it is settled, every completion is refused; and so is one by a completer of another
    generation at any time. -/
theorem complete_refused {g' : UInt32} (h : s.isSettled g' = true) (v : Verdict α) :
    s.complete g' v = ⟨.error ⟨v⟩, s, [.reported s.observer .doubleCompletion]⟩ := by
  have hover : s.generation ≠ g' ∨ s.word.isClaimed = true := by
    simpa [isSettled] using h
  rw [complete, claim?, if_pos hover]

theorem isSettled_of_ne {g' : UInt32} (h : s.generation ≠ g') : s.isSettled g' = true := by
  simp [isSettled, h]

theorem Stands.isSettled_eq (h : s.Stands g n p) (hp : p ≠ .idle) :
    s.isSettled g = !p.isOpen := by
  simp [isSettled, h.generation_eq, h.isClaimed_eq hp]

/-- One completer more is counted as long as there is room. -/
theorem enlist_one (h : s.Stands g n p) (hp : p ≠ .idle) :
    (n < Word.maxCompleters ∧
      ∃ s', s.enlist g 1 = .pure (.ok ()) s' ∧ s'.Stands g (n + 1) p) ∨
    (n = Word.maxCompleters ∧ s.enlist g 1 = .pure (.error .tooManyCompleters) s) := by
  have hcompleters := h.word.completers_eq
  rcases Nat.lt_or_ge n Word.maxCompleters with hlt | hge
  · refine Or.inl ⟨hlt, { s with word := s.word.enter 1 }, ?_, ?_⟩
    · have hroom : 1 ≤ Word.maxCompleters - n := by omega
      simp [enlist, h.generation_eq, hcompleters, hroom]
    · refine ⟨h.word.enter hlt, h.value, h.continuation, h.waker, ?_⟩
      cases p with
      | idle => exact absurd rfl hp
      | pending w => exact Nat.succ_pos n
      | expecting k => exact Nat.succ_pos n
      | detached => exact Nat.succ_pos n
      | _ => trivial
  · have heq : n = Word.maxCompleters := Nat.le_antisymm h.word.completers_le hge
    have hsame : s.word.enter 0 = s.word :=
      (h.word.enter (n := 0) h.word.completers_le).unique h.word
    refine Or.inr ⟨heq, ?_⟩
    simp [enlist, h.generation_eq, hcompleters, heq, hsame]

theorem enlist_of_ne {g' : UInt32} (h : s.generation ≠ g') (m : Nat) :
    s.enlist g' m = .pure (.ok ()) s := by
  simp [enlist, h]

/-- A completer that goes away leaves the lease to the others, or as it was settled. -/
theorem dismiss_kept (h : s.Stands g (n + 1) p) (hn : p.Counts n) (hp : p ≠ .idle) :
    ∃ s', s.dismiss g = .pure .nothing s' ∧ s'.Stands g n p := by
  have hleave := h.word.leave
  refine ⟨{ s with word := s.word.leave }, ?_, hleave, h.value, h.continuation, h.waker, hn⟩
  have hkept : ¬ (n = 0 ∧ s.word.isClaimed = false) := by
    rintro ⟨hzero, hclaimed⟩
    rw [h.isClaimed_eq hp] at hclaimed
    cases p with
    | idle => exact hp rfl
    | ready v => cases hclaimed
    | handed x => cases hclaimed
    | pending w => exact absurd hzero (Nat.ne_of_gt hn)
    | expecting k => exact absurd hzero (Nat.ne_of_gt hn)
    | detached => exact absurd hzero (Nat.ne_of_gt hn)
  simp only [dismiss, h.generation_eq, hleave.completers_eq, Bool.not_eq_true]
  simp [hkept]

/-- The last completer of an open lease abandons it. -/
theorem dismiss_last (h : s.Stands g 1 p) (hopen : p.isOpen = true) :
    ∃ o, Settles g 0 (.error .abandoned) p o ∧
      s.dismiss g
        = ⟨o.answer, o.state, .reported s.observer .futureAbandoned :: o.effects⟩ := by
  have hleave := h.word.leave
  have hclaimed : s.word.isClaimed = false := by
    rw [h.isClaimed_eq (by rintro rfl; cases hopen), hopen]
    rfl
  refine ⟨publish { s with word := s.word.leave.raise .completing } (.error .abandoned), ?_, ?_⟩
  · exact publish_settles _ hopen (hleave.raise .completing) h.value h.continuation h.waker
  · simp [dismiss, h.generation_eq, hleave.completers_eq, hclaimed, Outcome.andThen]

theorem dismiss_of_ne {g' : UInt32} (h : s.generation ≠ g') :
    s.dismiss g' = .pure .nothing s := by
  simp [dismiss, h]

/-! ### The consumer -/

theorem Stands.isCompleted_eq (h : s.Stands g n p) : s.isCompleted = p.flags.completed :=
  h.word.has_eq .completed

theorem take_ready {v : Verdict α} (h : s.Stands g n (.ready v)) :
    s.take = .pure (some v) s.recycle := by
  have hcompleted : s.isCompleted = true := h.isCompleted_eq
  have hvalue : s.value = some v := h.value
  simp [take, hcompleted, hvalue]

theorem take_pending {w : Option Waker} (h : s.Stands g n (.pending w)) :
    s.take = .pure none s := by
  have hcompleted : s.isCompleted = false := h.isCompleted_eq
  simp [take, hcompleted]

theorem poll_ready {v : Verdict α} (h : s.Stands g n (.ready v)) (w : Waker) :
    s.poll w = .pure (some v) s.recycle := by
  rw [poll, take_ready h]
  rfl

theorem poll_pending {w : Option Waker} (h : s.Stands g n (.pending w)) (w' : Waker) :
    ∃ s', s.poll w' = .pure none s' ∧ s'.Stands g n (.pending (some w')) := by
  refine ⟨{ s with waker := some w' }, ?_, h.word, h.value, h.continuation, rfl, h.counted⟩
  rw [poll, take_pending h]
  rfl

theorem register_ready {v : Verdict α} (h : s.Stands g n (.ready v)) (k : κ) :
    ∃ s', s.register k = .pure (.resume k v) s' ∧ ∀ x, s'.Stands g n (.handed x) := by
  have hcompleted : s.isCompleted = true := h.isCompleted_eq
  have hvalue : s.value = some v := h.value
  refine ⟨{ s with value := none, continuation := none, word := s.word.raise .continuation },
    ?_, fun _ => ⟨h.word.raise .continuation, rfl, rfl, trivial, trivial⟩⟩
  simp [register, due, hcompleted, hvalue]

theorem register_pending {w : Option Waker} (h : s.Stands g n (.pending w)) (k : κ) :
    ∃ s', s.register k = .pure .nothing s' ∧ s'.Stands g n (.expecting k) := by
  have hcompleted : s.isCompleted = false := h.isCompleted_eq
  refine ⟨{ s with continuation := some k, word := s.word.raise .continuation },
    ?_, h.word.raise .continuation, h.value, rfl, trivial, h.counted⟩
  simp [register, hcompleted]

theorem detach_ready {v : Verdict α} (h : s.Stands g n (.ready v)) :
    ∃ s', s.detach = .pure .home s' ∧ s'.Stands (g + 1) 0 .idle := by
  have hcompleted : s.isCompleted = true := h.isCompleted_eq
  refine ⟨recycle { s with word := s.word.raise .detached }, ?_, ?_⟩
  · simp [detach, hcompleted]
  · exact recycle_stands (h.word.raise .detached).generation_eq

theorem detach_pending {w : Option Waker} (h : s.Stands g n (.pending w)) :
    ∃ s', s.detach = .pure .nothing s' ∧ s'.Stands g n .detached := by
  have hcompleted : s.isCompleted = false := h.isCompleted_eq
  refine ⟨{ s with word := s.word.raise .detached },
    ?_, h.word.raise .detached, h.value, h.continuation, trivial, h.counted⟩
  simp [detach, hcompleted]

end Slot

end Conduit.Lease

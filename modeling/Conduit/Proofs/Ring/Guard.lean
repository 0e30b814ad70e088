/-
  Conduit/Proofs/Ring/Guard.lean
  ==============================
  **Nobody sleeps in a channel without need.**

  A channel is guarded if each of its signals has one waiter at most, a sleeping writer
  means that the store is full and the reader open, and a sleeping reader means that the
  store is empty and the writer open.  A transfer undoes one of these conditions only by
  moving a byte, and then it sets the other end's signal, which lets the sleeper go.  A
  call that sleeps has just found its condition true.

  That a loop comes to an end at all is part of the argument: a loop that ran out of
  passes would leave its end waiting without a registration.
-/
import Conduit.Proofs.Ring.Gate
import Conduit.Proofs.Ring.Stream

namespace Conduit.Ring

open Signal (Slim WaitKey)

namespace Store

/-- No byte fits. -/
def Full (s : Store) : Prop := s.len.toNat = s.storage.size

/-- No byte is unread. -/
def Empty (s : Store) : Prop := s.len.toNat = 0

instance (s : Store) : Decidable s.Full := inferInstanceAs (Decidable (_ = _))

instance (s : Store) : Decidable s.Empty := inferInstanceAs (Decidable (_ = _))

theorem Sized.not_full_empty {s : Store} (h : s.Sized) : ¬ (s.Full ∧ s.Empty) := by
  rintro ⟨hfull, hempty⟩
  have hpos := h.pos
  rw [Full, hempty] at hfull
  omega

end Store

namespace Channel

variable {α : Type} {c : Channel} {writer writer' reader reader' : Occupant}

/-- Each end is registered with its signal, and sleeps only when it has to wait. -/
structure Guarded (writer reader : Occupant) (c : Channel) : Prop where
  sized : c.store.Sized
  space : Attends writer c.spaceReady
  data : Attends reader c.dataReady
  full : Sleeps c.spaceReady → c.store.Full ∧ c.readerClosed = false
  empty : Sleeps c.dataReady → c.store.Empty ∧ c.writerClosed = false

@[simp] theorem onSpace_answer (c : Channel) (o : Outcome α Slim) :
    (c.onSpace o).answer = o.answer := rfl

@[simp] theorem onData_answer (c : Channel) (o : Outcome α Slim) :
    (c.onData o).answer = o.answer := rfl

@[simp] theorem stall_state (c : Channel) (side : Side) : (c.stall side).state = c := rfl

/-- The writer's end waits, or stops waiting. -/
theorem Guarded.onSpace (h : c.Guarded writer reader) {o : Outcome α Slim}
    (hspace : Attends writer' o.state)
    (hfull : Sleeps o.state → c.store.Full ∧ c.readerClosed = false) :
    (c.onSpace o).state.Guarded writer' reader :=
  ⟨h.sized, hspace, h.data, hfull, h.empty⟩

/-- The reader's end waits, or stops waiting. -/
theorem Guarded.onData (h : c.Guarded writer reader) {o : Outcome α Slim}
    (hdata : Attends reader' o.state)
    (hempty : Sleeps o.state → c.store.Empty ∧ c.writerClosed = false) :
    (c.onData o).state.Guarded writer reader' :=
  ⟨h.sized, h.space, hdata, h.full, hempty⟩

theorem new_guarded {capacity : Nat} (hpos : 0 < capacity) (hword : capacity < UInt64.size)
    (observer : Observer) : (new capacity observer).Guarded .nobody .nobody where
  sized := Store.new_sized hpos hword
  space := Attends.new .quiet
  data := Attends.new .quiet
  full hsleeps := absurd hsleeps (Attends.new .quiet).not_sleeps_nobody
  empty hsleeps := absurd hsleeps (Attends.new .quiet).not_sleeps_nobody

/-! ### Single operations -/

theorem tryWrite_spaceReady (c : Channel) (src : List UInt8) :
    (c.tryWrite src).state.spaceReady = c.spaceReady := by
  rw [tryWrite]
  split <;> rfl

theorem tryRead_dataReady (c : Channel) (limit : Nat) :
    (c.tryRead limit).state.dataReady = c.dataReady := by
  rw [tryRead]
  split <;> rfl

/-- A write that commits nothing changes nothing; if it had something to commit, the store is
    full. -/
theorem Guarded.tryWrite (h : c.Guarded writer reader) (src : List UInt8) :
    (c.tryWrite src).state.Guarded writer reader ∧
      ((c.tryWrite src).answer = 0 →
        (c.tryWrite src).state = c ∧ (src ≠ [] → c.store.Full)) := by
  obtain ⟨hn, hsized, _, _⟩ := h.sized.tryWrite src
  have hfits := h.sized.fits
  rw [Channel.tryWrite]
  split
  · rename_i store hcommit
    rw [hcommit] at hn
    refine ⟨h, ?_⟩
    intro _
    refine ⟨rfl, ?_⟩
    intro hsome
    have hpos := List.length_pos_iff.mpr hsome
    rw [Store.Full]
    omega
  · rename_i n store hne hcommit
    rw [hcommit] at hn hsized
    have hpos : n ≠ 0 := hne
    obtain ⟨hdata, hlet⟩ := h.data.set
    constructor
    · refine ⟨hsized, h.space, hdata, ?_, fun hsleeps => absurd hsleeps hlet⟩
      intro hsleeps
      have hfull := (h.full hsleeps).1
      rw [Store.Full] at hfull
      omega
    · intro hzero
      exact absurd hzero hpos

/-- A read that takes nothing changes nothing; if it wanted something, the store is empty. -/
theorem Guarded.tryRead (h : c.Guarded writer reader) (limit : Nat) :
    (c.tryRead limit).state.Guarded writer reader ∧
      ((c.tryRead limit).answer = [] →
        (c.tryRead limit).state = c ∧ (limit ≠ 0 → c.store.Empty)) := by
  obtain ⟨hlength, hsized, _, _⟩ := h.sized.tryRead limit
  rw [Channel.tryRead]
  split
  · rename_i store htaken
    rw [htaken, List.length_nil] at hlength
    refine ⟨h, ?_⟩
    intro _
    refine ⟨rfl, ?_⟩
    intro hsome
    rw [Store.Empty]
    omega
  · rename_i bytes store hne htaken
    rw [htaken] at hlength hsized
    have hsome : bytes ≠ [] := hne
    have htook : bytes.length = min limit c.store.len.toNat := hlength
    obtain ⟨hspace, hlet⟩ := h.space.set
    constructor
    · refine ⟨hsized, hspace, h.data, fun hsleeps => absurd hsleeps hlet, ?_⟩
      intro hsleeps
      have hempty := (h.empty hsleeps).1
      have hpos := List.length_pos_iff.mpr hsome
      rw [Store.Empty] at hempty
      omega
    · intro hnil
      exact absurd hnil hsome

theorem Guarded.offer (h : c.Guarded writer reader) (src : List UInt8) :
    (c.offer src).state.Guarded writer reader := by
  rw [Channel.offer]
  split
  · exact h
  · exact (h.tryWrite src).1

theorem Guarded.closeWriter (h : c.Guarded writer reader) :
    c.closeWriter.state.Guarded writer reader := by
  rw [Channel.closeWriter]
  split
  · exact h
  · obtain ⟨hdata, hlet⟩ := h.data.set
    exact ⟨h.sized, h.space, hdata, h.full, fun hsleeps => absurd hsleeps hlet⟩

theorem Guarded.closeReader (h : c.Guarded writer reader) :
    c.closeReader.state.Guarded writer reader := by
  rw [Channel.closeReader]
  split
  · exact h
  · obtain ⟨hspace, hlet⟩ := h.space.set
    exact ⟨h.sized, hspace, h.data, fun hsleeps => absurd hsleeps hlet, h.empty⟩

theorem Guarded.withdrawWriter {key : WaitKey} (h : c.Guarded (occupant key) reader) :
    (c.withdrawWriter key).state.Guarded .nobody reader :=
  h.onSpace h.space.withdraw fun hsleeps => absurd hsleeps h.space.withdraw.not_sleeps_nobody

theorem Guarded.withdrawReader {key : WaitKey} (h : c.Guarded writer (occupant key)) :
    (c.withdrawReader key).state.Guarded writer .nobody :=
  h.onData h.data.withdraw fun hsleeps => absurd hsleeps h.data.withdraw.not_sleeps_nobody

end Channel

/-! ### Polls -/

/-- What a pass of a poll leaves: it consumed a release, or it is over with the key fresh, or the
    task sleeps under its waker. -/
def PassLeaves {α : Type} (signal : Channel → Slim) (w : Waker) (s s' : Keyed) :
    Option (Poll α) → Prop
  | none => (signal s'.1).pendingReleases < (signal s.1).pendingReleases
  | some (.ready _) => s'.2 = .fresh
  | some .pending => ∃ k, s'.2 = ⟨some k⟩ ∧ (signal s'.1).tasks = [(k, w)]

/-- What a poll leaves: it is over with the key fresh or with nothing done, or the task sleeps
    under its waker. -/
def PollLeaves {α : Type} (signal : Channel → Slim) (w : Waker) (s s' : Keyed) : Poll α → Prop
  | .ready _ => s'.2 = .fresh ∨ s' = s
  | .pending => ∃ k, s'.2 = ⟨some k⟩ ∧ (signal s'.1).tasks = [(k, w)]

/-- A poll whose passes keep an invariant comes to an end. -/
theorem poll_loop {α : Type} {signal : Channel → Slim} {w : Waker}
    {pass : Keyed → Outcome (Option (Poll α)) Keyed} {G : Keyed → Prop}
    (each : ∀ s, G s → G (pass s).state ∧ PassLeaves signal w s (pass s).state (pass s).answer)
    {s : Keyed} (h : G s) {o : Outcome (Option (Poll α)) Keyed}
    (ho : o = Outcome.loop pass ((signal s.1).pendingReleases + 1) s) :
    G o.state ∧ PollLeaves signal w s o.state (o.answer.getD .pending) := by
  have hanswered (s' : Keyed) (r : Poll α) (hs' : G s') (hr : (pass s').answer = some r) :
      G (pass s').state ∧ PollLeaves signal w s (pass s').state r := by
    obtain ⟨hkept, hleaves⟩ := each s' hs'
    rw [hr] at hleaves
    cases r with
    | ready a => exact ⟨hkept, Or.inl hleaves⟩
    | pending => exact ⟨hkept, hleaves⟩
  have hagain (s' : Keyed) (hs' : G s') (hr : (pass s').answer = none) :
      G (pass s').state ∧
        (signal (pass s').state.1).pendingReleases < (signal s'.1).pendingReleases := by
    obtain ⟨hkept, hleaves⟩ := each s' hs'
    rw [hr] at hleaves
    exact ⟨hkept, hleaves⟩
  obtain ⟨r, hr, hleaves⟩ := Outcome.loop_answers
    (Q := fun r s' => G s' ∧ PollLeaves signal w s s' r)
    (m := fun s => (signal s.1).pendingReleases) hanswered hagain
    ((signal s.1).pendingReleases + 1) s h (Nat.lt_succ_self _)
  rw [ho, hr]
  exact hleaves

open Channel (Guarded)

variable {writer reader : Occupant}

theorem writePass_guarded (w : Waker) {src : List UInt8} (hsome : src ≠ []) {s : Keyed}
    (h : Guarded (occupant s.2) reader s.1) :
    Guarded (occupant (writePass w src s).state.2) reader (writePass w src s).state.1 ∧
      PassLeaves Channel.spaceReady w s (writePass w src s).state (writePass w src s).answer := by
  rw [writePass]
  by_cases hclosed : s.1.readerClosed
  · rw [if_pos hclosed]
    exact ⟨h.withdrawWriter, rfl⟩
  · rw [if_neg hclosed]
    obtain ⟨hkept, hnone⟩ := h.tryWrite src
    simp only [Outcome.andThen_answer, Outcome.andThen_state]
    by_cases hpos : 0 < (s.1.tryWrite src).answer
    · rw [if_pos hpos]
      exact ⟨hkept.withdrawWriter, rfl⟩
    · obtain ⟨hsame, hfull⟩ := hnone (by omega)
      have hwaits : s.1.store.Full ∧ s.1.readerClosed = false :=
        ⟨hfull hsome, Bool.eq_false_iff.mpr hclosed⟩
      rw [if_neg hpos, hsame]
      simp only [Outcome.andThen_answer, Outcome.andThen_state, Channel.onSpace_answer]
      rcases h.space.pollWait w with ⟨hanswer, hspace, hless⟩ | ⟨k, hanswer, hspace, htasks, _⟩
      · simp only [hanswer, if_true]
        exact ⟨h.onSpace hspace fun _ => hwaits, hless⟩
      · simp only [hanswer, Bool.false_eq_true, if_false]
        exact ⟨h.onSpace hspace fun _ => hwaits, k, rfl, htasks⟩

theorem pollWrite_guarded (w : Waker) (src : List UInt8) {s : Keyed}
    (h : Guarded (occupant s.2) reader s.1) :
    Guarded (occupant (pollWrite w src s).state.2) reader (pollWrite w src s).state.1 ∧
      PollLeaves Channel.spaceReady w s (pollWrite w src s).state (pollWrite w src s).answer := by
  rw [pollWrite]
  split
  · exact ⟨h, Or.inr rfl⟩
  · split
    · exact ⟨h, Or.inr rfl⟩
    · rename_i hne
      have hsome : src ≠ [] := fun hnil => hne (List.isEmpty_iff.mpr hnil)
      exact poll_loop (G := fun s => Guarded (occupant s.2) reader s.1)
        (fun s hs => writePass_guarded w hsome hs) h rfl

theorem readPass_guarded (w : Waker) {limit : Nat} (hsome : limit ≠ 0) {s : Keyed}
    (h : Guarded writer (occupant s.2) s.1) :
    Guarded writer (occupant (readPass w limit s).state.2) (readPass w limit s).state.1 ∧
      PassLeaves Channel.dataReady w s (readPass w limit s).state (readPass w limit s).answer := by
  obtain ⟨hkept, hnone⟩ := h.tryRead limit
  simp only [readPass, Outcome.andThen_answer, Outcome.andThen_state]
  by_cases hover : ¬ (s.1.tryRead limit).answer.isEmpty ∨ (s.1.tryRead limit).state.writerClosed
  · rw [if_pos hover]
    exact ⟨hkept.withdrawReader, rfl⟩
  · rw [if_neg hover]
    rw [not_or, not_not, List.isEmpty_iff, Bool.not_eq_true] at hover
    obtain ⟨hsame, hempty⟩ := hnone hover.1
    rw [hsame] at hover
    have hwaits : s.1.store.Empty ∧ s.1.writerClosed = false := ⟨hempty hsome, hover.2⟩
    rw [hsame]
    simp only [Outcome.andThen_answer, Outcome.andThen_state, Channel.onData_answer]
    rcases h.data.pollWait w with ⟨hanswer, hdata, hless⟩ | ⟨k, hanswer, hdata, htasks, _⟩
    · simp only [hanswer, if_true]
      exact ⟨h.onData hdata fun _ => hwaits, hless⟩
    · simp only [hanswer, Bool.false_eq_true, if_false]
      exact ⟨h.onData hdata fun _ => hwaits, k, rfl, htasks⟩

theorem pollRead_guarded (w : Waker) (limit : Nat) {s : Keyed}
    (h : Guarded writer (occupant s.2) s.1) :
    Guarded writer (occupant (pollRead w limit s).state.2) (pollRead w limit s).state.1 ∧
      PollLeaves Channel.dataReady w s (pollRead w limit s).state (pollRead w limit s).answer := by
  rw [pollRead]
  split
  · exact ⟨h, Or.inr rfl⟩
  · rename_i hsome
    exact poll_loop (G := fun s => Guarded writer (occupant s.2) s.1)
      (fun s hs => readPass_guarded w hsome hs) h rfl

/-! ### Writes of whole buffers -/

theorem writePass_pos (w : Waker) (src : List UInt8) (s : Keyed) {n : Nat}
    (hr : (writePass w src s).answer = some (.ready (.ok n))) : 0 < n := by
  revert hr
  rw [writePass]
  split
  · intro hr
    cases hr
  · simp only [Outcome.andThen_answer]
    split
    · rename_i hpos
      intro hr
      rw [Outcome.map_answer] at hr
      cases hr
      exact hpos
    · simp only [Outcome.andThen_answer]
      split
      · intro hr
        cases hr
      · intro hr
        cases hr

/-- A partial write that reports a count committed something. -/
theorem pollWrite_pos (w : Waker) {src : List UInt8} (hsome : src ≠ []) (s : Keyed) {n : Nat}
    (hr : (pollWrite w src s).answer = .ready (.ok n)) : 0 < n := by
  rw [pollWrite] at hr
  split at hr
  · cases hr
  · split at hr
    · rename_i hnil
      exact absurd (List.isEmpty_iff.mp hnil) hsome
    · rw [Outcome.map_answer] at hr
      have hloop := Outcome.loop_answer
        (P := fun r : Poll (Except RingClosed Nat) => r = .ready (.ok n) → 0 < n)
        (fun s r hr hcount => writePass_pos w src s (hcount ▸ hr))
        (s.1.spaceReady.pendingReleases + 1) s
      cases hanswer :
        (Outcome.loop (writePass w src) (s.1.spaceReady.pendingReleases + 1) s).answer with
      | none =>
        rw [hanswer] at hr
        cases hr
      | some r =>
        rw [hanswer] at hr
        exact hloop r hanswer hr

/-- The key and the channel of a write under way, as its poll leaves them. -/
theorem writeAllPass_guarded (w : Waker) (data : List UInt8) {s : Writing}
    (h : Guarded (occupant s.1.2) reader s.1.1) :
    Guarded (occupant (writeAllPass w data s).state.1.2) reader
        (writeAllPass w data s).state.1.1 ∧
      ((writeAllPass w data s).answer = some .pending → ∃ k,
        (writeAllPass w data s).state.1.2 = ⟨some k⟩ ∧
          (writeAllPass w data s).state.1.1.spaceReady.tasks = [(k, w)]) ∧
      ((writeAllPass w data s).answer = none →
        data.length - (writeAllPass w data s).state.2 < data.length - s.2) := by
  rw [writeAllPass]
  by_cases hall : data.length ≤ s.2
  · rw [if_pos hall]
    refine ⟨h, ?_, ?_⟩
    · intro hr
      cases hr
    · intro hr
      cases hr
  · rw [if_neg hall]
    have hsome : data.drop s.2 ≠ [] := by
      rw [Ne, List.drop_eq_nil_iff]
      exact hall
    obtain ⟨hkept, hleaves⟩ := pollWrite_guarded w (data.drop s.2) h
    have hpos := fun n => pollWrite_pos w hsome s.1 (n := n)
    simp only [Outcome.andThen_answer, Outcome.andThen_state]
    revert hkept hleaves hpos
    generalize pollWrite w (data.drop s.2) s.1 = o
    obtain ⟨(e | n) | _, keyed, effects⟩ := o
    · intro hkept _ _
      refine ⟨hkept, ?_, ?_⟩
      · intro hr
        cases hr
      · intro hr
        cases hr
    · intro hkept _ hpos
      refine ⟨hkept, ?_, ?_⟩
      · intro hr
        cases hr
      · intro _
        have hn := hpos n rfl
        show data.length - (s.2 + n) < data.length - s.2
        omega
    · intro hkept hleaves _
      refine ⟨hkept, fun _ => hleaves, ?_⟩
      intro hr
      cases hr

theorem pollWriteAll_guarded (w : Waker) (data : List UInt8) {s : Writing}
    (h : Guarded (occupant s.1.2) reader s.1.1) :
    Guarded (occupant (pollWriteAll w data s).state.1.2) reader
        (pollWriteAll w data s).state.1.1 ∧
      ((pollWriteAll w data s).answer = .pending → ∃ k,
        (pollWriteAll w data s).state.1.2 = ⟨some k⟩ ∧
          (pollWriteAll w data s).state.1.1.spaceReady.tasks = [(k, w)]) := by
  obtain ⟨r, hr, hkept, hpending⟩ := Outcome.loop_answers
    (I := fun s : Writing => Guarded (occupant s.1.2) reader s.1.1)
    (Q := fun r s => Guarded (occupant s.1.2) reader s.1.1 ∧
      (r = Poll.pending → ∃ k, s.1.2 = ⟨some k⟩ ∧ s.1.1.spaceReady.tasks = [(k, w)]))
    (m := fun s => data.length - s.2)
    (fun s r hs hr => by
      obtain ⟨hkept, hpending, _⟩ := writeAllPass_guarded w data hs
      exact ⟨hkept, fun heq => hpending (hr.trans (congrArg some heq))⟩)
    (fun s hs hr => by
      obtain ⟨hkept, _, hless⟩ := writeAllPass_guarded w data hs
      exact ⟨hkept, hless hr⟩)
    (data.length - s.2 + 1) s h (Nat.lt_succ_self _)
  rw [pollWriteAll, Outcome.map_answer, Outcome.map_state, hr]
  exact ⟨hkept, hpending⟩

/-! ### Blocking calls -/

/-- Who is registered after a blocking call of a side. -/
def Blocking.occupant {α : Type} (side : Side) : Blocking α → Occupant
  | .returned _ => .nobody
  | .asleep => .thread (threadOf side)

theorem Attends.nobody_rested {s : Slim} (h : Attends .nobody s) : s.roused = [] := by
  cases h with
  | nobody hp => rfl

theorem blockingWritePass_guarded (mode : WriteMode) (data : List UInt8) {s : Committing}
    (h : Guarded .nobody reader s.1) :
    Guarded (((blockingWritePass mode data s).answer.map (Blocking.occupant .writer)).getD .nobody)
        reader (blockingWritePass mode data s).state.1 ∧
      (blockingWritePass mode data s).state.1.spaceReady.roused = [] ∧
      ((blockingWritePass mode data s).answer = none →
        data.length - (blockingWritePass mode data s).state.2
            + (blockingWritePass mode data s).state.1.spaceReady.pendingReleases
          < data.length - s.2 + s.1.spaceReady.pendingReleases) := by
  have hrested := h.space.nobody_rested
  rw [blockingWritePass]
  by_cases hover : mode.isOver s.2 data.length
  · rw [if_pos hover]
    refine ⟨h, hrested, ?_⟩
    intro hr
    cases hr
  · rw [if_neg hover]
    by_cases hclosed : s.1.readerClosed
    · rw [if_pos hclosed]
      refine ⟨h, hrested, ?_⟩
      intro hr
      cases hr
    · rw [if_neg hclosed]
      have hleft : s.2 < data.length := by
        by_contra hle
        apply hover
        simp only [WriteMode.isOver, Bool.or_eq_true, decide_eq_true_eq]
        omega
      have hsome : data.drop s.2 ≠ [] := by
        rw [Ne, List.drop_eq_nil_iff]
        omega
      obtain ⟨hkept, hnone⟩ := h.tryWrite (data.drop s.2)
      simp only [Outcome.andThen_answer, Outcome.andThen_state]
      by_cases hpos : 0 < (s.1.tryWrite (data.drop s.2)).answer
      · rw [if_pos hpos]
        refine ⟨hkept, hkept.space.nobody_rested, ?_⟩
        intro _
        have hle := s.1.tryWrite_le (data.drop s.2)
        have hsame := s.1.tryWrite_spaceReady (data.drop s.2)
        rw [List.length_drop] at hle
        show data.length - (s.2 + (s.1.tryWrite (data.drop s.2)).answer)
            + (s.1.tryWrite (data.drop s.2)).state.spaceReady.pendingReleases < _
        rw [hsame]
        omega
      · obtain ⟨hsame, hfull⟩ := hnone (by omega)
        have hwaits : s.1.store.Full ∧ s.1.readerClosed = false :=
          ⟨hfull hsome, Bool.eq_false_iff.mpr hclosed⟩
        rw [if_neg hpos, hsame]
        simp only [Outcome.andThen_answer, Outcome.andThen_state, Outcome.map_answer,
          Outcome.map_state, Outcome.lift_answer, Outcome.lift_state, Channel.stall_state,
          Channel.onSpace_answer]
        rcases h.space.block (threadOf .writer) with
          ⟨hanswer, hspace, hless⟩ | ⟨hanswer, hspace, hroused⟩
        · simp only [hanswer, if_true]
          exact ⟨h.onSpace hspace fun _ => hwaits, hspace.nobody_rested,
            fun _ => Nat.add_lt_add_left hless _⟩
        · simp only [hanswer, Bool.false_eq_true, if_false]
          refine ⟨h.onSpace hspace fun _ => hwaits, hroused, ?_⟩
          intro hr
          cases hr

/-- A blocking write returns, or its thread sleeps in a full ring. -/
theorem blockingWrite_guarded (mode : WriteMode) (data : List UInt8) {s : Committing}
    (h : Guarded .nobody reader s.1) :
    Guarded ((blockingWrite mode data s).answer.occupant .writer) reader
        (blockingWrite mode data s).state.1 ∧
      (blockingWrite mode data s).state.1.spaceReady.roused = [] := by
  obtain ⟨r, hr, hends⟩ := Outcome.loop_answers
    (I := fun s : Committing => Guarded .nobody reader s.1)
    (Q := fun (r : Blocking (Except RingClosed Nat)) s =>
      Guarded (r.occupant .writer) reader s.1 ∧ s.1.spaceReady.roused = [])
    (m := fun s => data.length - s.2 + s.1.spaceReady.pendingReleases)
    (fun s r hs hr => by
      obtain ⟨hkept, hrested, _⟩ := blockingWritePass_guarded mode data hs
      rw [hr] at hkept
      exact ⟨hkept, hrested⟩)
    (fun s hs hr => by
      obtain ⟨hkept, _, hless⟩ := blockingWritePass_guarded mode data hs
      rw [hr] at hkept
      exact ⟨hkept, hless hr⟩)
    (data.length - s.2 + s.1.spaceReady.pendingReleases + 1) s h (Nat.lt_succ_self _)
  rw [blockingWrite, Outcome.map_answer, Outcome.map_state, hr]
  exact hends

theorem resumeWrite_guarded (mode : WriteMode) (data : List UInt8) {s : Committing}
    (h : Guarded (.thread (threadOf .writer)) reader s.1) (hroused : s.1.spaceReady.roused ≠ []) :
    Guarded ((resumeWrite mode data s).answer.occupant .writer) reader
        (resumeWrite mode data s).state.1 ∧
      (resumeWrite mode data s).state.1.spaceReady.roused = [] := by
  obtain ⟨hanswer, hspace⟩ := h.space.resume hroused
  have hfree := h.onSpace hspace fun hsleeps => absurd hsleeps hspace.not_sleeps_nobody
  simp only [resumeWrite, Outcome.andThen_answer, Outcome.andThen_state, Channel.onSpace_answer,
    hanswer, Option.isSome_some, if_true]
  exact blockingWrite_guarded mode data hfree

theorem blockingReadPass_guarded {limit : Nat} (hsome : limit ≠ 0) {c : Channel}
    (h : Guarded writer .nobody c) :
    Guarded writer (((blockingReadPass limit c).answer.map (Blocking.occupant .reader)).getD .nobody)
        (blockingReadPass limit c).state ∧
      (blockingReadPass limit c).state.dataReady.roused = [] ∧
      ((blockingReadPass limit c).answer = none ∨
          (blockingReadPass limit c).answer = some .asleep →
        (blockingReadPass limit c).state.spaceReady = c.spaceReady) ∧
      ((blockingReadPass limit c).answer = none →
        (blockingReadPass limit c).state.dataReady.pendingReleases
          < c.dataReady.pendingReleases) := by
  obtain ⟨hkept, hnone⟩ := h.tryRead limit
  simp only [blockingReadPass, Outcome.andThen_answer, Outcome.andThen_state]
  by_cases hover : ¬ (c.tryRead limit).answer.isEmpty ∨ (c.tryRead limit).state.writerClosed
  · rw [if_pos hover]
    refine ⟨hkept, hkept.data.nobody_rested, ?_, ?_⟩
    · rintro (hr | hr)
      · cases hr
      · cases hr
    · intro hr
      cases hr
  · rw [if_neg hover]
    rw [not_or, not_not, List.isEmpty_iff, Bool.not_eq_true] at hover
    obtain ⟨hsame, hempty⟩ := hnone hover.1
    rw [hsame] at hover
    have hwaits : c.store.Empty ∧ c.writerClosed = false := ⟨hempty hsome, hover.2⟩
    rw [hsame]
    simp only [Outcome.andThen_answer, Outcome.andThen_state, Outcome.map_answer,
      Outcome.map_state, Channel.stall_state, Channel.onData_answer]
    rcases h.data.block (threadOf .reader) with
      ⟨hanswer, hdata, hless⟩ | ⟨hanswer, hdata, hroused⟩
    · simp only [hanswer, if_true]
      exact ⟨h.onData hdata fun _ => hwaits, hdata.nobody_rested, fun _ => rfl, fun _ => hless⟩
    · simp only [hanswer, Bool.false_eq_true, if_false]
      refine ⟨h.onData hdata fun _ => hwaits, hroused, fun _ => rfl, ?_⟩
      intro hr
      cases hr

/-- A blocking read returns, or its thread sleeps in an empty ring and has not touched the
    writer's signal. -/
theorem blockingRead_guarded (limit : Nat) {c : Channel} (h : Guarded writer .nobody c) :
    Guarded writer ((blockingRead limit c).answer.occupant .reader) (blockingRead limit c).state ∧
      (blockingRead limit c).state.dataReady.roused = [] ∧
      ((blockingRead limit c).answer = .asleep →
        (blockingRead limit c).state.spaceReady = c.spaceReady) := by
  rw [blockingRead]
  split
  · refine ⟨h, h.data.nobody_rested, ?_⟩
    intro hr
    cases hr
  · rename_i hsome
    obtain ⟨r, hr, hends⟩ := Outcome.loop_answers
      (I := fun c' => Guarded writer .nobody c' ∧ c'.spaceReady = c.spaceReady)
      (Q := fun (r : Blocking (List UInt8)) c' =>
        Guarded writer (r.occupant .reader) c' ∧ c'.dataReady.roused = [] ∧
          (r = .asleep → c'.spaceReady = c.spaceReady))
      (m := fun c' => c'.dataReady.pendingReleases)
      (fun c' r hc hr => by
        obtain ⟨hkept, hrested, hspace, _⟩ := blockingReadPass_guarded hsome hc.1
        rw [hr] at hkept hspace
        exact ⟨hkept, hrested, fun heq => (hspace (Or.inr (congrArg some heq))).trans hc.2⟩)
      (fun c' hc hr => by
        obtain ⟨hkept, _, hspace, hless⟩ := blockingReadPass_guarded hsome hc.1
        rw [hr] at hkept
        exact ⟨⟨hkept, (hspace (Or.inl hr)).trans hc.2⟩, hless hr⟩)
      (c.dataReady.pendingReleases + 1) c ⟨h, rfl⟩ (Nat.lt_succ_self _)
    rw [Outcome.map_answer, Outcome.map_state, hr]
    exact hends

theorem resumeRead_guarded (limit : Nat) {c : Channel}
    (h : Guarded writer (.thread (threadOf .reader)) c) (hroused : c.dataReady.roused ≠ []) :
    Guarded writer ((resumeRead limit c).answer.occupant .reader) (resumeRead limit c).state ∧
      (resumeRead limit c).state.dataReady.roused = [] ∧
      ((resumeRead limit c).answer = .asleep →
        (resumeRead limit c).state.spaceReady = c.spaceReady) := by
  obtain ⟨hanswer, hdata⟩ := h.data.resume hroused
  have hfree := h.onData hdata fun hsleeps => absurd hsleeps hdata.not_sleeps_nobody
  simp only [resumeRead, Outcome.andThen_answer, Outcome.andThen_state, Channel.onData_answer,
    hanswer, Option.isSome_some, if_true]
  exact blockingRead_guarded limit hfree

/-! ### Timed reads -/

theorem timedReadPass_guarded {limit : Nat} (hsome : limit ≠ 0) {c : Channel}
    (h : Guarded writer .nobody c) : Guarded writer .nobody (timedReadPass limit c).state := by
  obtain ⟨hkept, hnone⟩ := h.tryRead limit
  simp only [timedReadPass, Outcome.andThen_state]
  by_cases hover : ¬ (c.tryRead limit).answer.isEmpty ∨ (c.tryRead limit).state.writerClosed
  · rw [if_pos hover]
    exact hkept
  · rw [if_neg hover]
    rw [not_or, not_not, List.isEmpty_iff, Bool.not_eq_true] at hover
    obtain ⟨hsame, hempty⟩ := hnone hover.1
    rw [hsame] at hover ⊢
    exact h.onData h.data.expire.1 fun _ => ⟨hempty hsome, hover.2⟩

theorem timedRead_guarded (limit : Nat) {c : Channel} (h : Guarded writer .nobody c) :
    Guarded writer .nobody (timedRead limit c).state := by
  rw [timedRead]
  split
  · exact h
  · rename_i hsome
    revert h
    apply Outcome.loop_rule (Q := fun c _ c' =>
      Guarded writer .nobody c → Guarded writer .nobody c')
    · intro c h
      exact h
    · intro c r _ h
      exact timedReadPass_guarded hsome h
    · intro c r c' _ hrest h
      exact hrest (timedReadPass_guarded hsome h)

theorem timeUpRead_guarded (limit : Nat) {c : Channel}
    (h : Guarded writer (.thread (threadOf .reader)) c) (hrested : c.dataReady.roused = []) :
    Guarded writer .nobody (timeUpRead limit c).state := by
  have hdata := h.data.timeUp hrested
  have hfree := h.onData hdata fun hsleeps => absurd hsleeps hdata.not_sleeps_nobody
  simp only [timeUpRead, Outcome.andThen_state]
  revert hfree
  generalize (c.onData (c.dataReady.timeUp (threadOf .reader))).state = c'
  intro hfree
  split
  · exact timedRead_guarded limit hfree
  · simp only [Outcome.andThen_state]
    split
    · exact (hfree.tryRead limit).1
    · exact (hfree.tryRead limit).1

end Conduit.Ring

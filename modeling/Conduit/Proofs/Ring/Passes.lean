/-
  Conduit/Proofs/Ring/Passes.lean
  ===============================
  **The loops of a ring end.**

  A pass that finds nothing to do and is let through by the signal of its side asks for
  another: the release that let it through is gone, and nothing else has changed (`Idle`).
  No pass brings a release back, since moving bytes sets the other side's signal.  A signal that
  one side alone waits in holds two releases at most, so no more than two passes go round
  in vain, whatever the size of the buffer, and however many bytes move in between.

  A polled write of a whole buffer is two loops, one around the other.  `writeAllTurn` is
  one pass of the inner loop, so that the vain passes of the whole write are counted.
-/
import Conduit.Proofs.Passes
import Conduit.Proofs.Ring.Registrations

namespace Conduit.Ring

open Signal (Slim WaitKey Word)
open Signal.Slim (pollWait_down pollWait_up block_cases expire_cases)
open Outcome (Passes Finishes Never)
open Channel (Guarded)

/-! ### A release is consumed -/

/-- One pending release has been consumed, and none made. -/
def Spends (s s' : Slim) : Prop := s'.pendingReleases + 1 = s.pendingReleases

namespace Attends

variable {s : Slim} {o : Occupant}

theorem spends_of_stands {s s' : Slim} {n n' p : Nat} (hp : s.word.Stands n (p + 1))
    (hp' : s'.word.Stands n' p) : Spends s s' := by
  simp only [Spends, Slim.pendingReleases, hp.pending_eq, hp'.pending_eq]

/-- Whoever takes the signal where nobody is registered consumes a release. -/
theorem tryWait_spends {word : Word} {n p : Nat} (next : UInt64) (observer : Observer)
    (hp : word.Stands n p) (hpos : 0 < p) :
    Spends ⟨word, next, [], [], [], observer⟩
      (Slim.tryWait ⟨word, next, [], [], [], observer⟩).state := by
  obtain ⟨p, rfl⟩ := Nat.exists_eq_succ_of_ne_zero (Nat.ne_of_gt hpos)
  obtain ⟨word', hword', htry⟩ := tryWait_quiet next [] observer hp
  rw [htry]
  exact spends_of_stands hp hword'

/-- A poll that is let through consumes a release. -/
theorem pollWait_spends (w : Waker) {key : WaitKey} (h : Attends (occupant key) s)
    (hgot : (s.pollWait w key).answer.1 = true) : Spends s (s.pollWait w key).state := by
  obtain ⟨_ | k⟩ := key
  · cases h with
    | @nobody word next observer p hp =>
      cases p with
      | zero =>
        rw [pollWait_down w ⟨none⟩ hp] at hgot
        cases hgot
      | succ p =>
        obtain ⟨word', hword', htry⟩ := tryWait_quiet next [] observer hp
        rw [pollWait_up w ⟨none⟩ hp, htry]
        exact spends_of_stands hp hword'
  · cases h with
    | @registered word next _ observer w' hp =>
      rw [pollWait_down w ⟨some k⟩ hp] at hgot
      cases hgot
    | @woken word next _ observer p hp =>
      obtain ⟨word', hword', htry⟩ := tryWait_quiet next [] observer hp
      have hcapped := hp.capped
      have hleave := hword'.leave
      rw [Nat.min_eq_left (by omega)] at hleave
      rw [pollWait_up w ⟨some k⟩ hp, htry]
      simp only [Outcome.pure_andThen, Outcome.map_state, withdraw_quiet]
      exact spends_of_stands hp hleave

/-- A thread that is let through consumes a release. -/
theorem block_spends (t : Thread) (h : Attends .nobody s) (hgot : (s.block t).answer = true) :
    Spends s (s.block t).state := by
  cases h with
  | @nobody word next observer p hp =>
    rcases block_cases t (s := ⟨word, next, [], [], [], observer⟩) hp (by decide) with
      ⟨_, word', _, hcase⟩ | ⟨hpos, hcase⟩
    · rw [hcase] at hgot
      cases hgot
    · rw [hcase]
      exact tryWait_spends next observer hp hpos

/-- A wait without time that is let through consumes a release. -/
theorem expire_spends (h : Attends .nobody s) (hgot : s.expire.answer = true) :
    Spends s s.expire.state := by
  cases h with
  | @nobody word next observer p hp =>
    rcases expire_cases (s := ⟨word, next, [], [], [], observer⟩) hp (by decide) with
      ⟨_, word', _, hcase⟩ | ⟨hpos, hcase⟩
    · rw [hcase] at hgot
      cases hgot
    · rw [hcase]
      exact tryWait_spends next observer hp hpos

/-- Giving up a registration makes no release. -/
theorem withdraw_releases {key : WaitKey} (h : Attends (occupant key) s) :
    (s.withdraw key).state.pendingReleases ≤ s.pendingReleases := by
  obtain ⟨_ | k⟩ := key
  · exact Nat.le_refl _
  · cases h with
    | @registered word next _ observer w hp =>
      have hleave := hp.leave
      have hqueued : (k == k) = true := beq_self_eq_true k
      simp only [Slim.withdraw, List.any_cons, List.eraseP_cons, hqueued, Bool.true_or,
        not_true_eq_false, false_and, if_false, cond_true, Outcome.pure_state]
      simp only [Slim.pendingReleases, hleave.pending_eq, Nat.zero_min, Nat.zero_le]
    | @woken word next _ observer p hp =>
      have hleave := hp.leave
      rw [withdraw_quiet]
      simp only [Slim.pendingReleases, hleave.pending_eq, hp.pending_eq]
      exact Nat.min_le_left _ _

/-- Whoever waits alone finds two releases at most. -/
theorem releases_le_two (h : Attends o s) : s.pendingReleases ≤ 2 := by
  have hle := h.pendingReleases_le
  have hone : o.count ≤ 1 := by cases o <;> simp [Occupant.count]
  omega

end Attends

/-! ### Idle passes -/

/-- A pass was let through and has moved nothing: the bytes are where they were, no end was closed,
    and the signal of its side has one release less. -/
structure Idle (signal : Channel → Slim) (c c' : Channel) : Prop where
  store : c'.store = c.store
  writerClosed : c'.writerClosed = c.writerClosed
  readerClosed : c'.readerClosed = c.readerClosed
  spends : Spends (signal c) (signal c')

/-- An idle pass of a poll. -/
def IdlePoll (signal : Channel → Slim) (s s' : Keyed) : Prop := Idle signal s.1 s'.1

variable {writer reader : Occupant} {c : Channel}

theorem readPass_idle (w : Waker) (limit : Nat) {s : Keyed}
    (h : Guarded writer (occupant s.2) s.1) (hagain : (readPass w limit s).answer = none) :
    IdlePoll Channel.dataReady s (readPass w limit s).state := by
  revert hagain
  simp only [readPass, Outcome.andThen_answer, Outcome.andThen_state]
  split
  · intro hagain
    cases hagain
  · next hover =>
    rw [not_or, not_not, List.isEmpty_iff] at hover
    obtain ⟨hsame, _⟩ := (h.tryRead limit).2 hover.1
    simp only [hsame, Outcome.andThen_answer, Outcome.andThen_state, Channel.onData_answer]
    by_cases hgot : (s.1.dataReady.pollWait w s.2).answer.1 = true
    · simp only [hgot, if_true]
      intro _
      exact ⟨rfl, rfl, rfl, h.data.pollWait_spends w hgot⟩
    · simp only [hgot]
      intro hagain
      cases hagain

theorem writePass_idle (w : Waker) (src : List UInt8) {s : Keyed}
    (h : Guarded (occupant s.2) reader s.1) (hagain : (writePass w src s).answer = none) :
    IdlePoll Channel.spaceReady s (writePass w src s).state := by
  revert hagain
  simp only [writePass]
  split
  · intro hagain
    cases hagain
  · simp only [Outcome.andThen_answer, Outcome.andThen_state]
    split
    · intro hagain
      cases hagain
    · next hnone =>
      obtain ⟨hsame, _⟩ := (h.tryWrite src).2 (Nat.eq_zero_of_not_pos hnone)
      simp only [hsame, Outcome.andThen_answer, Outcome.andThen_state, Channel.onSpace_answer]
      by_cases hgot : (s.1.spaceReady.pollWait w s.2).answer.1 = true
      · simp only [hgot, if_true]
        intro _
        exact ⟨rfl, rfl, rfl, h.space.pollWait_spends w hgot⟩
      · simp only [hgot]
        intro hagain
        cases hagain

theorem blockingReadPass_idle (limit : Nat) (h : Guarded writer .nobody c)
    (hagain : (blockingReadPass limit c).answer = none) :
    Idle Channel.dataReady c (blockingReadPass limit c).state := by
  revert hagain
  simp only [blockingReadPass, Outcome.andThen_answer, Outcome.andThen_state]
  split
  · intro hagain
    cases hagain
  · next hover =>
    rw [not_or, not_not, List.isEmpty_iff] at hover
    obtain ⟨hsame, _⟩ := (h.tryRead limit).2 hover.1
    simp only [hsame, Outcome.andThen_answer, Outcome.andThen_state, Outcome.map_answer,
      Outcome.map_state, Channel.stall_state, Channel.onData_answer]
    by_cases hgot : (c.dataReady.block (threadOf .reader)).answer = true
    · simp only [hgot, if_true]
      intro _
      exact ⟨rfl, rfl, rfl, h.data.block_spends _ hgot⟩
    · simp only [hgot]
      intro hagain
      cases hagain

theorem timedReadPass_idle (limit : Nat) (h : Guarded writer .nobody c)
    (hagain : (timedReadPass limit c).answer = none) :
    Idle Channel.dataReady c (timedReadPass limit c).state := by
  revert hagain
  simp only [timedReadPass, Outcome.andThen_answer, Outcome.andThen_state]
  split
  · intro hagain
    cases hagain
  · next hover =>
    rw [not_or, not_not, List.isEmpty_iff] at hover
    obtain ⟨hsame, _⟩ := (h.tryRead limit).2 hover.1
    simp only [hsame, Outcome.andThen_answer, Outcome.andThen_state, Outcome.map_answer,
      Outcome.map_state, Channel.stall_state, Channel.onData_answer]
    by_cases hgot : c.dataReady.expire.answer = true
    · simp only [hgot, if_true]
      intro _
      exact ⟨rfl, rfl, rfl, h.data.expire_spends hgot⟩
    · simp only [hgot]
      intro hagain
      cases hagain

/-! ### Loops that only wait -/

/-- A call answers at once, or its loop comes to an end. -/
def Ends {β σ : Type} (pass : σ → Outcome (Option β) σ) (Moves Idles : σ → σ → Prop)
    (o : Outcome β σ) (s : σ) : Prop :=
  (∃ b, o = .pure b s) ∨ Finishes pass Moves Idles o s

/-- Every idle pass lowers the number of releases, so a loop with one pass more than there are
    releases comes to an end. -/
theorem waiting_finishes {β σ : Type} (signal : σ → Slim) (I : σ → Prop)
    {pass : σ → Outcome (Option β) σ} {Idles : σ → σ → Prop}
    (each : ∀ s, I s → (pass s).answer = none → I (pass s).state ∧ Idles s (pass s).state)
    (spends : ∀ s s', Idles s s' → Spends (signal s) (signal s')) {s : σ} (hs : I s)
    (htwo : (signal s).pendingReleases ≤ 2) (default : β) :
    Finishes pass Never Idles
      ((Outcome.loop pass ((signal s).pendingReleases + 1) s).map fun b => b.getD default) s := by
  have hless (s s' : σ) (hidled : Idles s s') :
      (signal s').pendingReleases < (signal s).pendingReleases := by
    have hspends := spends s s' hidled
    rw [Spends] at hspends
    omega
  refine Outcome.finishes_loop I (fun s => (signal s).pendingReleases)
    (fun s => (signal s).pendingReleases) ?_ ?_ hless hs htwo (Nat.lt_succ_self _) default
  · intro s hs hagain
    obtain ⟨hkept, hidled⟩ := each s hs hagain
    exact ⟨hkept, hless _ _ hidled, Or.inr hidled⟩
  · intro s s' hnever
    exact hnever.elim

theorem pollRead_ends (w : Waker) (limit : Nat) {s : Keyed}
    (h : Guarded writer (occupant s.2) s.1) :
    Ends (readPass w limit) Never (IdlePoll Channel.dataReady) (pollRead w limit s) s := by
  rw [pollRead]
  split
  · exact Or.inl ⟨_, rfl⟩
  · next hsome =>
    refine Or.inr (waiting_finishes (fun s : Keyed => s.1.dataReady)
      (fun s => Guarded writer (occupant s.2) s.1) ?_ ?_ h h.data.releases_le_two _)
    · intro s hs hagain
      exact ⟨(readPass_guarded w hsome hs).1, readPass_idle w limit hs hagain⟩
    · intro s s' hidled
      exact hidled.spends

theorem pollWrite_finishes (w : Waker) {src : List UInt8} (hsome : src ≠ []) {s : Keyed}
    (hopen : s.1.writerClosed = false) (h : Guarded (occupant s.2) reader s.1) :
    Finishes (writePass w src) Never (IdlePoll Channel.spaceReady) (pollWrite w src s) s := by
  have hne : ¬ src.isEmpty := fun hnil => hsome (List.isEmpty_iff.mp hnil)
  simp only [pollWrite, hopen, Bool.false_eq_true, if_false, hne]
  refine waiting_finishes (fun s : Keyed => s.1.spaceReady)
    (fun s => Guarded (occupant s.2) reader s.1) ?_ ?_ h h.space.releases_le_two _
  · intro s hs hagain
    exact ⟨(writePass_guarded w hsome hs).1, writePass_idle w src hs hagain⟩
  · intro s s' hidled
    exact hidled.spends

theorem pollWrite_ends (w : Waker) (src : List UInt8) {s : Keyed}
    (h : Guarded (occupant s.2) reader s.1) :
    Ends (writePass w src) Never (IdlePoll Channel.spaceReady) (pollWrite w src s) s := by
  by_cases hclosed : s.1.writerClosed
  · exact Or.inl ⟨_, pollWrite_shut w src hclosed⟩
  · by_cases hnil : src = []
    · refine Or.inl ⟨.ready (.ok 0), ?_⟩
      simp only [pollWrite, hclosed, Bool.false_eq_true, if_false, hnil, List.isEmpty_nil, if_true]
    · exact Or.inr (pollWrite_finishes w hnil (Bool.eq_false_iff.mpr hclosed) h)

theorem blockingRead_ends (limit : Nat) (h : Guarded writer .nobody c) :
    Ends (blockingReadPass limit) Never (Idle Channel.dataReady) (blockingRead limit c) c := by
  rw [blockingRead]
  split
  · exact Or.inl ⟨_, rfl⟩
  · next hsome =>
    refine Or.inr (waiting_finishes Channel.dataReady (Guarded writer .nobody) ?_ ?_ h
      h.data.releases_le_two _)
    · intro c hc hagain
      have hkept := (blockingReadPass_guarded hsome hc).1
      rw [hagain] at hkept
      exact ⟨hkept, blockingReadPass_idle limit hc hagain⟩
    · intro c c' hidled
      exact hidled.spends

theorem timedRead_ends (limit : Nat) (h : Guarded writer .nobody c) :
    Ends (timedReadPass limit) Never (Idle Channel.dataReady) (timedRead limit c) c := by
  rw [timedRead]
  split
  · exact Or.inl ⟨_, rfl⟩
  · next hsome =>
    refine Or.inr (waiting_finishes Channel.dataReady (Guarded writer .nobody) ?_ ?_ h
      h.data.releases_le_two _)
    · intro c hc hagain
      exact ⟨timedReadPass_guarded hsome hc, timedReadPass_idle limit hc hagain⟩
    · intro c c' hidled
      exact hidled.spends

/-! ### Loops that move bytes -/

/-- More bytes of a buffer are committed, and no release was made for it. -/
structure Advances (data : List UInt8) (s s' : Committing) : Prop where
  more : s.2 < s'.2
  within : s'.2 ≤ data.length
  writes : Writes data s.2 s'.2 s.1.store s'.1.store
  unreleased : s'.1.spaceReady.pendingReleases ≤ s.1.spaceReady.pendingReleases

/-- A write was let through and has committed nothing. -/
structure Lingers (s s' : Committing) : Prop where
  idle : Idle Channel.spaceReady s.1 s'.1
  same : s'.2 = s.2

theorem Lingers.fewer {s s' : Committing} (h : Lingers s s') :
    s'.1.spaceReady.pendingReleases < s.1.spaceReady.pendingReleases := by
  have hspends := h.idle.spends
  rw [Spends] at hspends
  omega

/-- What is left of a buffer, and the releases that may let a pass through. -/
def effort (data : List UInt8) (s : Committing) : Nat :=
  data.length - s.2 + s.1.spaceReady.pendingReleases

theorem Advances.effort_lt {data : List UInt8} {s s' : Committing} (h : Advances data s s') :
    effort data s' < effort data s := by
  have hmore := h.more
  have hwithin := h.within
  have hunreleased := h.unreleased
  simp only [effort]
  omega

theorem Lingers.effort_lt {s s' : Committing} (h : Lingers s s') (data : List UInt8) :
    effort data s' < effort data s := by
  simp only [effort, h.same]
  exact Nat.add_lt_add_left h.fewer _

/-- A pass of a blocking write that asks for another has moved bytes, or was let through in
    vain. -/
theorem blockingWritePass_goes_on (mode : WriteMode) (data : List UInt8) {s : Committing}
    (h : Guarded .nobody reader s.1) (hagain : (blockingWritePass mode data s).answer = none) :
    Advances data s (blockingWritePass mode data s).state ∨
      Lingers s (blockingWritePass mode data s).state := by
  have hwrites := (blockingWritePass_writes mode data s).1
  revert hagain hwrites
  simp only [blockingWritePass]
  split
  · intro hagain
    cases hagain
  · next hover =>
    have hleft : s.2 < data.length := by
      simp only [WriteMode.isOver, Bool.or_eq_true, decide_eq_true_eq, not_or] at hover
      omega
    split
    · intro hagain
      cases hagain
    · simp only [Outcome.andThen_answer, Outcome.andThen_state]
      split
      · next hpos =>
        intro _ hwrites
        have hsame := s.1.tryWrite_spaceReady (data.drop s.2)
        refine Or.inl ⟨Nat.lt_add_of_pos_right hpos, ?_, hwrites, ?_⟩
        · exact hwrites.within (Nat.le_of_lt hleft)
        · simp only [Outcome.pure_state, hsame, Nat.le_refl]
      · next hnone =>
        obtain ⟨hsame, _⟩ := (h.tryWrite (data.drop s.2)).2 (Nat.eq_zero_of_not_pos hnone)
        simp only [hsame, Outcome.andThen_answer, Outcome.andThen_state, Outcome.map_answer,
          Outcome.map_state, Outcome.lift_answer, Outcome.lift_state, Channel.stall_state,
          Channel.onSpace_answer]
        by_cases hgot : (s.1.spaceReady.block (threadOf .writer)).answer = true
        · simp only [hgot, if_true]
          intro _ _
          exact Or.inr ⟨⟨rfl, rfl, rfl, h.space.block_spends _ hgot⟩, rfl⟩
        · simp only [hgot]
          intro hagain
          cases hagain

theorem blockingWrite_finishes (mode : WriteMode) (data : List UInt8) {s : Committing}
    (h : Guarded .nobody reader s.1) :
    Finishes (blockingWritePass mode data) (Advances data) Lingers (blockingWrite mode data s)
      s := by
  refine Outcome.finishes_loop (fun s : Committing => Guarded .nobody reader s.1)
    (effort data) (fun s => s.1.spaceReady.pendingReleases) ?_ ?_ ?_ h
    h.space.releases_le_two (Nat.lt_succ_self _) _
  · intro s hs hagain
    have hkept := (blockingWritePass_guarded mode data hs).1
    rw [hagain] at hkept
    have hgoes := blockingWritePass_goes_on mode data hs hagain
    refine ⟨hkept, ?_, hgoes⟩
    rcases hgoes with hadvances | hlingers
    · exact hadvances.effort_lt
    · exact hlingers.effort_lt data
  · intro s s' hadvances
    exact hadvances.unreleased
  · intro s s' hlingers
    exact hlingers.fewer

/-! ### Polled writes of whole buffers -/

/-- The channel of a write under way, and how many bytes are committed. -/
def Writing.committing (s : Writing) : Committing := (s.1.1, s.2)

/-- What a pass of a partial write means to the write of the whole buffer that makes it: once bytes
    are committed it goes on with those that are left. -/
def writeAllReply (written : Nat) :
    Option (Poll (Except RingClosed Nat)) → Nat × Option (Poll (Except RingClosed Unit))
  | none => (written, none)
  | some (.ready (.ok n)) => (written + n, none)
  | some (.ready (.error _)) => (written, some (.ready (.error ⟨written⟩)))
  | some .pending => (written, some .pending)

/-- One pass of a partial write of what is left of the buffer. -/
def writeAllTurn (w : Waker) (data : List UInt8) (s : Writing) :
    Outcome (Option (Poll (Except RingClosed Unit))) Writing :=
  if data.length ≤ s.2 then .pure (some (.ready (.ok ()))) s
  else if s.1.1.writerClosed then .pure (some (.ready (.error ⟨s.2⟩))) s
  else
    (writePass w (data.drop s.2) s.1).andThen fun r keyed =>
      .pure (writeAllReply s.2 r).2 (keyed, (writeAllReply s.2 r).1)

/-- The passes of a polled write of a whole buffer, those of its partial writes counted. -/
abbrev WritePasses (w : Waker) (data : List UInt8) (m i : Nat) (s : Writing)
    (r : Poll (Except RingClosed Unit)) (s' : Writing) : Prop :=
  Passes (writeAllTurn w data) (fun s s' => Advances data s.committing s'.committing)
    (fun s s' => Lingers s.committing s'.committing) m i s r s'

section Turns

variable {w : Waker} {data : List UInt8} {x x' : Keyed} {k m i : Nat}

/-- A pass of a partial write is a pass of the write of the whole buffer. -/
theorem writeAllTurn_open (hleft : k < data.length) (hopen : x.1.writerClosed = false) :
    (writeAllTurn w data (x, k)).answer
        = (writeAllReply k (writePass w (data.drop k) x).answer).2 ∧
      (writeAllTurn w data (x, k)).state = ((writePass w (data.drop k) x).state,
        (writeAllReply k (writePass w (data.drop k) x).answer).1) := by
  have hmore : ¬ data.length ≤ k := Nat.not_le_of_lt hleft
  simp only [writeAllTurn, hmore, if_false, hopen, Bool.false_eq_true, Outcome.andThen_answer,
    Outcome.andThen_state, Outcome.pure_answer, Outcome.pure_state, and_self]

/-- A pass that commits bytes makes no release. -/
theorem writePass_advances (hx : Guarded (occupant x.2) reader x.1) {n : Nat}
    (hr : (writePass w (data.drop k) x).answer = some (.ready (.ok n)))
    (hleft : k < data.length) :
    Advances data (x.1, k) ((writePass w (data.drop k) x).state.1, k + n) := by
  have hpos := writePass_pos w (data.drop k) x hr
  have hcommits := writePass_commits w (data.drop k) x
  rw [hr] at hcommits
  have hwrites := Writes.of_rest hcommits.1 hcommits.2
  refine ⟨Nat.lt_add_of_pos_right hpos, hwrites.within (Nat.le_of_lt hleft), hwrites, ?_⟩
  revert hr
  simp only [writePass]
  split
  · intro hr
    cases hr
  · simp only [Outcome.andThen_answer, Outcome.andThen_state]
    split
    · intro _
      have hsame := x.1.tryWrite_spaceReady (data.drop k)
      have hkept := (hx.tryWrite (data.drop k)).1.space
      rw [← hsame]
      exact hkept.withdraw_releases
    · simp only [Outcome.andThen_answer]
      split
      · intro hr
        cases hr
      · intro hr
        cases hr

/-- The passes of a partial write, as passes of the write of the whole buffer: if it commits bytes
    the write goes on, and else it answers. -/
theorem write_passes_of_partial {r : Poll (Except RingClosed Nat)} (hleft : k < data.length)
    (h : Passes (writePass w (data.drop k)) Never (IdlePoll Channel.spaceReady) m i x r x')
    (hopen : x.1.writerClosed = false) (hx : Guarded (occupant x.2) reader x.1) :
    (∀ b, (writeAllReply k (some r)).2 = some b →
      WritePasses w data 0 i (x, k) b (x', (writeAllReply k (some r)).1)) ∧
    ((writeAllReply k (some r)).2 = none → ∀ m' i' b s',
      WritePasses w data m' i' (x', (writeAllReply k (some r)).1) b s' →
      WritePasses w data (m' + 1) (i' + i) (x, k) b s') := by
  have hsome : data.drop k ≠ [] := by
    rw [Ne, List.drop_eq_nil_iff]
    omega
  induction h with
  | @last x r answers =>
    obtain ⟨hanswer, hstate⟩ := writeAllTurn_open (w := w) hleft hopen
    rw [answers] at hanswer hstate
    rw [← hstate]
    constructor
    · intro b hb
      exact .last (hanswer.trans hb)
    · intro hnone m' i' b s' hrest
      refine .moves (hanswer.trans hnone) ?_ hrest
      rw [hstate]
      obtain (e | n) | _ := r
      · cases hnone
      · exact writePass_advances hx answers hleft
      · cases hnone
  | moves _ hnever => exact hnever.elim
  | @idles x x' r m i again hidled _ ih =>
    obtain ⟨hagain, hstate⟩ := writeAllTurn_open (w := w) hleft hopen
    rw [again] at hagain hstate
    have hlingers : Lingers (x.1, k) ((writePass w (data.drop k) x).state.1, k) := ⟨hidled, rfl⟩
    have hkept := (writePass_guarded w hsome hx).1
    obtain ⟨hends, hgoes⟩ := ih (hidled.writerClosed.trans hopen) hkept
    constructor
    · intro b hb
      refine .idles hagain ?_ ?_
      · rw [hstate]
        exact hlingers
      · rw [hstate]
        exact hends b hb
    · intro hnone m' i' b s' hrest
      refine .idles hagain ?_ ?_
      · rw [hstate]
        exact hlingers
      · rw [hstate]
        exact hgoes hnone m' i' b s' hrest

/-- One pass of the outer loop is all passes of its partial write. -/
theorem writeAllPass_turns {s : Writing} (hleft : s.2 < data.length)
    (hopen : s.1.1.writerClosed = false) (h : Guarded (occupant s.1.2) reader s.1.1) :
    ∃ i, (∀ b, (writeAllPass w data s).answer = some b →
        WritePasses w data 0 i s b (writeAllPass w data s).state) ∧
      ((writeAllPass w data s).answer = none → ∀ m' i' b s',
        WritePasses w data m' i' (writeAllPass w data s).state b s' →
        WritePasses w data (m' + 1) (i' + i) s b s') := by
  have hsome : data.drop s.2 ≠ [] := by
    rw [Ne, List.drop_eq_nil_iff]
    omega
  have hmore : ¬ data.length ≤ s.2 := Nat.not_le_of_lt hleft
  obtain ⟨m, i, hpasses, _⟩ := pollWrite_finishes w hsome hopen h
  obtain ⟨hends, hgoes⟩ := write_passes_of_partial hleft hpasses hopen h
  refine ⟨i, ?_⟩
  have hpass : (writeAllPass w data s).answer
        = (writeAllReply s.2 (some (pollWrite w (data.drop s.2) s.1).answer)).2 ∧
      (writeAllPass w data s).state = ((pollWrite w (data.drop s.2) s.1).state,
        (writeAllReply s.2 (some (pollWrite w (data.drop s.2) s.1).answer)).1) := by
    simp only [writeAllPass, hmore, if_false, Outcome.andThen_answer, Outcome.andThen_state]
    generalize pollWrite w (data.drop s.2) s.1 = o
    obtain ⟨(e | n) | _, keyed, effects⟩ := o
    · exact ⟨rfl, rfl⟩
    · exact ⟨rfl, rfl⟩
    · exact ⟨rfl, rfl⟩
  rw [hpass.1, hpass.2]
  exact ⟨hends, hgoes⟩

/-- The outer loop, with the passes of its partial writes counted. -/
theorem turns_of_passes {m i : Nat} {s s' : Writing} {b : Poll (Except RingClosed Unit)}
    (hpasses : Passes (writeAllPass w data) (fun _ _ => True) Never m i s b s')
    (h : Guarded (occupant s.1.2) reader s.1.1) : ∃ m i, WritePasses w data m i s b s' := by
  induction hpasses with
  | @last s b answers =>
    by_cases hall : data.length ≤ s.2
    · have hsame : writeAllTurn w data s = writeAllPass w data s := by
        simp only [writeAllTurn, writeAllPass, hall, if_true]
      refine ⟨0, 0, ?_⟩
      rw [← hsame] at answers ⊢
      exact .last answers
    · by_cases hclosed : s.1.1.writerClosed
      · have hsame : (writeAllTurn w data s).answer = (writeAllPass w data s).answer ∧
            (writeAllTurn w data s).state = (writeAllPass w data s).state := by
          simp only [writeAllTurn, writeAllPass, hall, if_false, hclosed, if_true, pollWrite_shut]
          exact ⟨rfl, rfl⟩
        refine ⟨0, 0, ?_⟩
        rw [← hsame.1] at answers
        rw [← hsame.2]
        exact .last answers
      · obtain ⟨i, hends, _⟩ := writeAllPass_turns (w := w) (Nat.lt_of_not_le hall)
          (Bool.eq_false_iff.mpr hclosed) h
        exact ⟨0, i, hends b answers⟩
  | @moves s s' b m i again _ _ ih =>
    obtain ⟨hkept, _, _⟩ := writeAllPass_guarded w data h
    obtain ⟨m', i', hrest⟩ := ih hkept
    have hleft : s.2 < data.length := by
      by_contra hall
      simp only [writeAllPass, Nat.le_of_not_lt hall, if_true] at again
      cases again
    have hopen : s.1.1.writerClosed = false := by
      rw [Bool.eq_false_iff]
      intro hclosed
      simp only [writeAllPass, Nat.not_le_of_lt hleft, if_false,
        pollWrite_shut w _ (s := s.1) hclosed] at again
      cases again
    obtain ⟨j, _, hgoes⟩ := writeAllPass_turns (w := w) hleft hopen h
    exact ⟨m' + 1, i' + j, hgoes again m' i' b s' hrest⟩
  | idles _ hnever => exact hnever.elim

end Turns

/-- A polled write of a whole buffer comes to an end, after two idle passes at most, whatever the
    number of passes that move bytes. -/
theorem pollWriteAll_finishes (w : Waker) (data : List UInt8) {s : Writing}
    (h : Guarded (occupant s.1.2) reader s.1.1) :
    Finishes (writeAllTurn w data) (fun s s' => Advances data s.committing s'.committing)
      (fun s s' => Lingers s.committing s'.committing) (pollWriteAll w data s) s := by
  have hexists : ∃ m i b s', Passes (writeAllPass w data) (fun _ _ => True) Never m i s b s' ∧
      m + i ≤ data.length - s.2 := by
    apply Outcome.exists_passes (fun s : Writing => Guarded (occupant s.1.2) reader s.1.1)
      (fun s => data.length - s.2) ?_ s h
    intro s hs hagain
    obtain ⟨hkept, _, hless⟩ := writeAllPass_guarded w data hs
    exact ⟨hkept, hless hagain, Or.inl trivial⟩
  obtain ⟨m, i, b, s', hpasses, hfew⟩ := hexists
  obtain ⟨hanswer, hstate⟩ := hpasses.loop (Nat.lt_succ_of_le hfew)
  obtain ⟨m', i', hturns⟩ := turns_of_passes hpasses h
  refine ⟨m', i', ?_, ?_⟩
  · simp only [pollWriteAll, Outcome.map_answer, Outcome.map_state, hanswer, hstate,
      Option.getD_some]
    exact hturns
  · refine Nat.le_trans (hturns.idle_le (fun s => s.1.1.spaceReady.pendingReleases) ?_ ?_)
      h.space.releases_le_two
    · intro s s' hadvances
      exact hadvances.unreleased
    · intro s s' hlingers
      exact hlingers.fewer

end Conduit.Ring

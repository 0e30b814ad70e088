/-
  Conduit/Proofs/Ring/Registrations.lean
  ======================================
  **A ring leaves no registration behind.**

  The signal of a side counts a wait for as long as the side has one under way: its thread
  sleeps, or its key is registered.  The key is kept in the handle, outlives a poll that is
  pending and whatever else is asked of the handle meanwhile, and is given up in many
  places.  `LetsGo` lists them: a transfer that is resolved or dropped, a poll of the handle
  that comes to something, a handle that is converted or dropped.

  That a signal counts one wait at most also bounds the releases it holds: the bit, and
  what is owed to that wait.
-/
import Conduit.Proofs.Ring.Suspensions
import Conduit.Proofs.Ring.Ways

namespace Conduit.Ring

open Signal (Slim WaitKey)

/-! ### A signal counts whom it attends to -/

/-- How many waits an occupant has registered. -/
def Occupant.count : Occupant → Nat
  | .nobody => 0
  | .task _ | .thread _ => 1

theorem occupant_count (key : WaitKey) :
    (occupant key).count = if key.isRegistered then 1 else 0 := by
  obtain ⟨_ | k⟩ := key <;> rfl

namespace Attends

variable {o : Occupant} {signal : Slim}

theorem stands (h : Attends o signal) : ∃ pending, signal.word.Stands o.count pending := by
  cases h with
  | nobody hp => exact ⟨_, hp⟩
  | registered hp => exact ⟨_, hp⟩
  | woken hp => exact ⟨_, hp⟩
  | asleep hp => exact ⟨_, hp⟩
  | roused hp => exact ⟨_, hp⟩

theorem registeredWaits_eq (h : Attends o signal) : signal.registeredWaits = o.count := by
  obtain ⟨pending, hp⟩ := h.stands
  exact hp.waiters_toNat

/-- One release is banked, and no more are owed than there are waits. -/
theorem pendingReleases_le (h : Attends o signal) : signal.pendingReleases ≤ o.count + 1 := by
  obtain ⟨pending, hp⟩ := h.stands
  simp only [Slim.pendingReleases, hp.pending_eq]
  exact hp.capped

theorem owed_le (h : Attends o signal) : signal.word.owed.toNat ≤ o.count := by
  obtain ⟨pending, hp⟩ := h.stands
  have hcapped := hp.capped
  simp only [hp.holds.owed_toNat]
  omega

end Attends

/-! ### What ends a wait -/

/-- A pass that answers a polled write leaves the key fresh. -/
theorem writePass_fresh (w : Waker) (src : List UInt8) (s : Keyed)
    (r : Poll (Except RingClosed Nat)) (hr : (writePass w src s).answer = some r) :
    r = .pending ∨ (writePass w src s).state.2 = .fresh := by
  revert hr
  simp only [writePass]
  split
  · intro _
    exact Or.inr rfl
  · simp only [Outcome.andThen_answer, Outcome.andThen_state]
    split
    · intro _
      exact Or.inr rfl
    · simp only [Outcome.andThen_answer, Outcome.andThen_state]
      split
      · intro hr
        cases hr
      · intro hr
        cases hr
        exact Or.inl rfl

theorem readPass_fresh (w : Waker) (limit : Nat) (s : Keyed) (r : Poll (List UInt8))
    (hr : (readPass w limit s).answer = some r) :
    r = .pending ∨ (readPass w limit s).state.2 = .fresh := by
  revert hr
  simp only [readPass, Outcome.andThen_answer, Outcome.andThen_state]
  split
  · intro _
    exact Or.inr rfl
  · simp only [Outcome.andThen_answer, Outcome.andThen_state]
    split
    · intro hr
      cases hr
    · intro hr
      cases hr
      exact Or.inl rfl

/-- A poll whose answering passes leave the key fresh does so when it is over. -/
theorem poll_fresh {α : Type} {pass : Keyed → Outcome (Option (Poll α)) Keyed}
    (each : ∀ s r, (pass s).answer = some r → r = .pending ∨ (pass s).state.2 = .fresh)
    (bound : Nat) (s : Keyed)
    (hover : (Outcome.loop pass bound s).answer.getD .pending ≠ .pending) :
    (Outcome.loop pass bound s).state.2 = .fresh := by
  revert hover
  apply Outcome.loop_rule (Q := fun _ r (s' : Keyed) => r.getD .pending ≠ Poll.pending → s'.2 = .fresh)
  · intro s hover
    exact absurd rfl hover
  · intro s r hr hover
    rcases each s r hr with hpending | hfresh
    · exact absurd hpending hover
    · exact hfresh
  · intro s r s' _ hrest
    exact hrest

/-- A partial write that is over has given its registration up, if it had something to commit and
    a writer that was open. -/
theorem pollWrite_fresh (w : Waker) {src : List UInt8} (hsome : src ≠ []) {s : Keyed}
    (hopen : s.1.writerClosed = false) (hover : (pollWrite w src s).answer ≠ .pending) :
    (pollWrite w src s).state.2 = .fresh := by
  have hne : ¬ src.isEmpty := fun hnil => hsome (List.isEmpty_iff.mp hnil)
  simp only [pollWrite, hopen, Bool.false_eq_true, if_false, hne] at hover ⊢
  exact poll_fresh (writePass_fresh w src) _ s hover

theorem pollRead_fresh (w : Waker) {limit : Nat} (hsome : limit ≠ 0) {s : Keyed}
    (hover : (pollRead w limit s).answer ≠ .pending) :
    (pollRead w limit s).state.2 = .fresh := by
  simp only [pollRead, hsome, if_false] at hover ⊢
  exact poll_fresh (readPass_fresh w limit) _ s hover

/-- A writer that is closed itself commits nothing. -/
theorem pollWrite_shut (w : Waker) (src : List UInt8) {s : Keyed}
    (hclosed : s.1.writerClosed = true) :
    pollWrite w src s = .pure (.ready (.error ⟨0⟩)) s := by
  simp only [pollWrite, hclosed, if_true]

namespace Session

/-- The key that a side polls with. -/
def keyOf (s : Session) : Side → WaitKey
  | .writer => s.writer.key
  | .reader => s.reader.key

/-- Who a side has registered. -/
def occupantOf (s : Session) : Side → Occupant
  | .writer => s.writer.occupant
  | .reader => s.reader.occupant

/-- How many waits a side has under way: one if its call sleeps or its key is registered. -/
def waitsOf (s : Session) (side : Side) : Nat :=
  if s.isAsleep side ∨ (s.keyOf side).isRegistered then 1 else 0

/-- The requests, with their answers, after which a side waits no longer. -/
inductive LetsGo (s : Session) : Side → Request → Reply → Prop
  | write_dropped {key data written reply} (h : s.writer = .writing key data written) :
      LetsGo s .writer (.writer .cancel) reply
  | write_resolved {key data written w reply} (h : s.writer = .writing key data written)
      (ended : reply ≠ .pending) : LetsGo s .writer (.writer (.poll w)) reply
  | write_at_once {key data w reply} (h : s.writer = .polled key) (ended : reply ≠ .pending) :
      LetsGo s .writer (.writer (.write data w false)) reply
  | moved_in {key data w n} (h : s.writer = .polled key) (sought : data ≠ []) :
      LetsGo s .writer (.writer (.pollWrite data w)) (.count n)
  | refused {key data w e} (h : s.writer = .polled key) (sought : data ≠ [])
      (unclosed : s.channel.writerClosed = false) :
      LetsGo s .writer (.writer (.pollWrite data w)) (.brokenPipe e)
  | writer_converted {key reply} (h : s.writer = .polled key) :
      LetsGo s .writer (.writer .toBlocking) reply
  | writer_dropped {reply} (h : s.isAsleep .writer = false) :
      LetsGo s .writer (.writer .drop) reply
  | read_dropped {key limit reply} (h : s.reader = .reading key limit) :
      LetsGo s .reader (.reader .cancel) reply
  | read_resolved {key limit w reply} (h : s.reader = .reading key limit)
      (ended : reply ≠ .pending) : LetsGo s .reader (.reader (.poll w)) reply
  | read_at_once {key limit w reply} (h : s.reader = .polled key) (ended : reply ≠ .pending) :
      LetsGo s .reader (.reader (.read limit w false)) reply
  | moved_out {key limit w bytes} (h : s.reader = .polled key) (sought : limit ≠ 0) :
      LetsGo s .reader (.reader (.pollRead limit w)) (.got bytes)
  | reader_converted {key reply} (h : s.reader = .polled key) :
      LetsGo s .reader (.reader .toBlocking) reply
  | reader_dropped {reply} (h : s.isAsleep .reader = false) :
      LetsGo s .reader (.reader .drop) reply

/-- Each signal counts the wait of its side, and holds two releases at most. -/
structure Counted (s : Session) : Prop where
  waits : ∀ side, (s.channel.awaited side).registeredWaits = s.waitsOf side
  releases : ∀ side, (s.channel.awaited side).pendingReleases ≤ 2

/-- Nothing stays registered: not when a side lets its wait go, and not when both are gone.  Also
    before the calls that a request roused go on, each signal counts the wait of its side. -/
structure Tidy (s : Session) : Prop where
  counted : s.Counted
  midway : ∀ r, (s.request r).state.Counted
  freed : ∀ side r, s.LetsGo side r (s.request r).answer →
    ((s.advance r).state.keyOf side).isRegistered = false ∧
      ((s.advance r).state.channel.awaited side).registeredWaits = 0
  deserted : s.writer = .gone → s.reader = .gone → ∀ side,
    (s.channel.awaited side).registeredWaits = 0 ∧ (s.channel.awaited side).word.owed = 0

variable {s : Session}

theorem Guarded.attends (h : s.Guarded) (side : Side) :
    Attends (s.occupantOf side) (s.channel.awaited side) := by
  cases side with
  | writer => exact h.channel.space
  | reader => exact h.channel.data

theorem occupantOf_count (s : Session) (side : Side) :
    (s.occupantOf side).count = s.waitsOf side := by
  obtain ⟨c, writer, reader⟩ := s
  cases side with
  | writer =>
    cases writer with
    | asleep mode data written => rfl
    | blocking => rfl
    | polled key => simp [occupantOf, WriterEnd.occupant, waitsOf, isAsleep, keyOf, WriterEnd.key,
        occupant_count]
    | writing key data written => simp [occupantOf, WriterEnd.occupant, waitsOf, isAsleep, keyOf,
        WriterEnd.key, occupant_count]
    | gone => rfl
  | reader =>
    cases reader with
    | asleep limit => rfl
    | blocking => rfl
    | polled key => simp [occupantOf, ReaderEnd.occupant, waitsOf, isAsleep, keyOf, ReaderEnd.key,
        occupant_count]
    | reading key limit => simp [occupantOf, ReaderEnd.occupant, waitsOf, isAsleep, keyOf,
        ReaderEnd.key, occupant_count]
    | gone => rfl

theorem waitsOf_le (s : Session) (side : Side) : s.waitsOf side ≤ 1 := by
  simp only [waitsOf]
  split
  · exact Nat.le_refl 1
  · exact Nat.zero_le 1

theorem Guarded.counted (h : s.Guarded) : s.Counted := by
  constructor
  · intro side
    exact (h.attends side).registeredWaits_eq.trans (s.occupantOf_count side)
  · intro side
    have hle := (h.attends side).pendingReleases_le
    have hcount := s.occupantOf_count side
    have hone := s.waitsOf_le side
    omega

/-! ### Letting go -/

/-- A side waits for nothing: its call does not sleep, and its key is fresh. -/
structure Free (s : Session) (side : Side) : Prop where
  awake : s.isAsleep side = false
  fresh : s.keyOf side = .fresh

theorem Free.waitsOf_eq {side : Side} (h : s.Free side) : s.waitsOf side = 0 := by
  simp only [waitsOf, h.awake, h.fresh]
  rfl

/-- A polled write of a whole buffer is given up when it is over. -/
theorem pollWriting_free {w : Waker} {key : WaitKey} {data : List UInt8} {written : Nat}
    (hover : (s.pollWriting w key data written).answer ≠ .pending) :
    (s.pollWriting w key data written).state.Free .writer := by
  simp only [pollWriting] at hover ⊢
  generalize pollWriteAll w data ((s.channel, key), written) = o at hover ⊢
  obtain ⟨(e | _) | _, st, effects⟩ := o
  · exact ⟨rfl, rfl⟩
  · exact ⟨rfl, rfl⟩
  · exact absurd rfl hover

theorem pollReading_free {w : Waker} {key : WaitKey} {limit : Nat}
    (hover : (s.pollReading w key limit).answer ≠ .pending) :
    (s.pollReading w key limit).state.Free .reader := by
  simp only [pollReading] at hover ⊢
  generalize pollRead w limit (s.channel, key) = o at hover ⊢
  obtain ⟨bytes | _, st, effects⟩ := o
  · exact ⟨rfl, rfl⟩
  · exact absurd rfl hover

/-- A poll of the handle, with a writer that is open, is over with the key fresh or pending. -/
theorem pollSome_free {w : Waker} {key : WaitKey} {data : List UInt8} (hsome : data ≠ [])
    (hopen : s.channel.writerClosed = false)
    (hover : (s.polledWriter key (.pollWrite data w)).answer ≠ .pending) :
    (s.polledWriter key (.pollWrite data w)).state.Free .writer := by
  have hfresh := pollWrite_fresh w hsome (s := (s.channel, key)) hopen
  simp only [polledWriter, Outcome.andThen_answer, Outcome.andThen_state, Outcome.pure_answer,
    Outcome.pure_state] at hover ⊢
  generalize pollWrite w data (s.channel, key) = o at hover hfresh ⊢
  refine ⟨rfl, hfresh ?_⟩
  intro hpending
  apply hover
  rw [hpending]
  rfl

/-- Whoever drops its handle waits no longer, and an end that is gone does not either. -/
theorem dropped_writer_free (h : s.isAsleep .writer = false) :
    (s.writerRequest .drop).state.Free .writer := by
  simp only [writerRequest]
  cases hwriter : s.writer with
  | blocking => exact ⟨rfl, rfl⟩
  | polled key => exact ⟨rfl, rfl⟩
  | writing key data written => exact ⟨rfl, rfl⟩
  | asleep mode data written =>
    simp only [isAsleep, hwriter] at h
    cases h
  | gone =>
    constructor
    · exact h
    · simp only [refuse, Outcome.pure_state, keyOf, hwriter]
      rfl

theorem dropped_reader_free (h : s.isAsleep .reader = false) :
    (s.readerRequest .drop).state.Free .reader := by
  simp only [readerRequest]
  cases hreader : s.reader with
  | blocking => exact ⟨rfl, rfl⟩
  | polled key => exact ⟨rfl, rfl⟩
  | reading key limit => exact ⟨rfl, rfl⟩
  | asleep limit =>
    simp only [isAsleep, hreader] at h
    cases h
  | gone =>
    constructor
    · exact h
    · simp only [refuse, Outcome.pure_state, keyOf, hreader]
      rfl

/-- Each way to let a wait go gives up the registration. -/
theorem LetsGo.free {side : Side} {r : Request} (h : s.LetsGo side r (s.request r).answer) :
    (s.request r).state.Free side := by
  generalize hreply : (s.request r).answer = reply at h
  cases h with
  | write_dropped hwriter =>
    simp only [request, writerRequest, hwriter]
    exact ⟨rfl, rfl⟩
  | write_resolved hwriter ended =>
    subst hreply
    simp only [request, writerRequest, hwriter] at ended ⊢
    exact pollWriting_free ended
  | write_at_once hwriter ended =>
    subst hreply
    simp only [request, writerRequest, hwriter] at ended ⊢
    exact pollWriting_free ended
  | @moved_in key data w n hwriter hsome =>
    simp only [request, writerRequest, hwriter] at hreply ⊢
    cases hclosed : s.channel.writerClosed with
    | false =>
      apply pollSome_free hsome hclosed
      intro hpending
      rw [hreply] at hpending
      cases hpending
    | true =>
      -- a closed writer is refused, so it is never told a count
      simp only [polledWriter, pollWrite_shut w data (s := (s.channel, key)) hclosed] at hreply
      cases hreply
  | @refused key data w e hwriter hsome hopen =>
    simp only [request, writerRequest, hwriter] at hreply ⊢
    apply pollSome_free hsome hopen
    intro hpending
    rw [hreply] at hpending
    cases hpending
  | writer_converted hwriter =>
    simp only [request, writerRequest, hwriter]
    exact ⟨rfl, rfl⟩
  | writer_dropped hawake => exact dropped_writer_free hawake
  | read_dropped hreader =>
    simp only [request, readerRequest, hreader]
    exact ⟨rfl, rfl⟩
  | read_resolved hreader ended =>
    subst hreply
    simp only [request, readerRequest, hreader] at ended ⊢
    exact pollReading_free ended
  | read_at_once hreader ended =>
    subst hreply
    simp only [request, readerRequest, hreader] at ended ⊢
    exact pollReading_free ended
  | @moved_out key limit w bytes hreader hsome =>
    simp only [request, readerRequest, hreader, polledReader, Outcome.andThen_answer,
      Outcome.andThen_state, Outcome.pure_answer, Outcome.pure_state] at hreply ⊢
    have hfresh := pollRead_fresh w hsome (s := (s.channel, key))
    generalize pollRead w limit (s.channel, key) = o at hreply hfresh ⊢
    refine ⟨rfl, hfresh ?_⟩
    intro hpending
    rw [hpending] at hreply
    cases hreply
  | reader_converted hreader =>
    simp only [request, readerRequest, hreader]
    exact ⟨rfl, rfl⟩
  | reader_dropped hawake => exact dropped_reader_free hawake

/-- Roused calls go on without a side that waits for nothing. -/
theorem Free.settle {side : Side} (h : s.Free side) : s.settle.state.Free side := by
  cases side with
  | writer =>
    have hkept := s.settleReader_writer
    have hsettled : s.settle.state.writer = s.writer := by
      simp only [Session.settle, Outcome.andThen_state, Outcome.map_state]
      have hawake := h.awake
      simp only [isAsleep, ← hkept] at hawake
      simp only [settleWriter]
      split
      · rename_i hasleep
        simp only [hasleep] at hawake
        cases hawake
      · exact hkept
    constructor
    · simp only [isAsleep, hsettled]
      exact h.awake
    · simp only [keyOf, hsettled]
      exact h.fresh
  | reader =>
    have hsettled : s.settle.state.reader = s.reader := by
      simp only [Session.settle, Outcome.andThen_state, Outcome.map_state]
      refine (settleWriter_reader _).trans ?_
      have hawake := h.awake
      simp only [isAsleep] at hawake
      simp only [settleReader]
      split
      · rename_i hasleep
        simp only [hasleep] at hawake
        cases hawake
      · rfl
    constructor
    · simp only [isAsleep, hsettled]
      exact h.awake
    · simp only [keyOf, hsettled]
      exact h.fresh

theorem LetsGo.advance_free {side : Side} {r : Request}
    (h : s.LetsGo side r (s.request r).answer) : (s.advance r).state.Free side :=
  h.free.settle

/-- With both handles gone nobody is registered, and nothing is owed to anybody. -/
theorem Guarded.deserted (h : s.Guarded) (hwriter : s.writer = .gone) (hreader : s.reader = .gone)
    (side : Side) :
    (s.channel.awaited side).registeredWaits = 0 ∧ (s.channel.awaited side).word.owed = 0 := by
  have hnobody : s.occupantOf side = .nobody := by
    cases side with
    | writer => simp only [occupantOf, hwriter]; rfl
    | reader => simp only [occupantOf, hreader]; rfl
  have hattends := h.attends side
  rw [hnobody] at hattends
  constructor
  · exact hattends.registeredWaits_eq
  · apply UInt64.toNat_inj.mp
    exact Nat.le_zero.mp hattends.owed_le

/-- **A ring leaves no registration behind**, whatever its capacity and whatever is asked of its
    ends in whatever order. -/
theorem no_registration_left {capacity : Nat} (hpos : 0 < capacity)
    (hword : capacity < UInt64.size) (observer : Observer) (polled : Bool) (rs : List Request) :
    ((new capacity observer polled).after rs).Tidy := by
  obtain ⟨hnew, hresting⟩ := new_guarded hpos hword observer polled
  obtain ⟨hguarded, hrested⟩ := after_guarded rs hnew hresting
  constructor
  · exact hguarded.counted
  · intro r
    exact (request_guarded hguarded hrested r).1.counted
  · intro side r hgoes
    have hfree := hgoes.advance_free
    have hcounted := (advance_guarded hguarded hrested r).1.counted
    constructor
    · simp only [hfree.fresh]
      rfl
    · exact (hcounted.waits side).trans hfree.waitsOf_eq
  · exact hguarded.deserted

/-- A write that waits for room is registered, is so no longer once it is dropped, and leaves
    nothing behind when both handles go while it waits. -/
theorem no_registration_left_dropped :
    let s := (new 2 .counting true).after [.writer (.write [1, 2, 3] 7 false)]
    let t := (new 2 .counting true).after
      [.writer (.write [1, 2, 3] 7 false), .writer .drop, .reader .drop]
    (s.channel.awaited .writer).registeredWaits = 1 ∧
      ((s.advance (.writer .cancel)).state.channel.awaited .writer).registeredWaits = 0 ∧
      (t.channel.awaited .writer).registeredWaits = 0 ∧
      (t.channel.awaited .reader).word.owed = 0 := by
  intro s t
  have htidy : s.Tidy := no_registration_left (by decide) (by decide) .counting true _
  have hgone : t.Tidy := no_registration_left (by decide) (by decide) .counting true _
  have hwriting : s.writer = .writing ⟨some 0⟩ [1, 2, 3] 2 := by decide
  have hdeserted := hgone.deserted (by decide) (by decide)
  refine ⟨?_, ?_, (hdeserted .writer).1, (hdeserted .reader).2⟩
  · exact (htidy.counted.waits .writer).trans (by decide)
  · exact (htidy.freed .writer (.writer .cancel) (.write_dropped hwriting)).2

end Session

end Conduit.Ring

/-
  Conduit/Proofs/Ring/Ends.lean
  =============================
  **The ends of a ring, guarded.**

  A session is guarded if its channel is, for the registrations that its two ends hold.
  Every request keeps that.  Between requests nobody is roused: a call whose thread was
  roused goes on at once.  It goes on once, because of an order between the ends: while a
  writer is roused no read sleeps, so the write that goes on rouses nobody in turn.
-/
import Conduit.Proofs.Ring.Guard
import Conduit.Proofs.Ring.Sides
import Conduit.Ring.Session

namespace Conduit.Ring

open Signal (Slim WaitKey)

/-- The key that the writer's end polls with. -/
def WriterEnd.key : WriterEnd → WaitKey
  | .polled key | .writing key _ _ => key
  | _ => .fresh

/-- Who the writer's end has registered. -/
def WriterEnd.occupant : WriterEnd → Occupant
  | .asleep _ _ _ => .thread (threadOf .writer)
  | e => Ring.occupant e.key

/-- The key that the reader's end polls with. -/
def ReaderEnd.key : ReaderEnd → WaitKey
  | .polled key | .reading key _ => key
  | _ => .fresh

/-- Who the reader's end has registered. -/
def ReaderEnd.occupant : ReaderEnd → Occupant
  | .asleep _ => .thread (threadOf .reader)
  | e => Ring.occupant e.key

/-- The waker that a request to the writer's end polls with. -/
def WriterRequest.waker? : WriterRequest → Option Waker
  | .poll w | .write _ w _ | .pollWrite _ w => some w
  | _ => none

/-- The waker that a request to the reader's end polls with. -/
def ReaderRequest.waker? : ReaderRequest → Option Waker
  | .poll w | .read _ w _ | .pollRead _ w => some w
  | _ => none

theorem Attends.key_rested {key : WaitKey} {s : Slim} (h : Attends (occupant key) s) :
    s.roused = [] := by
  obtain ⟨_ | k⟩ := key
  · exact h.nobody_rested
  · cases h with
    | registered hp => rfl
    | woken hp => rfl

namespace Session

variable {s : Session}

/-- The channel is guarded for the ends, and an end that is gone is closed. -/
structure Guarded (s : Session) : Prop where
  channel : Channel.Guarded s.writer.occupant s.reader.occupant s.channel
  writerGone : s.writer = .gone → s.channel.writerClosed = true
  readerGone : s.reader = .gone → s.channel.readerClosed = true

/-- No thread has been roused and not gone on. -/
structure Rested (s : Session) : Prop where
  space : s.channel.spaceReady.roused = []
  data : s.channel.dataReady.roused = []

theorem new_guarded {capacity : Nat} (hpos : 0 < capacity) (hword : capacity < UInt64.size)
    (observer : Observer) (polled : Bool) :
    (new capacity observer polled).Guarded ∧ (new capacity observer polled).Rested := by
  have hchannel := Channel.new_guarded hpos hword observer
  cases polled with
  | false =>
    refine ⟨⟨hchannel, ?_, ?_⟩, rfl, rfl⟩
    · intro hgone
      cases hgone
    · intro hgone
      cases hgone
  | true =>
    refine ⟨⟨hchannel, ?_, ?_⟩, rfl, rfl⟩
    · intro hgone
      cases hgone
    · intro hgone
      cases hgone

/-! ### Answers to the writer's end -/

/-- What a request to the writer's end leads to.  `noted`: a task that is registered then was
    registered by this poll, which is pending, or before it and nothing has touched its signal. -/
structure WriterAnswers (s : Session) (r : WriterRequest) (o : Answer) : Prop where
  channel : Channel.Guarded o.state.writer.occupant s.reader.occupant o.state.channel
  gone : o.state.writer = .gone → o.state.channel.writerClosed = true
  rested : o.state.channel.spaceReady.roused = []
  reader : o.state.reader = s.reader
  spares : ByWriter s.channel o.effects o.state.channel
  noted : ∀ k, o.state.writer.key = ⟨some k⟩ →
    (∃ w, o.answer = .pending ∧ r.waker? = some w ∧
      (k, w) ∈ o.state.channel.spaceReady.tasks) ∨
    (o.answer ≠ .pending ∧ s.writer.key = ⟨some k⟩ ∧
      o.state.channel.spaceReady = s.channel.spaceReady)

namespace WriterAnswers

variable {r : WriterRequest} {o : Answer}

/-- The end stays as it is, and so does its signal. -/
theorem same (rested : s.Rested) (hwriter : o.state.writer = s.writer)
    (hreader : o.state.reader = s.reader)
    (hchannel : Channel.Guarded s.writer.occupant s.reader.occupant o.state.channel)
    (hgone : s.writer = .gone → o.state.channel.writerClosed = true)
    (hspares : ByWriter s.channel o.effects o.state.channel)
    (hspace : o.state.channel.spaceReady = s.channel.spaceReady) (hanswer : o.answer ≠ .pending) :
    WriterAnswers s r o where
  channel := by
    rw [hwriter]
    exact hchannel
  gone hgone' := hgone (hwriter ▸ hgone')
  rested := hspace ▸ rested.space
  reader := hreader
  spares := hspares
  noted k hk := Or.inr ⟨hanswer, hwriter ▸ hk, hspace⟩

/-- The end has nobody registered any more. -/
theorem free (hkey : o.state.writer.key = .fresh)
    (hchannel : Channel.Guarded o.state.writer.occupant s.reader.occupant o.state.channel)
    (hgone : o.state.writer = .gone → o.state.channel.writerClosed = true)
    (hrested : o.state.channel.spaceReady.roused = []) (hreader : o.state.reader = s.reader)
    (hspares : ByWriter s.channel o.effects o.state.channel) : WriterAnswers s r o where
  channel := hchannel
  gone := hgone
  rested := hrested
  reader := hreader
  spares := hspares
  noted k hk := by
    rw [hkey] at hk
    cases hk

/-- The handle is idle, with a fresh key if it is polled. -/
theorem idle (he : o.state.writer = .blocking ∨ o.state.writer = .polled .fresh)
    (hchannel : Channel.Guarded .nobody s.reader.occupant o.state.channel)
    (hreader : o.state.reader = s.reader)
    (hspares : ByWriter s.channel o.effects o.state.channel) : WriterAnswers s r o := by
  have hrested := hchannel.space.nobody_rested
  rcases he with he | he
  · refine free (by rw [he]; rfl) (by rw [he]; exact hchannel) ?_ hrested hreader hspares
    intro hgone
    rw [he] at hgone
    cases hgone
  · refine free (by rw [he]; rfl) (by rw [he]; exact hchannel) ?_ hrested hreader hspares
    intro hgone
    rw [he] at hgone
    cases hgone

/-- The poll is pending, and its task sleeps under its waker. -/
theorem pending {key : WaitKey} {w : Waker} (hanswer : o.answer = .pending)
    (hwaker : r.waker? = some w) (hkey : o.state.writer.key = key)
    (hoccupant : o.state.writer.occupant = occupant key) (hheld : o.state.writer ≠ .gone)
    (hchannel : Channel.Guarded (occupant key) s.reader.occupant o.state.channel)
    (hreader : o.state.reader = s.reader)
    (hspares : ByWriter s.channel o.effects o.state.channel)
    (htasks : ∃ k, key = ⟨some k⟩ ∧ o.state.channel.spaceReady.tasks = [(k, w)]) :
    WriterAnswers s r o where
  channel := by
    rw [hoccupant]
    exact hchannel
  gone hgone := absurd hgone hheld
  rested := hchannel.space.key_rested
  reader := hreader
  spares := hspares
  noted k hk := by
    obtain ⟨k', hk', htasks⟩ := htasks
    rw [hkey, hk'] at hk
    cases hk
    left
    refine ⟨w, hanswer, hwaker, ?_⟩
    rw [htasks]
    exact List.mem_singleton_self _

end WriterAnswers

/-- A request that looks at the ring, or is refused. -/
theorem writer_looks (h : s.Guarded) (rested : s.Rested) (r : WriterRequest) {reply : Reply}
    (hreply : reply ≠ .pending) : WriterAnswers s r (.pure reply s) :=
  .same rested rfl rfl h.channel h.writerGone (Spares.same ⟨rfl, rfl⟩) rfl hreply

theorem refuse_writer (h : s.Guarded) (rested : s.Rested) (r : WriterRequest) (m : Misuse) :
    WriterAnswers s r (s.refuse m) := by
  apply writer_looks h rested
  intro hreply
  cases hreply

theorem blockWriting_answers {mode : WriteMode} {data : List UInt8} {r : WriterRequest}
    {o : Outcome (Blocking (Except RingClosed Nat)) Committing}
    (hguarded : Channel.Guarded (o.answer.occupant .writer) s.reader.occupant o.state.1)
    (hrested : o.state.1.spaceReady.roused = []) (hspares : ByWriter s.channel o.effects o.state.1) :
    WriterAnswers s r (s.blockWriting mode data o) := by
  have hspares' := hspares.finish
  obtain ⟨a | _, st, effects⟩ := o
  · exact .idle (Or.inl rfl) hguarded rfl hspares'
  · refine .free rfl hguarded ?_ hrested rfl hspares'
    intro hgone
    cases hgone

theorem withdrawWriter_spares (c : Channel) (key : WaitKey) :
    ByWriter c (c.withdrawWriter key).effects (c.withdrawWriter key).state :=
  Spares.same ⟨rfl, rfl⟩

/-- Giving up the registration and keeping an idle handle. -/
theorem withdraw_writer {key : WaitKey} (h : s.Guarded)
    (hoccupant : s.writer.occupant = occupant key) (r : WriterRequest) {e : WriterEnd}
    (he : e = .blocking ∨ e = .polled .fresh) :
    WriterAnswers s r ((s.channel.withdrawWriter key).andThen fun _ c =>
      .pure .nothing { s with channel := c, writer := e }) := by
  have hchannel := h.channel
  rw [hoccupant] at hchannel
  exact .idle he hchannel.withdrawWriter rfl (withdrawWriter_spares s.channel key).finish

theorem pollWriting_answers {key : WaitKey} (h : s.Guarded)
    (hoccupant : s.writer.occupant = occupant key) {r : WriterRequest} {w : Waker}
    (hwaker : r.waker? = some w) (data : List UInt8) (written : Nat) :
    WriterAnswers s r (s.pollWriting w key data written) := by
  have hchannel := h.channel
  rw [hoccupant] at hchannel
  obtain ⟨hkept, hpending⟩ := pollWriteAll_guarded w data (s := ((s.channel, key), written)) hchannel
  have hspares := pollWriteAll_spares w data ((s.channel, key), written)
  simp only [pollWriting]
  revert hkept hpending hspares
  generalize pollWriteAll w data ((s.channel, key), written) = o
  obtain ⟨(e | _) | _, ⟨⟨c, key'⟩, written'⟩, effects⟩ := o
  · intro hkept _ hspares
    exact .idle (Or.inr rfl) hkept.withdrawWriter rfl
      (hspares.trans (withdrawWriter_spares c key').finish)
  · intro hkept _ hspares
    exact .idle (Or.inr rfl) hkept.withdrawWriter rfl
      (hspares.trans (withdrawWriter_spares c key').finish)
  · intro hkept hpending hspares
    refine .pending rfl hwaker rfl rfl ?_ hkept rfl hspares.finish (hpending rfl)
    intro hgone
    cases hgone

theorem dropWriter_answers (key : WaitKey) (h : s.Guarded)
    (hoccupant : s.writer.occupant = occupant key) (r : WriterRequest) :
    WriterAnswers s r (s.dropWriter key) := by
  have hchannel := h.channel
  rw [hoccupant] at hchannel
  have hfree := hchannel.withdrawWriter.closeWriter
  refine .free rfl hfree ?_ hfree.space.nobody_rested rfl ?_
  · intro _
    simp only [dropWriter, Outcome.andThen_state, Outcome.pure_state, Channel.closeWriter]
    split
    · assumption
    · rfl
  · exact (withdrawWriter_spares s.channel key).trans
      (closeWriter_spares _).finish

theorem offer_answers (h : s.Guarded) (rested : s.Rested) (hheld : s.writer ≠ .gone)
    (data : List UInt8) (r : WriterRequest) :
    WriterAnswers s r ((s.channel.offer data).andThen fun r c =>
      .pure (offerReply r) { s with channel := c }) := by
  refine .same rested rfl rfl (h.channel.offer data) (fun hgone => absurd hgone hheld)
    (offer_spares s.channel data).finish ?_ ?_
  · show (s.channel.offer data).state.spaceReady = s.channel.spaceReady
    rw [Channel.offer]
    split
    · rfl
    · exact s.channel.tryWrite_spaceReady data
  · show offerReply (s.channel.offer data).answer ≠ .pending
    cases (s.channel.offer data).answer with
    | ok n =>
      intro hanswer
      cases hanswer
    | error e =>
      intro hanswer
      cases hanswer

theorem blockingWriter_answers (h : s.Guarded) (rested : s.Rested) (hwriter : s.writer = .blocking)
    (r : WriterRequest) : WriterAnswers s r (s.blockingWriter r) := by
  have hchannel := h.channel
  rw [hwriter] at hchannel
  have hheld : s.writer ≠ .gone := by
    rw [hwriter]
    intro hgone
    cases hgone
  have hwrite (mode : WriteMode) (data : List UInt8) :
      WriterAnswers s r (s.blockWriting mode data (blockingWrite mode data (s.channel, 0))) := by
    obtain ⟨hkept, hrested⟩ := blockingWrite_guarded mode data (s := (s.channel, 0)) hchannel
    exact blockWriting_answers hkept hrested (blockingWrite_spares mode data (s.channel, 0))
  cases r with
  | tryWrite data => exact offer_answers h rested hheld data _
  | write data w unpolled => exact hwrite .whole data
  | writeOnce data => exact hwrite .once data
  | writePieces data => exact hwrite .pieces data
  | flush =>
    apply writer_looks h rested
    intro hreply
    cases hreply
  | toPolled => exact .idle (Or.inr rfl) hchannel rfl (Spares.same ⟨rfl, rfl⟩)
  | info =>
    apply writer_looks h rested
    intro hreply
    cases hreply
  | debug =>
    apply writer_looks h rested
    intro hreply
    cases hreply
  | drop => exact dropWriter_answers .fresh h (by rw [hwriter]; rfl) _
  | poll w => exact refuse_writer h rested _ .mode
  | cancel => exact refuse_writer h rested _ .mode
  | progress => exact refuse_writer h rested _ .mode
  | pollWrite data w => exact refuse_writer h rested _ .mode
  | close => exact refuse_writer h rested _ .mode
  | toBlocking => exact refuse_writer h rested _ .mode

theorem polledWriter_answers {key : WaitKey} (h : s.Guarded) (rested : s.Rested)
    (hwriter : s.writer = .polled key) (r : WriterRequest) :
    WriterAnswers s r (s.polledWriter key r) := by
  have hoccupant : s.writer.occupant = occupant key := by
    rw [hwriter]
    rfl
  have hchannel := h.channel
  rw [hoccupant] at hchannel
  have hheld : s.writer ≠ .gone := by
    rw [hwriter]
    intro hgone
    cases hgone
  cases r with
  | tryWrite data =>
    rw [polledWriter]
    split
    · apply writer_looks h rested
      intro hreply
      cases hreply
    · exact offer_answers h rested hheld data _
  | write data w unpolled =>
    rw [polledWriter]
    split
    · refine
        { channel := hchannel
          gone := ?_
          rested := rested.space
          reader := rfl
          spares := Spares.same ⟨rfl, rfl⟩
          noted := ?_ }
      · intro hgone
        cases hgone
      · intro k hk
        right
        refine ⟨?_, ?_, rfl⟩
        · intro hanswer
          cases hanswer
        · rw [hwriter]
          exact hk
    · exact pollWriting_answers h hoccupant rfl data 0
  | pollWrite data w =>
    obtain ⟨hkept, hleaves⟩ := pollWrite_guarded w data (s := (s.channel, key)) hchannel
    have hspares := pollWrite_spares w data (s.channel, key)
    simp only [polledWriter]
    revert hkept hleaves hspares
    generalize pollWrite w data (s.channel, key) = o
    obtain ⟨a | _, st, effects⟩ := o
    · intro hkept hleaves hspares
      rcases hleaves with hfresh | hsame
      · obtain ⟨c, key'⟩ := st
        have hkey : key' = .fresh := hfresh
        subst hkey
        exact .idle (Or.inr rfl) hkept rfl hspares.finish
      · have hst : st = (s.channel, key) := hsame
        subst hst
        refine .same rested hwriter.symm rfl h.channel (fun hgone => absurd hgone hheld)
          hspares.finish rfl ?_
        cases a with
        | ok n =>
          intro hanswer
          cases hanswer
        | error e =>
          intro hanswer
          cases hanswer
    · intro hkept hleaves hspares
      refine .pending rfl rfl rfl rfl ?_ hkept rfl hspares.finish hleaves
      intro hgone
      cases hgone
  | flush =>
    apply writer_looks h rested
    intro hreply
    cases hreply
  | close =>
    refine .same rested rfl rfl h.channel.closeWriter (fun hgone => absurd hgone hheld)
      (closeWriter_spares s.channel).finish ?_ ?_
    · show s.channel.closeWriter.state.spaceReady = s.channel.spaceReady
      rw [Channel.closeWriter]
      split <;> rfl
    · intro hanswer
      cases hanswer
  | toBlocking => exact withdraw_writer h hoccupant _ (Or.inl rfl)
  | info =>
    apply writer_looks h rested
    intro hreply
    cases hreply
  | debug =>
    apply writer_looks h rested
    intro hreply
    cases hreply
  | drop => exact dropWriter_answers key h hoccupant _
  | poll w => exact refuse_writer h rested _ .mode
  | cancel => exact refuse_writer h rested _ .mode
  | progress => exact refuse_writer h rested _ .mode
  | writeOnce data => exact refuse_writer h rested _ .mode
  | writePieces data => exact refuse_writer h rested _ .mode
  | toPolled => exact refuse_writer h rested _ .mode

theorem busyWriter_answers {key : WaitKey} {data : List UInt8} {written : Nat} (h : s.Guarded)
    (rested : s.Rested) (hwriter : s.writer = .writing key data written) (r : WriterRequest) :
    WriterAnswers s r (s.busyWriter key data written r) := by
  have hoccupant : s.writer.occupant = occupant key := by
    rw [hwriter]
    rfl
  cases r with
  | poll w => exact pollWriting_answers h hoccupant rfl data written
  | cancel => exact withdraw_writer h hoccupant _ (Or.inr rfl)
  | progress =>
    apply writer_looks h rested
    intro hreply
    cases hreply
  | drop => exact dropWriter_answers key h hoccupant _
  | tryWrite data => exact refuse_writer h rested _ .busy
  | write data w unpolled => exact refuse_writer h rested _ .busy
  | writeOnce data => exact refuse_writer h rested _ .busy
  | writePieces data => exact refuse_writer h rested _ .busy
  | pollWrite data w => exact refuse_writer h rested _ .busy
  | flush => exact refuse_writer h rested _ .busy
  | close => exact refuse_writer h rested _ .busy
  | toPolled => exact refuse_writer h rested _ .busy
  | toBlocking => exact refuse_writer h rested _ .busy
  | info => exact refuse_writer h rested _ .busy
  | debug => exact refuse_writer h rested _ .busy

/-- Every request to the writer's end keeps the ring guarded. -/
theorem writerRequest_answers (h : s.Guarded) (rested : s.Rested) (r : WriterRequest) :
    WriterAnswers s r (s.writerRequest r) := by
  rw [writerRequest]
  cases hwriter : s.writer with
  | blocking => exact blockingWriter_answers h rested hwriter r
  | polled key => exact polledWriter_answers h rested hwriter r
  | writing key data written => exact busyWriter_answers h rested hwriter r
  | asleep mode data written => exact refuse_writer h rested _ .busy
  | gone => exact refuse_writer h rested _ .gone

/-! ### Answers to the reader's end -/

/-- What a request to the reader's end leads to.  `poised`: a read that sleeps has taken nothing
    out, and has not roused a writer. -/
structure ReaderAnswers (s : Session) (r : ReaderRequest) (o : Answer) : Prop where
  channel : Channel.Guarded s.writer.occupant o.state.reader.occupant o.state.channel
  gone : o.state.reader = .gone → o.state.channel.readerClosed = true
  rested : o.state.channel.dataReady.roused = []
  poised : ∀ limit, o.state.reader = .asleep limit →
    o.state.channel.spaceReady = s.channel.spaceReady
  writer : o.state.writer = s.writer
  spares : ByReader s.channel o.effects o.state.channel
  noted : ∀ k, o.state.reader.key = ⟨some k⟩ →
    (∃ w, o.answer = .pending ∧ r.waker? = some w ∧
      (k, w) ∈ o.state.channel.dataReady.tasks) ∨
    (o.answer ≠ .pending ∧ s.reader.key = ⟨some k⟩ ∧
      o.state.channel.dataReady = s.channel.dataReady)

namespace ReaderAnswers

variable {r : ReaderRequest} {o : Answer}

/-- The end stays as it is, awake, and so does its signal. -/
theorem same (rested : s.Rested) (hreader : o.state.reader = s.reader)
    (hwriter : o.state.writer = s.writer)
    (hchannel : Channel.Guarded s.writer.occupant s.reader.occupant o.state.channel)
    (hgone : s.reader = .gone → o.state.channel.readerClosed = true)
    (hpoised : ∀ limit, s.reader = .asleep limit →
      o.state.channel.spaceReady = s.channel.spaceReady)
    (hspares : ByReader s.channel o.effects o.state.channel)
    (hdata : o.state.channel.dataReady = s.channel.dataReady) (hanswer : o.answer ≠ .pending) :
    ReaderAnswers s r o where
  channel := by
    rw [hreader]
    exact hchannel
  gone hgone' := hgone (hreader ▸ hgone')
  rested := hdata ▸ rested.data
  poised limit hasleep := hpoised limit (hreader ▸ hasleep)
  writer := hwriter
  spares := hspares
  noted k hk := Or.inr ⟨hanswer, hreader ▸ hk, hdata⟩

/-- The end has nobody registered any more. -/
theorem free (hkey : o.state.reader.key = .fresh)
    (hchannel : Channel.Guarded s.writer.occupant o.state.reader.occupant o.state.channel)
    (hgone : o.state.reader = .gone → o.state.channel.readerClosed = true)
    (hrested : o.state.channel.dataReady.roused = [])
    (hpoised : ∀ limit, o.state.reader = .asleep limit →
      o.state.channel.spaceReady = s.channel.spaceReady)
    (hwriter : o.state.writer = s.writer)
    (hspares : ByReader s.channel o.effects o.state.channel) : ReaderAnswers s r o where
  channel := hchannel
  gone := hgone
  rested := hrested
  poised := hpoised
  writer := hwriter
  spares := hspares
  noted k hk := by
    rw [hkey] at hk
    cases hk

/-- The handle is idle, with a fresh key if it is polled. -/
theorem idle (he : o.state.reader = .blocking ∨ o.state.reader = .polled .fresh)
    (hchannel : Channel.Guarded s.writer.occupant .nobody o.state.channel)
    (hwriter : o.state.writer = s.writer)
    (hspares : ByReader s.channel o.effects o.state.channel) : ReaderAnswers s r o := by
  have hrested := hchannel.data.nobody_rested
  rcases he with he | he
  · refine free (by rw [he]; rfl) (by rw [he]; exact hchannel) ?_ hrested ?_ hwriter hspares
    · intro hgone
      rw [he] at hgone
      cases hgone
    · intro limit hasleep
      rw [he] at hasleep
      cases hasleep
  · refine free (by rw [he]; rfl) (by rw [he]; exact hchannel) ?_ hrested ?_ hwriter hspares
    · intro hgone
      rw [he] at hgone
      cases hgone
    · intro limit hasleep
      rw [he] at hasleep
      cases hasleep

/-- The poll is pending, and its task sleeps under its waker. -/
theorem pending {key : WaitKey} {w : Waker} (hanswer : o.answer = .pending)
    (hwaker : r.waker? = some w) (hkey : o.state.reader.key = key)
    (hoccupant : o.state.reader.occupant = occupant key) (hheld : o.state.reader ≠ .gone)
    (hawake : ∀ limit, o.state.reader ≠ .asleep limit)
    (hchannel : Channel.Guarded s.writer.occupant (occupant key) o.state.channel)
    (hwriter : o.state.writer = s.writer)
    (hspares : ByReader s.channel o.effects o.state.channel)
    (htasks : ∃ k, key = ⟨some k⟩ ∧ o.state.channel.dataReady.tasks = [(k, w)]) :
    ReaderAnswers s r o where
  channel := by
    rw [hoccupant]
    exact hchannel
  gone hgone := absurd hgone hheld
  rested := hchannel.data.key_rested
  poised limit hasleep := absurd hasleep (hawake limit)
  writer := hwriter
  spares := hspares
  noted k hk := by
    obtain ⟨k', hk', htasks⟩ := htasks
    rw [hkey, hk'] at hk
    cases hk
    left
    refine ⟨w, hanswer, hwaker, ?_⟩
    rw [htasks]
    exact List.mem_singleton_self _

end ReaderAnswers

theorem reader_looks (h : s.Guarded) (rested : s.Rested) (r : ReaderRequest) {reply : Reply}
    (hreply : reply ≠ .pending) : ReaderAnswers s r (.pure reply s) :=
  .same rested rfl rfl h.channel h.readerGone (fun _ _ => rfl) (Spares.same ⟨rfl, rfl⟩) rfl hreply

theorem refuse_reader (h : s.Guarded) (rested : s.Rested) (r : ReaderRequest) (m : Misuse) :
    ReaderAnswers s r (s.refuse m) := by
  apply reader_looks h rested
  intro hreply
  cases hreply

theorem withdrawReader_spares (c : Channel) (key : WaitKey) :
    ByReader c (c.withdrawReader key).effects (c.withdrawReader key).state :=
  Spares.same ⟨rfl, rfl⟩

theorem blockReading_answers {limit : Nat} {r : ReaderRequest}
    {o : Outcome (Blocking (List UInt8)) Channel}
    (hguarded : Channel.Guarded s.writer.occupant (o.answer.occupant .reader) o.state)
    (hrested : o.state.dataReady.roused = [])
    (hpoised : o.answer = .asleep → o.state.spaceReady = s.channel.spaceReady)
    (hspares : ByReader s.channel o.effects o.state) :
    ReaderAnswers s r (s.blockReading limit o) := by
  have hspares' := hspares.finish
  obtain ⟨bytes | _, c, effects⟩ := o
  · exact .idle (Or.inl rfl) hguarded rfl hspares'
  · refine .free rfl hguarded ?_ hrested (fun _ _ => hpoised rfl) rfl hspares'
    intro hgone
    cases hgone

theorem endTimedReading_answers {r : ReaderRequest}
    {o : Outcome (Except ReadTimeout (List UInt8)) Channel}
    (hguarded : Channel.Guarded s.writer.occupant .nobody o.state)
    (hspares : ByReader s.channel o.effects o.state) :
    ReaderAnswers s r (s.endTimedReading o) :=
  .idle (Or.inl rfl) hguarded rfl hspares.finish

theorem pollReading_answers {key : WaitKey} (h : s.Guarded)
    (hoccupant : s.reader.occupant = occupant key) {r : ReaderRequest} {w : Waker}
    (hwaker : r.waker? = some w) (limit : Nat) :
    ReaderAnswers s r (s.pollReading w key limit) := by
  have hchannel := h.channel
  rw [hoccupant] at hchannel
  obtain ⟨hkept, hleaves⟩ := pollRead_guarded w limit (s := (s.channel, key)) hchannel
  have hspares := pollRead_spares w limit (s.channel, key)
  simp only [pollReading]
  revert hkept hleaves hspares
  generalize pollRead w limit (s.channel, key) = o
  obtain ⟨bytes | _, ⟨c, key'⟩, effects⟩ := o
  · intro hkept _ hspares
    exact .idle (Or.inr rfl) hkept.withdrawReader rfl
      (hspares.trans (withdrawReader_spares c key').finish)
  · intro hkept hleaves hspares
    refine .pending rfl hwaker rfl rfl ?_ ?_ hkept rfl hspares.finish hleaves
    · intro hgone
      cases hgone
    · intro limit hasleep
      cases hasleep

theorem dropReader_answers (key : WaitKey) (h : s.Guarded)
    (hoccupant : s.reader.occupant = occupant key) (r : ReaderRequest) :
    ReaderAnswers s r (s.dropReader key) := by
  have hchannel := h.channel
  rw [hoccupant] at hchannel
  have hfree := hchannel.withdrawReader.closeReader
  refine .free rfl hfree ?_ hfree.data.nobody_rested ?_ rfl ?_
  · intro _
    simp only [dropReader, Outcome.andThen_state, Outcome.pure_state, Channel.closeReader]
    split
    · assumption
    · rfl
  · intro limit hasleep
    cases hasleep
  · exact (withdrawReader_spares s.channel key).trans
      (closeReader_spares _).finish

/-- An idle reader takes out what is there. -/
theorem tryRead_answers (h : s.Guarded) (rested : s.Rested) (hidle : s.reader.isIdle = true)
    (limit : Nat) (r : ReaderRequest) :
    ReaderAnswers s r ((s.channel.tryRead limit).andThen fun bytes c =>
      .pure (.got bytes) { s with channel := c }) := by
  refine .same rested rfl rfl (h.channel.tryRead limit).1 ?_ ?_
    (tryRead_spares s.channel limit).finish
    (s.channel.tryRead_dataReady limit) ?_
  · intro hgone
    rw [hgone] at hidle
    cases hidle
  · intro limit hasleep
    rw [hasleep] at hidle
    cases hidle
  · intro hanswer
    cases hanswer

theorem blockingReader_answers (h : s.Guarded) (rested : s.Rested) (hreader : s.reader = .blocking)
    (r : ReaderRequest) : ReaderAnswers s r (s.blockingReader r) := by
  have hchannel := h.channel
  rw [hreader] at hchannel
  have hidle : s.reader.isIdle = true := by
    rw [hreader]
    rfl
  have hread (limit : Nat) :
      ReaderAnswers s r (s.blockReading limit (blockingRead limit s.channel)) := by
    obtain ⟨hkept, hrested, hpoised⟩ := blockingRead_guarded limit hchannel
    exact blockReading_answers hkept hrested hpoised (blockingRead_spares limit s.channel)
  cases r with
  | tryRead limit => exact tryRead_answers h rested hidle limit _
  | read limit w unpolled => exact hread limit
  | readOnce limit => exact hread limit
  | timedRead limit =>
    exact endTimedReading_answers (timedRead_guarded limit hchannel)
      (timedRead_spares limit s.channel)
  | readToEnd =>
    rw [blockingReader]
    split
    · exact tryRead_answers h rested hidle _ _
    · exact refuse_reader h rested _ .race
  | toPolled => exact .idle (Or.inr rfl) hchannel rfl (Spares.same ⟨rfl, rfl⟩)
  | info =>
    apply reader_looks h rested
    intro hreply
    cases hreply
  | debug =>
    apply reader_looks h rested
    intro hreply
    cases hreply
  | drop => exact dropReader_answers .fresh h (by rw [hreader]; rfl) _
  | poll w => exact refuse_reader h rested _ .mode
  | cancel => exact refuse_reader h rested _ .mode
  | pollRead limit w => exact refuse_reader h rested _ .mode
  | timeUp => exact refuse_reader h rested _ .mode
  | toBlocking => exact refuse_reader h rested _ .mode

/-- Giving up the registration and keeping an idle handle. -/
theorem withdraw_reader {key : WaitKey} (h : s.Guarded)
    (hoccupant : s.reader.occupant = occupant key) (r : ReaderRequest) {e : ReaderEnd}
    (he : e = .blocking ∨ e = .polled .fresh) :
    ReaderAnswers s r ((s.channel.withdrawReader key).andThen fun _ c =>
      .pure .nothing { s with channel := c, reader := e }) := by
  have hchannel := h.channel
  rw [hoccupant] at hchannel
  exact .idle he hchannel.withdrawReader rfl (withdrawReader_spares s.channel key).finish

theorem polledReader_answers {key : WaitKey} (h : s.Guarded) (rested : s.Rested)
    (hreader : s.reader = .polled key) (r : ReaderRequest) :
    ReaderAnswers s r (s.polledReader key r) := by
  have hoccupant : s.reader.occupant = occupant key := by
    rw [hreader]
    rfl
  have hchannel := h.channel
  rw [hoccupant] at hchannel
  have hidle : s.reader.isIdle = true := by
    rw [hreader]
    rfl
  cases r with
  | tryRead limit => exact tryRead_answers h rested hidle limit _
  | read limit w unpolled =>
    rw [polledReader]
    split
    · refine
        { channel := hchannel
          gone := ?_
          rested := rested.data
          poised := ?_
          writer := rfl
          spares := Spares.same ⟨rfl, rfl⟩
          noted := ?_ }
      · intro hgone
        cases hgone
      · intro limit hasleep
        cases hasleep
      · intro k hk
        right
        refine ⟨?_, ?_, rfl⟩
        · intro hanswer
          cases hanswer
        · rw [hreader]
          exact hk
    · exact pollReading_answers h hoccupant rfl limit
  | pollRead limit w =>
    obtain ⟨hkept, hleaves⟩ := pollRead_guarded w limit (s := (s.channel, key)) hchannel
    have hspares := pollRead_spares w limit (s.channel, key)
    simp only [polledReader]
    revert hkept hleaves hspares
    generalize pollRead w limit (s.channel, key) = o
    obtain ⟨bytes | _, st, effects⟩ := o
    · intro hkept hleaves hspares
      rcases hleaves with hfresh | hsame
      · obtain ⟨c, key'⟩ := st
        have hkey : key' = .fresh := hfresh
        subst hkey
        exact .idle (Or.inr rfl) hkept rfl hspares.finish
      · have hst : st = (s.channel, key) := hsame
        subst hst
        refine .same rested hreader.symm rfl h.channel h.readerGone (fun _ _ => rfl)
          hspares.finish rfl ?_
        intro hanswer
        cases hanswer
    · intro hkept hleaves hspares
      refine .pending rfl rfl rfl rfl ?_ ?_ hkept rfl hspares.finish hleaves
      · intro hgone
        cases hgone
      · intro limit hasleep
        cases hasleep
  | toBlocking => exact withdraw_reader h hoccupant _ (Or.inl rfl)
  | info =>
    apply reader_looks h rested
    intro hreply
    cases hreply
  | debug =>
    apply reader_looks h rested
    intro hreply
    cases hreply
  | drop => exact dropReader_answers key h hoccupant _
  | poll w => exact refuse_reader h rested _ .mode
  | cancel => exact refuse_reader h rested _ .mode
  | readOnce limit => exact refuse_reader h rested _ .mode
  | timedRead limit => exact refuse_reader h rested _ .mode
  | timeUp => exact refuse_reader h rested _ .mode
  | readToEnd => exact refuse_reader h rested _ .mode
  | toPolled => exact refuse_reader h rested _ .mode

/-- Every request to the reader's end keeps the ring guarded. -/
theorem readerRequest_answers (h : s.Guarded) (rested : s.Rested) (r : ReaderRequest) :
    ReaderAnswers s r (s.readerRequest r) := by
  rw [readerRequest]
  cases hreader : s.reader with
  | blocking => exact blockingReader_answers h rested hreader r
  | polled key => exact polledReader_answers h rested hreader r
  | reading key limit =>
    have hoccupant : s.reader.occupant = occupant key := by
      rw [hreader]
      rfl
    cases r with
    | poll w => exact pollReading_answers h hoccupant rfl limit
    | cancel => exact withdraw_reader h hoccupant _ (Or.inr rfl)
    | drop => exact dropReader_answers key h hoccupant _
    | _ => exact refuse_reader h rested _ .busy
  | asleep limit =>
    have hchannel := h.channel
    rw [hreader] at hchannel
    cases r with
    | timeUp =>
      exact endTimedReading_answers (timeUpRead_guarded limit hchannel rested.data)
        (timeUpRead_spares limit s.channel)
    | _ => exact refuse_reader h rested _ .busy
  | gone => exact refuse_reader h rested _ .gone

end Session

end Conduit.Ring

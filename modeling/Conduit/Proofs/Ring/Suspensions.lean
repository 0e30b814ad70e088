/-
  Conduit/Proofs/Ring/Suspensions.lean
  ====================================
  **How often a ring reports that a side stalls.**

  A call goes to sleep when its poll is pending or its thread blocks, and again when its
  thread is roused and finds that it cannot go on.  Each time it reports a stall.  There is
  one stall more than that: a blocking call reports before it waits, so when a release is
  left over from an earlier transfer, it is let through at once, and reports again before it
  sleeps.

  A thread that was roused has no release left over.  It slept with its signal unset, and
  whatever the other end does at once sets the signal once.
-/
import Conduit.Proofs.Ring.Stalls
import Conduit.Proofs.Ring.Wakeups

namespace Conduit.Ring

open Signal (Slim WaitKey)

/-! ### Going to sleep -/

/-- Whether the answer to a request says that the call went to sleep: its task is registered, its
    thread sleeps, or it slept for all the time it had.  A read whose time is up after it fell
    asleep does not sleep once more. -/
def Request.suspends (r : Request) : Reply → Bool
  | .pending | .started => true
  | .timeout _ => r != .reader .timeUp
  | _ => false

/-- Whether a request is made to a side. -/
def Request.isTo (r : Request) : Side → Bool
  | .writer => match r with
    | .writer _ => true
    | _ => false
  | .reader => match r with
    | .reader _ => true
    | _ => false

/-- The signal that a side waits in. -/
def Channel.awaited (c : Channel) : Side → Slim
  | .writer => c.spaceReady
  | .reader => c.dataReady

/-- The signal that a side sets. -/
def Channel.raised (c : Channel) : Side → Slim
  | .writer => c.dataReady
  | .reader => c.spaceReady

namespace Session

/-- Whether the handle of a side is idle and blocks. -/
def isBlocking (s : Session) : Side → Bool
  | .writer => s.writer == .blocking
  | .reader => s.reader == .blocking

/-- Whether a blocking call of a side sleeps. -/
def isAsleep (s : Session) : Side → Bool
  | .writer => match s.writer with
    | .asleep _ _ _ => true
    | _ => false
  | .reader => match s.reader with
    | .asleep _ => true
    | _ => false

/-- Whether a call of a side goes to sleep at a request. -/
def sleepsAt (s : Session) (side : Side) (r : Request) : Bool :=
  r.isTo side && r.suspends (s.request r).answer

/-- Whether the signal that a side waits in is set before its next blocking call. -/
def leftOver (s : Session) (side : Side) : Bool :=
  s.isBlocking side && (s.channel.awaited side).isSet

/-- Whether a call that goes to sleep at a request is let through before, by a release that was
    left over. -/
def startsFalsely (s : Session) (side : Side) (r : Request) : Bool :=
  s.sleepsAt side r && s.leftOver side

/-- Whether a sleeping call of a side goes on after a request, and goes to sleep again. -/
def sleepsAgain (s : Session) (side : Side) (r : Request) : Bool :=
  let s := (s.request r).state
  match side with
  | .reader => !s.channel.dataReady.roused.isEmpty && s.settleReader.state.isAsleep .reader
  | .writer =>
    let s := s.settleReader.state
    !s.channel.spaceReady.roused.isEmpty && s.settleWriter.state.isAsleep .writer

/-- How often calls of a side go to sleep in a run. -/
def suspensions (side : Side) (s : Session) : List Request → Nat
  | [] => 0
  | r :: rs => (s.sleepsAt side r).toNat + (s.sleepsAgain side r).toNat
    + suspensions side (s.advance r).state rs

/-- How often calls of a side that go to sleep in a run are let through before. -/
def falseStarts (side : Side) (s : Session) : List Request → Nat
  | [] => 0
  | r :: rs => (s.startsFalsely side r).toNat + falseStarts side (s.advance r).state rs

/-- Whether a call of a side sleeps before a run and after each of its requests. -/
def sleepsOn (side : Side) (s : Session) : List Request → Bool
  | [] => s.isAsleep side
  | r :: rs => s.isAsleep side && sleepsOn side (s.advance r).state rs

/-- How often a sleeping call of a side goes on in a run, and goes to sleep again. -/
def resumptions (side : Side) (s : Session) : List Request → Nat
  | [] => 0
  | r :: rs => (s.sleepsAgain side r).toNat + resumptions side (s.advance r).state rs

/-- What is done outside in a run. -/
def deeds (s : Session) : List Request → List Effect
  | [] => []
  | r :: rs => (s.advance r).effects ++ deeds (s.advance r).state rs

end Session

/-! ### The other end's signal -/

/-- A signal is set once at most. -/
def SetsOnce (s s' : Slim) : Prop := s' = s ∨ s' = s.set.state

theorem SetsOnce.refl (s : Slim) : SetsOnce s s := Or.inl rfl

/-- A thread that slept before was released once at most. -/
theorem Attends.released_once {t : Thread} {s s' : Slim} (h : Attends (.thread t) s)
    (hrested : s.roused = []) (hset : SetsOnce s s') : s'.pendingReleases ≤ 1 := by
  cases h with
  | asleep hp =>
    rcases hset with rfl | rfl
    · rw [Slim.pendingReleases, hp.pending_eq]
      exact Nat.zero_le 1
    · rw [Attends.set_sleeper hp]
      exact (hp.set (by decide)).pending_eq.le
  | roused hp => exact absurd hrested (List.cons_ne_nil _ _)

namespace Channel

theorem tryWrite_once (c : Channel) (src : List UInt8) :
    SetsOnce c.dataReady (c.tryWrite src).state.dataReady := by
  rw [tryWrite]
  split
  · exact .refl _
  · exact Or.inr rfl

theorem offer_once (c : Channel) (src : List UInt8) :
    SetsOnce c.dataReady (c.offer src).state.dataReady := by
  rw [offer]
  split
  · exact .refl _
  · exact c.tryWrite_once src

theorem closeWriter_once (c : Channel) : SetsOnce c.dataReady c.closeWriter.state.dataReady := by
  rw [closeWriter]
  split
  · exact .refl _
  · exact Or.inr rfl

theorem tryRead_once (c : Channel) (limit : Nat) :
    SetsOnce c.spaceReady (c.tryRead limit).state.spaceReady := by
  rw [tryRead]
  split
  · exact .refl _
  · exact Or.inr rfl

theorem closeReader_once (c : Channel) : SetsOnce c.spaceReady c.closeReader.state.spaceReady := by
  rw [closeReader]
  split
  · exact .refl _
  · exact Or.inr rfl

/-- A reader that waits leaves the writer's signal alone. -/
theorem onData_spaceReady {α : Type} (c : Channel) (o : Outcome α Slim) :
    (c.onData o).state.spaceReady = c.spaceReady := rfl

end Channel

open Channel (Guarded forReader forWriter)

variable {writer reader : Occupant}

theorem push_once (data : List UInt8) (s : Committing) :
    SetsOnce s.1.dataReady (push data s).1.dataReady := by
  rw [push]
  split
  · exact .refl _
  · exact s.1.tryWrite_once (data.drop s.2)

/-- Whatever does one push sets the reader's signal once at most. -/
theorem once_of_push {data : List UInt8} {c c' : Channel} {i i' : Nat}
    (hpush : (c'.forReader, i') = push data (c.forReader, i)) :
    SetsOnce c.dataReady c'.dataReady := by
  have honce := push_once data (c.forReader, i)
  rw [← hpush] at honce
  exact honce

theorem blockingWrite_once (mode : WriteMode) (data : List UInt8) {c : Channel}
    (h : Guarded .nobody reader c) :
    SetsOnce c.dataReady (blockingWrite mode data (c, 0)).state.1.dataReady :=
  once_of_push (blockingWrite_pushes mode data (s := (c, 0)) h fun _ => rfl).1

theorem pollWrite_once (w : Waker) (data : List UInt8) {s : Keyed}
    (h : Guarded (occupant s.2) reader s.1) :
    SetsOnce s.1.dataReady (pollWrite w data s).state.1.dataReady := by
  by_cases hclosed : s.1.writerClosed
  · rw [pollWrite, if_pos hclosed]
    exact .refl _
  · by_cases hnone : data.isEmpty
    · rw [pollWrite, if_neg hclosed, if_pos hnone]
      exact .refl _
    · have hpos : 0 < data.length := List.length_pos_iff.mpr (mt List.isEmpty_iff.mpr hnone)
      exact once_of_push (pollWrite_pushes w hpos h (Bool.not_eq_true _ ▸ hclosed)).1

theorem pollWriteAll_once (w : Waker) (data : List UInt8) {s : Writing}
    (h : Guarded (occupant s.1.2) reader s.1.1) :
    SetsOnce s.1.1.dataReady (pollWriteAll w data s).state.1.1.dataReady := by
  cases hclosed : s.1.1.writerClosed with
  | true =>
    rw [pollWriteAll_closed w data hclosed]
    exact .refl _
  | false => exact once_of_push (pollWriteAll_pushes w data h hclosed).1

theorem pull_once (limit : Nat) (c : Channel) :
    SetsOnce c.spaceReady (pull limit c).2.spaceReady := by
  rw [pull]
  split
  · exact .refl _
  · split
    · exact .refl _
    · exact c.tryRead_once limit

/-- Whatever does one pull sets the writer's signal once at most. -/
theorem once_of_pull {limit : Nat} {c c' : Channel} {bytes : Option (List UInt8)}
    (hpull : (bytes, c'.forWriter) = pull limit c.forWriter) :
    SetsOnce c.spaceReady c'.spaceReady := by
  have honce := pull_once limit c.forWriter
  rw [← hpull] at honce
  exact honce

theorem timedReadPass_once (limit : Nat) (c : Channel) :
    (timedReadPass limit c).Leads (fun t => t.spaceReady = c.spaceReady)
      fun _ t => SetsOnce c.spaceReady t.spaceReady := by
  rw [timedReadPass]
  apply Outcome.Leads.after
  by_cases hends : ¬ (c.tryRead limit).answer.isEmpty ∨ (c.tryRead limit).state.writerClosed
  · rw [if_pos hends]
    exact .of_some rfl (c.tryRead_once limit)
  · rw [if_neg hends]
    rw [not_or, not_not, List.isEmpty_iff] at hends
    rw [Channel.tryRead_none hends.1]
    by_cases hreleased : c.dataReady.expire.answer
    · exact .of_none (if_pos hreleased) rfl
    · exact .of_some (if_neg hreleased) (.refl _)

theorem timedRead_once (limit : Nat) (c : Channel) :
    SetsOnce c.spaceReady (timedRead limit c).state.spaceReady := by
  rw [timedRead]
  split
  · exact .refl _
  · refine Outcome.loop_rule (Q := fun c _ c' => SetsOnce c.spaceReady c'.spaceReady)
      (fun c => .refl _) ?_ ?_ _ c
    · intro c b hb
      exact (timedReadPass_once limit c).answers hb
    · intro c b c' hnone hrest
      rw [(timedReadPass_once limit c).goes_on hnone] at hrest
      exact hrest

theorem timeUpRead_once (limit : Nat) (c : Channel) :
    SetsOnce c.spaceReady (timeUpRead limit c).state.spaceReady := by
  have hwaited := c.onData_spaceReady (c.dataReady.timeUp (threadOf .reader))
  simp only [timeUpRead, Outcome.andThen_state]
  revert hwaited
  generalize (c.onData (c.dataReady.timeUp (threadOf .reader))).state = c'
  intro hwaited
  rw [← hwaited]
  split
  · exact timedRead_once limit c'
  · simp only [Outcome.andThen_state]
    split
    · exact c'.tryRead_once limit
    · exact c'.tryRead_once limit

namespace Session

variable {s : Session}

/-! ### Requests to one end -/

/-- What an end does when a request is made to it: it reports its stalls, where `leftOver`
    releases let it through, and sets the other end's signal once at most. -/
structure Speaks (side : Side) (leftOver : Nat) (s : Session) (r : Request) (o : Answer) :
    Prop where
  tells : Tells side (reports (r.suspends o.answer) leftOver) s.channel o.effects o.state.channel
  once : SetsOnce (s.channel.raised side) (o.state.channel.raised side)

/-- A call that does not sleep reports nothing. -/
theorem Speaks.silent {side : Side} {leftOver : Nat} {r : Request} {o : Answer}
    (hawake : r.suspends o.answer = false)
    (htells : Tells side 0 s.channel o.effects o.state.channel)
    (honce : SetsOnce (s.channel.raised side) (o.state.channel.raised side)) :
    Speaks side leftOver s r o where
  tells := by
    rw [hawake]
    exact htells
  once := honce

/-- A request that looks at the ring, or is refused. -/
theorem speaks_looks {side : Side} {leftOver : Nat} {r : Request} {reply : Reply}
    (hawake : r.suspends reply = false) : Speaks side leftOver s r (.pure reply s) :=
  .silent hawake ⟨rfl, rfl⟩ (.refl _)

section Writer

variable {leftOver : Nat} {r : WriterRequest}

theorem blockWriting_speaks {mode : WriteMode} {data : List UInt8}
    {o : Outcome (Blocking (Except RingClosed Nat)) Committing}
    (htells : Tells .writer (reports o.answer.isAsleep leftOver) s.channel o.effects o.state.1)
    (honce : SetsOnce s.channel.dataReady o.state.1.dataReady) :
    Speaks .writer leftOver s (.writer r) (s.blockWriting mode data o) := by
  have htells' := htells.finish
  obtain ⟨a | _, st, effects⟩ := o
  · refine .silent ?_ htells' honce
    show Request.suspends _ (writeReply mode a) = false
    cases a with
    | ok n =>
      rw [writeReply]
      split <;> rfl
    | error e =>
      rw [writeReply]
      split <;> rfl
  · exact ⟨htells', honce⟩

theorem pollWriting_speaks {key : WaitKey} (h : s.Guarded)
    (hoccupant : s.writer.occupant = occupant key) (w : Waker) (data : List UInt8)
    (written : Nat) : Speaks .writer 0 s (.writer r) (s.pollWriting w key data written) := by
  have hchannel := h.channel
  rw [hoccupant] at hchannel
  have htells := pollWriteAll_tells w data (s := ((s.channel, key), written)) hchannel
  have honce := pollWriteAll_once w data (s := ((s.channel, key), written)) hchannel
  simp only [pollWriting]
  revert htells honce
  generalize pollWriteAll w data ((s.channel, key), written) = o
  obtain ⟨(e | _) | _, ⟨⟨c, key'⟩, written'⟩, effects⟩ := o
  · intro htells honce
    exact .silent rfl (htells.trans (c.withdrawWriter_tells .writer key').finish) honce
  · intro htells honce
    exact .silent rfl (htells.trans (c.withdrawWriter_tells .writer key').finish) honce
  · intro htells honce
    exact ⟨htells.finish, honce⟩

theorem dropWriter_speaks (key : WaitKey) :
    Speaks .writer leftOver s (.writer r) (s.dropWriter key) :=
  .silent rfl ((s.channel.withdrawWriter_tells .writer key).trans
    (Channel.closeWriter_tells .writer _).finish) (Channel.closeWriter_once _)

theorem withdrawWriter_speaks (key : WaitKey) (e : WriterEnd) :
    Speaks .writer leftOver s (.writer r) ((s.channel.withdrawWriter key).andThen fun _ c =>
      .pure .nothing { s with channel := c, writer := e }) :=
  .silent rfl (s.channel.withdrawWriter_tells .writer key).finish (.refl _)

theorem offer_speaks (data : List UInt8) :
    Speaks .writer leftOver s (.writer r) ((s.channel.offer data).andThen fun r c =>
      .pure (offerReply r) { s with channel := c }) := by
  refine .silent ?_ (s.channel.offer_tells .writer data).finish (s.channel.offer_once data)
  show Request.suspends _ (offerReply (s.channel.offer data).answer) = false
  cases (s.channel.offer data).answer <;> rfl

theorem blockingWriter_speaks (h : s.Guarded) (hwriter : s.writer = .blocking)
    (r : WriterRequest) :
    Speaks .writer s.channel.spaceReady.pendingReleases s (.writer r) (s.blockingWriter r) := by
  have hchannel := h.channel
  rw [hwriter] at hchannel
  have hwrite (mode : WriteMode) (data : List UInt8) :
      Speaks .writer s.channel.spaceReady.pendingReleases s (.writer r)
        (s.blockWriting mode data (blockingWrite mode data (s.channel, 0))) :=
    blockWriting_speaks (blockingWrite_tells mode data (s := (s.channel, 0)) hchannel)
      (blockingWrite_once mode data hchannel)
  cases r with
  | tryWrite data => exact offer_speaks data
  | write data w unpolled => exact hwrite .whole data
  | writeOnce data => exact hwrite .once data
  | writePieces data => exact hwrite .pieces data
  | toPolled => exact .silent rfl ⟨rfl, rfl⟩ (.refl _)
  | drop => exact dropWriter_speaks .fresh
  | _ => exact speaks_looks rfl

theorem polledWriter_speaks {key : WaitKey} (h : s.Guarded) (hwriter : s.writer = .polled key)
    (r : WriterRequest) : Speaks .writer 0 s (.writer r) (s.polledWriter key r) := by
  have hoccupant : s.writer.occupant = occupant key := by
    rw [hwriter]
    rfl
  have hchannel := h.channel
  rw [hoccupant] at hchannel
  cases r with
  | tryWrite data =>
    rw [polledWriter]
    split
    · exact speaks_looks rfl
    · exact offer_speaks data
  | write data w unpolled =>
    rw [polledWriter]
    split
    · exact .silent rfl ⟨rfl, rfl⟩ (.refl _)
    · exact pollWriting_speaks h hoccupant w data 0
  | pollWrite data w =>
    have htells := pollWrite_tells w data (s := (s.channel, key)) hchannel
    have honce := pollWrite_once w data (s := (s.channel, key)) hchannel
    simp only [polledWriter]
    revert htells honce
    generalize pollWrite w data (s.channel, key) = o
    obtain ⟨(e | n) | _, st, effects⟩ := o
    · exact fun htells honce => .silent rfl htells.finish honce
    · exact fun htells honce => .silent rfl htells.finish honce
    · exact fun htells honce => ⟨htells.finish, honce⟩
  | close =>
    exact .silent rfl (s.channel.closeWriter_tells .writer).finish s.channel.closeWriter_once
  | toBlocking => exact withdrawWriter_speaks key .blocking
  | drop => exact dropWriter_speaks key
  | _ => exact speaks_looks rfl

theorem busyWriter_speaks {key : WaitKey} {data : List UInt8} {written : Nat} (h : s.Guarded)
    (hwriter : s.writer = .writing key data written) (r : WriterRequest) :
    Speaks .writer 0 s (.writer r) (s.busyWriter key data written r) := by
  cases r with
  | poll w =>
    refine pollWriting_speaks h ?_ w data written
    rw [hwriter]
    rfl
  | cancel => exact withdrawWriter_speaks key (.polled .fresh)
  | drop => exact dropWriter_speaks key
  | _ => exact speaks_looks rfl

end Writer

section Reader

variable {leftOver : Nat} {r : ReaderRequest}

theorem blockReading_speaks {limit : Nat} {o : Outcome (Blocking (List UInt8)) Channel}
    (htells : Tells .reader (reports o.answer.isAsleep leftOver) s.channel o.effects o.state)
    (honce : SetsOnce s.channel.spaceReady o.state.spaceReady) :
    Speaks .reader leftOver s (.reader r) (s.blockReading limit o) := by
  have htells' := htells.finish
  obtain ⟨bytes | _, c, effects⟩ := o
  · exact .silent rfl htells' honce
  · exact ⟨htells', honce⟩

theorem pollReading_speaks {key : WaitKey} (h : s.Guarded)
    (hoccupant : s.reader.occupant = occupant key) (w : Waker) (limit : Nat) :
    Speaks .reader 0 s (.reader r) (s.pollReading w key limit) := by
  have hchannel := h.channel
  rw [hoccupant] at hchannel
  have htells := pollRead_tells w limit (s := (s.channel, key)) hchannel
  have honce := once_of_pull (pollRead_pulls w limit (s := (s.channel, key)) hchannel)
  simp only [pollReading]
  revert htells honce
  generalize pollRead w limit (s.channel, key) = o
  obtain ⟨bytes | _, ⟨c, key'⟩, effects⟩ := o
  · intro htells honce
    exact .silent rfl (htells.trans (c.withdrawReader_tells .reader key').finish) honce
  · intro htells honce
    exact ⟨htells.finish, honce⟩

theorem dropReader_speaks (key : WaitKey) :
    Speaks .reader leftOver s (.reader r) (s.dropReader key) :=
  .silent rfl ((s.channel.withdrawReader_tells .reader key).trans
    (Channel.closeReader_tells .reader _).finish) (Channel.closeReader_once _)

theorem withdrawReader_speaks (key : WaitKey) (e : ReaderEnd) :
    Speaks .reader leftOver s (.reader r) ((s.channel.withdrawReader key).andThen fun _ c =>
      .pure .nothing { s with channel := c, reader := e }) :=
  .silent rfl (s.channel.withdrawReader_tells .reader key).finish (.refl _)

theorem tryRead_speaks (limit : Nat) :
    Speaks .reader leftOver s (.reader r) ((s.channel.tryRead limit).andThen fun bytes c =>
      .pure (.got bytes) { s with channel := c }) :=
  .silent rfl (s.channel.tryRead_tells .reader limit).finish (s.channel.tryRead_once limit)

theorem blockingReader_speaks (h : s.Guarded) (hreader : s.reader = .blocking)
    (r : ReaderRequest) :
    Speaks .reader s.channel.dataReady.pendingReleases s (.reader r) (s.blockingReader r) := by
  have hchannel := h.channel
  rw [hreader] at hchannel
  have hread (limit : Nat) :
      Speaks .reader s.channel.dataReady.pendingReleases s (.reader r)
        (s.blockReading limit (blockingRead limit s.channel)) :=
    blockReading_speaks (blockingRead_tells limit hchannel)
      (once_of_pull (blockingRead_pulls limit hchannel))
  cases r with
  | tryRead limit => exact tryRead_speaks limit
  | read limit w unpolled => exact hread limit
  | readOnce limit => exact hread limit
  | timedRead limit =>
    have htells := timedRead_tells limit hchannel
    have honce := timedRead_once limit s.channel
    simp only [blockingReader]
    revert htells honce
    generalize timedRead limit s.channel = o
    obtain ⟨e | bytes, c, effects⟩ := o
    · exact fun htells honce => ⟨htells.finish, honce⟩
    · exact fun htells honce => .silent rfl htells.finish honce
  | readToEnd =>
    rw [blockingReader]
    split
    · exact tryRead_speaks _
    · exact speaks_looks rfl
  | toPolled => exact .silent rfl ⟨rfl, rfl⟩ (.refl _)
  | drop => exact dropReader_speaks .fresh
  | _ => exact speaks_looks rfl

theorem polledReader_speaks {key : WaitKey} (h : s.Guarded) (hreader : s.reader = .polled key)
    (r : ReaderRequest) : Speaks .reader 0 s (.reader r) (s.polledReader key r) := by
  have hoccupant : s.reader.occupant = occupant key := by
    rw [hreader]
    rfl
  have hchannel := h.channel
  rw [hoccupant] at hchannel
  cases r with
  | tryRead limit => exact tryRead_speaks limit
  | read limit w unpolled =>
    rw [polledReader]
    split
    · exact .silent rfl ⟨rfl, rfl⟩ (.refl _)
    · exact pollReading_speaks h hoccupant w limit
  | pollRead limit w =>
    have htells := pollRead_tells w limit (s := (s.channel, key)) hchannel
    have honce := once_of_pull (pollRead_pulls w limit (s := (s.channel, key)) hchannel)
    simp only [polledReader]
    revert htells honce
    generalize pollRead w limit (s.channel, key) = o
    obtain ⟨bytes | _, st, effects⟩ := o
    · exact fun htells honce => .silent rfl htells.finish honce
    · exact fun htells honce => ⟨htells.finish, honce⟩
  | toBlocking => exact withdrawReader_speaks key .blocking
  | drop => exact dropReader_speaks key
  | _ => exact speaks_looks rfl

theorem busyReader_speaks {key : WaitKey} {limit : Nat} (h : s.Guarded)
    (hreader : s.reader = .reading key limit) (r : ReaderRequest) :
    Speaks .reader 0 s (.reader r) (s.busyReader key limit r) := by
  cases r with
  | poll w =>
    refine pollReading_speaks h ?_ w limit
    rw [hreader]
    rfl
  | cancel => exact withdrawReader_speaks key (.polled .fresh)
  | drop => exact dropReader_speaks key
  | _ => exact speaks_looks rfl

theorem sleepingReader_speaks {limit : Nat} (h : s.Guarded) (rested : s.Rested)
    (hreader : s.reader = .asleep limit) (r : ReaderRequest) :
    Speaks .reader 0 s (.reader r) (s.sleepingReader limit r) := by
  have hchannel := h.channel
  rw [hreader] at hchannel
  cases r with
  | timeUp =>
    have htells := timeUpRead_tells limit hchannel rested.data
    refine .silent ?_ htells.finish (timeUpRead_once limit s.channel)
    show Request.suspends _ (timedReply (timeUpRead limit s.channel).answer) = false
    cases (timeUpRead limit s.channel).answer <;> rfl
  | _ => exact speaks_looks rfl

end Reader

theorem writerRequest_speaks (h : s.Guarded) (r : WriterRequest) :
    Speaks .writer (s.leftOver .writer).toNat s (.writer r) (s.writerRequest r) := by
  rw [writerRequest]
  cases hwriter : s.writer with
  | blocking =>
    have hchannel := h.channel
    rw [hwriter] at hchannel
    have hleft : (s.leftOver .writer).toNat = s.channel.spaceReady.pendingReleases := by
      rw [hchannel.space.left_over, leftOver, isBlocking, hwriter]
      rfl
    rw [hleft]
    exact blockingWriter_speaks h hwriter r
  | polled key =>
    rw [leftOver, isBlocking, hwriter]
    exact polledWriter_speaks h hwriter r
  | writing key data written =>
    rw [leftOver, isBlocking, hwriter]
    exact busyWriter_speaks h hwriter r
  | asleep mode data written => exact speaks_looks rfl
  | gone => exact speaks_looks rfl

theorem readerRequest_speaks (h : s.Guarded) (rested : s.Rested) (r : ReaderRequest) :
    Speaks .reader (s.leftOver .reader).toNat s (.reader r) (s.readerRequest r) := by
  rw [readerRequest]
  cases hreader : s.reader with
  | blocking =>
    have hchannel := h.channel
    rw [hreader] at hchannel
    have hleft : (s.leftOver .reader).toNat = s.channel.dataReady.pendingReleases := by
      rw [hchannel.data.left_over, leftOver, isBlocking, hreader]
      rfl
    rw [hleft]
    exact blockingReader_speaks h hreader r
  | polled key =>
    rw [leftOver, isBlocking, hreader]
    exact polledReader_speaks h hreader r
  | reading key limit =>
    rw [leftOver, isBlocking, hreader]
    exact busyReader_speaks h hreader r
  | asleep limit =>
    rw [leftOver, isBlocking, hreader]
    exact sleepingReader_speaks h rested hreader r
  | gone => exact speaks_looks rfl

/-! ### Counting -/

/-- In these effects the observer is told so often that each side stalls, and nobody else is. -/
structure Reported (c : Channel) (stalls : Side → Nat) (es : List Effect) (c' : Channel) :
    Prop where
  observer : c'.observer = c.observer
  count : ∀ o side, (stallsOf es).count (o, side) = if o = c.observer then stalls side else 0

namespace Reported

variable {c c' c'' : Channel} {f g : Side → Nat} {es es' : List Effect}

theorem trans (h : Reported c f es c') (h' : Reported c' g es' c'') :
    Reported c (fun side => f side + g side) (es ++ es') c'' := by
  refine ⟨h'.observer.trans h.observer, ?_⟩
  intro o side
  rw [stallsOf_append, List.count_append, h.count, h'.count, h.observer]
  split <;> rfl

theorem congr (h : Reported c f es c') (hfg : ∀ side, f side = g side) : Reported c g es c' := by
  rw [← funext hfg]
  exact h

theorem of_tells {side : Side} {n : Nat} (h : Tells side n c es c') (hself : f side = n)
    (hother : ∀ side', side' ≠ side → f side' = 0) : Reported c f es c' := by
  refine ⟨h.observer, ?_⟩
  intro o side'
  rw [h.stalls, List.count_replicate]
  by_cases ho : o = c.observer
  · by_cases hside : side' = side
    · rw [ho, hside, if_pos rfl, if_pos (beq_self_eq_true _), hself]
    · rw [if_pos ho, hother side' hside, if_neg]
      intro heq
      exact hside (congrArg Prod.snd (beq_iff_eq.mp heq)).symm
  · rw [if_neg ho, if_neg]
    intro heq
    exact ho (congrArg Prod.fst (beq_iff_eq.mp heq)).symm

end Reported

theorem reports_leftOver (sleeps leftOver : Bool) :
    reports sleeps leftOver.toNat = sleeps.toNat + (sleeps && leftOver).toNat := by
  cases sleeps <;> cases leftOver <;> rfl

/-- What a request itself reports. -/
theorem request_reported (h : s.Guarded) (rested : s.Rested) (r : Request) :
    Reported s.channel
      (fun side => (s.sleepsAt side r).toNat + (s.startsFalsely side r).toNat)
      (s.request r).effects (s.request r).state.channel := by
  cases r with
  | writer r =>
    refine .of_tells (writerRequest_speaks h r).tells (reports_leftOver _ _).symm ?_
    intro side hside
    cases side with
    | writer => exact absurd rfl hside
    | reader => rfl
  | reader r =>
    refine .of_tells (readerRequest_speaks h rested r).tells (reports_leftOver _ _).symm ?_
    intro side hside
    cases side with
    | writer => rfl
    | reader => exact absurd rfl hside
  | unknown =>
    refine ⟨rfl, ?_⟩
    intro o side
    cases side <;> exact (ite_self 0).symm

/-! ### Calls that go on -/

/-- Nobody who sleeps was released more than once. -/
structure Frugal (s : Session) : Prop where
  space : s.isAsleep .writer = true → s.channel.spaceReady.pendingReleases ≤ 1
  data : s.isAsleep .reader = true → s.channel.dataReady.pendingReleases ≤ 1

theorem isAsleep_writer (h : s.isAsleep .writer = true) :
    s.writer.occupant = .thread (threadOf .writer) := by
  revert h
  simp only [isAsleep]
  cases s.writer with
  | asleep mode data written => exact fun _ => rfl
  | _ => exact fun h => absurd h Bool.false_ne_true

theorem isAsleep_reader (h : s.isAsleep .reader = true) :
    s.reader.occupant = .thread (threadOf .reader) := by
  revert h
  simp only [isAsleep]
  cases s.reader with
  | asleep limit => exact fun _ => rfl
  | _ => exact fun h => absurd h Bool.false_ne_true

/-- A writer that sleeps, and was not roused, is released once by what the reader does at once. -/
theorem Guarded.space_once (h : s.Guarded) (hasleep : s.isAsleep .writer = true)
    (hrested : s.channel.spaceReady.roused = []) {signal : Slim}
    (honce : SetsOnce s.channel.spaceReady signal) : signal.pendingReleases ≤ 1 := by
  have hspace := h.channel.space
  rw [isAsleep_writer hasleep] at hspace
  exact hspace.released_once hrested honce

theorem Guarded.data_once (h : s.Guarded) (hasleep : s.isAsleep .reader = true)
    (hrested : s.channel.dataReady.roused = []) {signal : Slim}
    (honce : SetsOnce s.channel.dataReady signal) : signal.pendingReleases ≤ 1 := by
  have hdata := h.channel.data
  rw [isAsleep_reader hasleep] at hdata
  exact hdata.released_once hrested honce

theorem request_frugal (h : s.Guarded) (rested : s.Rested) (r : Request) :
    (s.request r).state.Frugal := by
  have hguarded := (request_guarded h rested r).1
  cases r with
  | writer r =>
    have ha := writerRequest_answers h rested r
    refine ⟨fun hasleep => hguarded.space_once hasleep ha.rested (.refl _), fun hasleep => ?_⟩
    refine h.data_once ?_ rested.data (writerRequest_speaks h r).once
    simp only [isAsleep] at hasleep ⊢
    rw [← ha.reader]
    exact hasleep
  | reader r =>
    have ha := readerRequest_answers h rested r
    refine ⟨fun hasleep => ?_, fun hasleep => hguarded.data_once hasleep ha.rested (.refl _)⟩
    refine h.space_once ?_ rested.space (readerRequest_speaks h rested r).once
    simp only [isAsleep] at hasleep ⊢
    rw [← ha.writer]
    exact hasleep
  | unknown =>
    exact ⟨fun hasleep => h.space_once hasleep rested.space (.refl _),
      fun hasleep => h.data_once hasleep rested.data (.refl _)⟩

theorem blockReading_tells {limit n : Nat} {o : Outcome (Blocking (List UInt8)) Channel}
    (h : Tells .reader n s.channel o.effects o.state) :
    Tells .reader n s.channel (s.blockReading limit o).effects
      (s.blockReading limit o).state.channel := by
  have hfinish := h.finish
  obtain ⟨bytes | _, c, effects⟩ := o
  · exact hfinish
  · exact hfinish

theorem blockReading_channel (s : Session) (limit : Nat)
    (o : Outcome (Blocking (List UInt8)) Channel) :
    (s.blockReading limit o).state.channel = o.state := by
  obtain ⟨bytes | _, c, effects⟩ := o <;> rfl

theorem blockReading_isAsleep (s : Session) (limit : Nat)
    (o : Outcome (Blocking (List UInt8)) Channel) :
    (s.blockReading limit o).state.isAsleep .reader = o.answer.isAsleep := by
  obtain ⟨bytes | _, c, effects⟩ := o <;> rfl

theorem blockWriting_tells {mode : WriteMode} {data : List UInt8} {n : Nat}
    {o : Outcome (Blocking (Except RingClosed Nat)) Committing}
    (h : Tells .writer n s.channel o.effects o.state.1) :
    Tells .writer n s.channel (s.blockWriting mode data o).effects
      (s.blockWriting mode data o).state.channel := by
  have hfinish := h.finish
  obtain ⟨a | _, st, effects⟩ := o
  · exact hfinish
  · exact hfinish

theorem blockWriting_isAsleep (s : Session) (mode : WriteMode) (data : List UInt8)
    (o : Outcome (Blocking (Except RingClosed Nat)) Committing) :
    (s.blockWriting mode data o).state.isAsleep .writer = o.answer.isAsleep := by
  obtain ⟨a | _, st, effects⟩ := o <;> rfl

/-- Whoever was roused sleeps in a call. -/
theorem Guarded.roused_reader (h : s.Guarded) (hroused : s.channel.dataReady.roused ≠ []) :
    ∃ limit, s.reader = .asleep limit := by
  by_contra hawake
  exact hroused (awake_reader_rested h.channel.data fun limit heq => hawake ⟨limit, heq⟩)

theorem Guarded.roused_writer (h : s.Guarded) (hroused : s.channel.spaceReady.roused ≠ []) :
    ∃ mode data written, s.writer = .asleep mode data written := by
  by_contra hawake
  exact hroused (awake_writer_rested h.channel.space fun mode data written heq =>
    hawake ⟨mode, data, written, heq⟩)

/-- A read that goes on reports a stall if it goes to sleep again, and else none. -/
theorem settleReader_tells (h : s.Guarded) (frugal : s.Frugal) :
    Tells .reader
        (!s.channel.dataReady.roused.isEmpty && s.settleReader.state.isAsleep .reader).toNat
        s.channel s.settleReader.effects s.settleReader.state.channel ∧
      SetsOnce s.channel.spaceReady s.settleReader.state.channel.spaceReady := by
  by_cases hroused : s.channel.dataReady.roused = []
  · rw [settleReader_rested hroused, hroused]
    exact ⟨⟨rfl, rfl⟩, .refl _⟩
  · obtain ⟨limit, hreader⟩ := h.roused_reader hroused
    have hasleep : s.isAsleep .reader = true := by
      rw [isAsleep, hreader]
    have hchannel := h.channel
    rw [hreader] at hchannel
    rw [settleReader_roused hreader hroused, Outcome.map_state, Outcome.map_effects,
      blockReading_isAsleep, List.isEmpty_eq_false_iff.mpr hroused, Bool.not_false, Bool.true_and]
    constructor
    · exact blockReading_tells (resumeRead_tells limit hchannel hroused (frugal.data hasleep))
    · rw [blockReading_channel]
      exact once_of_pull (resumeRead_pulls limit hchannel hroused)

/-- The reader's turn releases a sleeping writer once at most. -/
theorem settleReader_frugal (h : s.Guarded) (hpoised : s.Poised) (frugal : s.Frugal)
    (hasleep : s.settleReader.state.isAsleep .writer = true) :
    s.settleReader.state.channel.spaceReady.pendingReleases ≤ 1 := by
  have honce := (settleReader_tells h frugal).2
  rcases settleReader_cases h with ⟨hsame, _⟩ | ⟨limit, o, hreader, ha, hstate, _⟩
  · rw [hsame] at hasleep ⊢
    exact frugal.space hasleep
  · have hrested : s.channel.spaceReady.roused = [] := by
      by_contra hroused
      exact hpoised hroused limit hreader
    refine h.space_once ?_ hrested honce
    rw [hstate] at hasleep
    simp only [isAsleep] at hasleep ⊢
    rw [← ha.writer]
    exact hasleep

theorem settleWriter_tells (h : s.Guarded)
    (hone : s.isAsleep .writer = true → s.channel.spaceReady.pendingReleases ≤ 1) :
    Tells .writer
      (!s.channel.spaceReady.roused.isEmpty && s.settleWriter.state.isAsleep .writer).toNat
      s.channel s.settleWriter.effects s.settleWriter.state.channel := by
  by_cases hroused : s.channel.spaceReady.roused = []
  · rw [settleWriter_rested hroused, hroused]
    exact ⟨rfl, rfl⟩
  · obtain ⟨mode, data, written, hwriter⟩ := h.roused_writer hroused
    have hasleep : s.isAsleep .writer = true := by
      rw [isAsleep, hwriter]
    have hchannel := h.channel
    rw [hwriter] at hchannel
    rw [settleWriter_roused hwriter hroused, Outcome.map_state, Outcome.map_effects,
      blockWriting_isAsleep, List.isEmpty_eq_false_iff.mpr hroused, Bool.not_false, Bool.true_and]
    exact blockWriting_tells (resumeWrite_tells mode data (s := (s.channel, written)) hchannel
      hroused (hone hasleep))

/-! ### Runs -/

/-- What a request reports with everything that follows from it at once. -/
theorem advance_reported (h : s.Guarded) (rested : s.Rested) (r : Request) :
    Reported s.channel
      (fun side => (s.sleepsAt side r).toNat + (s.startsFalsely side r).toNat
        + (s.sleepsAgain side r).toNat)
      (s.advance r).effects (s.advance r).state.channel := by
  obtain ⟨hguarded, hpoised⟩ := request_guarded h rested r
  have hfrugal := request_frugal h rested r
  have hwriter := settleWriter_tells (settleReader_guarded hguarded hpoised).1
    (settleReader_frugal hguarded hpoised hfrugal)
  have hsettle :=
    (Reported.of_tells (f := fun side => if side = .reader then (s.sleepsAgain side r).toNat else 0)
      (settleReader_tells hguarded hfrugal).1 rfl (fun _ hside => if_neg hside)).trans
    (Reported.of_tells (f := fun side => if side = .writer then (s.sleepsAgain side r).toNat else 0)
      hwriter rfl (fun _ hside => if_neg hside))
  refine ((request_reported h rested r).trans hsettle).congr ?_
  intro side
  cases side with
  | writer => rw [if_neg (by decide), if_pos rfl, Nat.zero_add]
  | reader => rw [if_pos rfl, if_neg (by decide), Nat.add_zero]

theorem deeds_reported (rs : List Request) : ∀ {s : Session}, s.Guarded → s.Rested →
    Reported s.channel (fun side => suspensions side s rs + falseStarts side s rs) (s.deeds rs)
      (s.after rs).channel := by
  induction rs with
  | nil =>
    intro s _ _
    exact ⟨rfl, fun o _ => (ite_self 0).symm⟩
  | cons r rs ih =>
    intro s h rested
    obtain ⟨hguarded, hrested⟩ := advance_guarded h rested r
    refine ((advance_reported h rested r).trans (ih hguarded hrested)).congr ?_
    intro side
    rw [suspensions, falseStarts]
    omega

theorem after_guarded (rs : List Request) : ∀ {s : Session}, s.Guarded → s.Rested →
    (s.after rs).Guarded ∧ (s.after rs).Rested := by
  induction rs with
  | nil =>
    intro s h rested
    exact ⟨h, rested⟩
  | cons r rs ih =>
    intro s h rested
    obtain ⟨hguarded, hrested⟩ := advance_guarded h rested r
    exact ih hguarded hrested

/-- The stalls of a side that an observer is told of, among the effects. -/
theorem count_stalled (es : List Effect) (o : Observer) (side : Side) :
    es.count (.reported o (.stalled side)) = (stallsOf es).count (o, side) := by
  rw [stallsOf, List.count_filterMap, List.count]
  refine List.countP_congr fun e _ => ?_
  cases e with
  | reported o' event =>
    cases event with
    | stalled side' => simp
    | _ => simp
  | _ => simp

/-- While a call of a side sleeps, no other one of that side goes to sleep. -/
theorem sleepsAt_asleep {side : Side} (h : s.isAsleep side = true) (r : Request) :
    s.sleepsAt side r = false := by
  cases side with
  | writer =>
    cases r with
    | writer r =>
      cases hwriter : s.writer with
      | asleep mode data written =>
        rw [sleepsAt, request, writerRequest, hwriter]
        rfl
      | _ =>
        rw [isAsleep, hwriter] at h
        cases h
    | _ => rfl
  | reader =>
    cases r with
    | reader r =>
      cases hreader : s.reader with
      | asleep limit =>
        rw [sleepsAt, request, readerRequest, hreader]
        cases r with
        | timeUp =>
          show Request.suspends _ (timedReply (timeUpRead limit s.channel).answer) = false
          cases (timeUpRead limit s.channel).answer <;> rfl
        | _ => rfl
      | _ =>
        rw [isAsleep, hreader] at h
        cases h
    | _ => rfl

/-- A call that sleeps on goes to sleep as often as it goes on. -/
theorem suspensions_asleep {side : Side} (rs : List Request) : ∀ {s : Session},
    s.sleepsOn side rs = true →
      suspensions side s rs = resumptions side s rs ∧ falseStarts side s rs = 0 := by
  induction rs with
  | nil =>
    intro s _
    exact ⟨rfl, rfl⟩
  | cons r rs ih =>
    intro s h
    rw [sleepsOn, Bool.and_eq_true] at h
    obtain ⟨hsuspensions, hfalse⟩ := ih h.2
    have hawake := sleepsAt_asleep h.1 r
    rw [suspensions, falseStarts, resumptions, startsFalsely, hawake, hsuspensions, hfalse]
    exact ⟨by rw [Bool.toNat_false, Nat.zero_add], rfl⟩

/-- **Stalls are counted as calls go to sleep, and once more for each false start.**  In every run
    of a ring its observer, and nobody else, is told of each side's stalls as often as calls of
    that side go to sleep, and as often as such a call was let through before by a release that
    was left over.  A call that sleeps all through a run, in which it goes on some times and goes
    to sleep again, reports one stall for each of these times and one for the first, and one more
    if it started falsely. -/
theorem stalls_counted {capacity : Nat} (hpos : 0 < capacity) (hword : capacity < UInt64.size)
    (observer : Observer) (polled : Bool) (before : List Request) (side : Side) :
    let s := (new capacity observer polled).after before
    (∀ rs o, (s.deeds rs).count (.reported o (.stalled side))
      = if o = observer then suspensions side s rs + falseStarts side s rs else 0) ∧
    ∀ r rs, s.sleepsAt side r = true → (s.advance r).state.sleepsOn side rs = true →
      (s.deeds (r :: rs)).count (.reported observer (.stalled side))
        = 1 + resumptions side s (r :: rs) + (s.startsFalsely side r).toNat := by
  obtain ⟨hguarded, hrested⟩ := new_guarded hpos hword observer polled
  have hafter := deeds_reported before hguarded hrested
  obtain ⟨hguarded, hrested⟩ := after_guarded before hguarded hrested
  have hobserver : ((new capacity observer polled).after before).channel.observer = observer := by
    rw [hafter.observer]
    cases polled <;> rfl
  intro s
  have hcount (rs : List Request) (o : Observer) :
      (s.deeds rs).count (.reported o (.stalled side))
        = if o = observer then suspensions side s rs + falseStarts side s rs else 0 := by
    rw [count_stalled, (deeds_reported rs hguarded hrested).count, hobserver]
  refine ⟨hcount, ?_⟩
  intro r rs hsleeps hon
  obtain ⟨hsuspensions, hfalse⟩ := suspensions_asleep rs hon
  rw [hcount, if_pos rfl, suspensions, falseStarts, resumptions, hsleeps, hsuspensions, hfalse,
    Bool.toNat_true]
  omega

/-- A write of five bytes into a ring of two that is read byte by byte goes to sleep three times,
    with no false start. -/
theorem stalls_counted_resumed :
    let s := new 2 .counting false
    let r := Request.writer (.write [1, 2, 3, 4, 5] 0 false)
    let rs := [Request.reader (.tryRead 1), Request.reader (.tryRead 1)]
    (0 < 2 ∧ 2 < UInt64.size ∧ s.sleepsAt .writer r = true ∧
      (s.advance r).state.sleepsOn .writer rs = true) ∧
    (s.deeds (r :: rs)).count (.reported .counting (.stalled .writer)) = 1 + 2 + 0 :=
  ⟨⟨by decide, by decide, by decide, by decide⟩,
    (stalls_counted (by decide) (by decide) .counting false [] .writer).2 _ _ (by decide)
      (by decide)⟩

/-- A read that goes to sleep once is told of twice, as the release of an earlier write is left
    over. -/
theorem one_sleep_told_twice :
    let s := (new 4 .counting false).after [.writer (.tryWrite [1, 2, 3, 4]), .reader (.tryRead 4)]
    let r := Request.reader (.read 1 0 false)
    suspensions .reader s [r] = 1 ∧
      (s.deeds [r]).count (.reported .counting (.stalled .reader)) = 2 := by
  decide

end Session

end Conduit.Ring

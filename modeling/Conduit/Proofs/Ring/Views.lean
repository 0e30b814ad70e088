/-
  Conduit/Proofs/Ring/Views.lean
  ==============================
  **What an end sees of its ring.**

  An end never looks at the signal that the other end waits in; it only sets it.  So on two
  rings that differ in that signal alone, and in what the other end is doing, a request to
  this end is answered alike and leaves rings that again look alike to it.

  Signals differ in what becomes of a waiter: a thread sleeps where a task is registered.
  That is why the ways to wait for the same bytes can be compared at all: to the other end
  they look alike.
-/
import Conduit.Ring.Session

namespace Conduit

namespace Outcome

variable {α β γ δ σ τ : Type} {view : σ → γ} {view' : τ → δ}

/-- Two outcomes with the same answer whose states look the same. -/
structure Alike (view : σ → γ) (o o' : Outcome α σ) : Prop where
  answer : o.answer = o'.answer
  state : view o.state = view o'.state

namespace Alike

variable {o o' : Outcome α σ}

theorem andThen (h : Alike view o o') {f f' : α → σ → Outcome β τ}
    (each : ∀ a s s', view s = view s' → Alike view' (f a s) (f' a s')) :
    Alike view' (o.andThen f) (o'.andThen f') := by
  have hnext := each o.answer o.state o'.state h.state
  refine ⟨?_, ?_⟩
  · rw [andThen_answer, andThen_answer, ← h.answer]
    exact hnext.answer
  · rw [andThen_state, andThen_state, ← h.answer]
    exact hnext.state

theorem map (h : Alike view o o') (f : α → β) : Alike view (o.map f) (o'.map f) :=
  ⟨congrArg f h.answer, h.state⟩

theorem lift (h : Alike view o o') {f : σ → τ}
    (each : ∀ s s', view s = view s' → view' (f s) = view' (f s')) :
    Alike view' (o.lift f) (o'.lift f) :=
  ⟨h.answer, each _ _ h.state⟩

/-- Loops are alike if their passes are. -/
theorem loop {pass : σ → Outcome (Option β) σ}
    (each : ∀ s s', view s = view s' → Alike view (pass s) (pass s')) (bound : Nat) :
    ∀ s s', view s = view s' → Alike view (Outcome.loop pass bound s) (Outcome.loop pass bound s') := by
  induction bound with
  | zero =>
    intro s s' h
    exact ⟨rfl, h⟩
  | succ bound ih =>
    intro s s' h
    refine (each s s' h).andThen ?_
    intro b s s' h
    cases b with
    | some b => exact ⟨rfl, h⟩
    | none => exact ih s s' h

end Alike

end Outcome

namespace Ring

open Signal (Slim WaitKey)
open Outcome (Alike)

/-- A channel and something else that belongs to a call, of which an end sees all. -/
def beside {β : Type} (view : Channel → Channel) (s : Channel × β) : Channel × β := (view s.1, s.2)

theorem beside_cases {β : Type} {view : Channel → Channel} {s t : Channel × β}
    (h : beside view s = beside view t) : view s.1 = view t.1 ∧ s.2 = t.2 :=
  Prod.mk.inj h

theorem beside_eq {β : Type} {view : Channel → Channel} {c d : Channel} (h : view c = view d)
    (b : β) : beside view (c, b) = beside view (d, b) :=
  Prod.ext h rfl

/-! ### The reader's end -/

namespace Channel

/-- The channel without the signal that the writer waits in. -/
def forReader (c : Channel) : Channel := { c with spaceReady := Slim.new .quiet }

variable {α : Type} {c d : Channel}

theorem forReader_cases (h : c.forReader = d.forReader) :
    ∃ space, d = { c with spaceReady := space } := by
  refine ⟨d.spaceReady, ?_⟩
  obtain ⟨store, data, space, closed, closed', observer⟩ := c
  obtain ⟨store', data', space', closed'', closed''', observer'⟩ := d
  simp only [forReader, mk.injEq, true_and] at h ⊢
  obtain ⟨rfl, rfl, rfl, rfl, rfl⟩ := h
  exact ⟨rfl, rfl, rfl, rfl, rfl⟩

theorem store_seen (h : c.forReader = d.forReader) : c.store = d.store := by
  obtain ⟨space, rfl⟩ := forReader_cases h
  rfl

theorem dataReady_seen (h : c.forReader = d.forReader) : c.dataReady = d.dataReady := by
  obtain ⟨space, rfl⟩ := forReader_cases h
  rfl

theorem writerClosed_seen (h : c.forReader = d.forReader) : c.writerClosed = d.writerClosed := by
  obtain ⟨space, rfl⟩ := forReader_cases h
  rfl

theorem onData_alike (h : c.forReader = d.forReader) (o : Outcome α Slim) :
    Alike forReader (c.onData o) (d.onData o) := by
  obtain ⟨space, rfl⟩ := forReader_cases h
  exact ⟨rfl, rfl⟩

theorem tryRead_alike (h : c.forReader = d.forReader) (limit : Nat) :
    Alike forReader (c.tryRead limit) (d.tryRead limit) := by
  obtain ⟨space, rfl⟩ := forReader_cases h
  simp only [tryRead]
  split
  · exact ⟨rfl, rfl⟩
  · exact ⟨rfl, rfl⟩

theorem closeReader_alike (h : c.forReader = d.forReader) :
    Alike forReader c.closeReader d.closeReader := by
  obtain ⟨space, rfl⟩ := forReader_cases h
  simp only [closeReader]
  split
  · exact ⟨rfl, rfl⟩
  · exact ⟨rfl, rfl⟩

theorem withdrawReader_alike (h : c.forReader = d.forReader) (key : WaitKey) :
    Alike forReader (c.withdrawReader key) (d.withdrawReader key) := by
  have hdata : c.dataReady = d.dataReady := Channel.dataReady_seen h
  rw [withdrawReader, withdrawReader, ← hdata]
  exact (onData_alike h _).map _

end Channel

section Reading

variable {c d : Channel}

theorem readPass_alike (w : Waker) (limit : Nat) (s t : Keyed)
    (h : beside Channel.forReader s = beside Channel.forReader t) :
    Alike (beside Channel.forReader) (readPass w limit s) (readPass w limit t) := by
  obtain ⟨hchannel, hkey⟩ := beside_cases h
  rw [readPass, readPass, ← hkey]
  refine (Channel.tryRead_alike hchannel limit).andThen ?_
  intro bytes c d h
  have hclosed : c.writerClosed = d.writerClosed := Channel.writerClosed_seen h
  have hdata : c.dataReady = d.dataReady := Channel.dataReady_seen h
  rw [← hclosed, ← hdata]
  split
  · exact ((Channel.withdrawReader_alike h s.2).lift fun _ _ h => beside_eq h WaitKey.fresh).map _
  · refine (Channel.onData_alike h _).andThen ?_
    intro r c d h
    split
    · exact ⟨rfl, beside_eq h r.2⟩
    · exact ⟨rfl, beside_eq h r.2⟩

theorem pollRead_alike (w : Waker) (limit : Nat) {s t : Keyed}
    (h : beside Channel.forReader s = beside Channel.forReader t) :
    Alike (beside Channel.forReader) (pollRead w limit s) (pollRead w limit t) := by
  have hdata : s.1.dataReady = t.1.dataReady := Channel.dataReady_seen (beside_cases h).1
  rw [pollRead, pollRead, ← hdata]
  split
  · exact ⟨rfl, h⟩
  · exact (Alike.loop (readPass_alike w limit) _ s t h).map _

theorem blockingReadPass_alike (limit : Nat) (c d : Channel) (h : c.forReader = d.forReader) :
    Alike Channel.forReader (blockingReadPass limit c) (blockingReadPass limit d) := by
  rw [blockingReadPass, blockingReadPass]
  refine (Channel.tryRead_alike h limit).andThen ?_
  intro bytes c d h
  have hclosed : c.writerClosed = d.writerClosed := Channel.writerClosed_seen h
  rw [← hclosed]
  split
  · exact ⟨rfl, h⟩
  · have hstall : Alike Channel.forReader (c.stall .reader) (d.stall .reader) := ⟨rfl, h⟩
    refine hstall.andThen ?_
    intro _ c d h
    have hdata : c.dataReady = d.dataReady := Channel.dataReady_seen h
    rw [← hdata]
    exact (Channel.onData_alike h _).map _

theorem blockingRead_alike (limit : Nat) (h : c.forReader = d.forReader) :
    Alike Channel.forReader (blockingRead limit c) (blockingRead limit d) := by
  have hdata : c.dataReady = d.dataReady := Channel.dataReady_seen h
  rw [blockingRead, blockingRead, ← hdata]
  split
  · exact ⟨rfl, h⟩
  · exact (Alike.loop (blockingReadPass_alike limit) _ c d h).map _

theorem resumeRead_alike (limit : Nat) (h : c.forReader = d.forReader) :
    Alike Channel.forReader (resumeRead limit c) (resumeRead limit d) := by
  have hdata : c.dataReady = d.dataReady := Channel.dataReady_seen h
  rw [resumeRead, resumeRead, ← hdata]
  refine (Channel.onData_alike h _).andThen ?_
  intro t c d h
  split
  · exact blockingRead_alike limit h
  · exact ⟨rfl, h⟩

theorem timedReadPass_alike (limit : Nat) (c d : Channel) (h : c.forReader = d.forReader) :
    Alike Channel.forReader (timedReadPass limit c) (timedReadPass limit d) := by
  rw [timedReadPass, timedReadPass]
  refine (Channel.tryRead_alike h limit).andThen ?_
  intro bytes c d h
  have hclosed : c.writerClosed = d.writerClosed := Channel.writerClosed_seen h
  rw [← hclosed]
  split
  · exact ⟨rfl, h⟩
  · have hstall : Alike Channel.forReader (c.stall .reader) (d.stall .reader) := ⟨rfl, h⟩
    refine hstall.andThen ?_
    intro _ c d h
    have hdata : c.dataReady = d.dataReady := Channel.dataReady_seen h
    rw [← hdata]
    exact (Channel.onData_alike h _).map _

theorem timedRead_alike (limit : Nat) (h : c.forReader = d.forReader) :
    Alike Channel.forReader (timedRead limit c) (timedRead limit d) := by
  have hdata : c.dataReady = d.dataReady := Channel.dataReady_seen h
  rw [timedRead, timedRead, ← hdata]
  split
  · exact ⟨rfl, h⟩
  · exact (Alike.loop (timedReadPass_alike limit) _ c d h).map _

theorem timeUpRead_alike (limit : Nat) (h : c.forReader = d.forReader) :
    Alike Channel.forReader (timeUpRead limit c) (timeUpRead limit d) := by
  have hdata : c.dataReady = d.dataReady := Channel.dataReady_seen h
  rw [timeUpRead, timeUpRead, ← hdata]
  refine (Channel.onData_alike h _).andThen ?_
  intro released c d h
  split
  · exact timedRead_alike limit h
  · refine (Channel.tryRead_alike h limit).andThen ?_
    intro bytes c d h
    have hclosed : c.writerClosed = d.writerClosed := Channel.writerClosed_seen h
    rw [← hclosed]
    split
    · exact ⟨rfl, h⟩
    · exact ⟨rfl, h⟩

end Reading

namespace Session

variable {s t : Session}

/-- What the reader's end sees of a ring: the channel, and itself. -/
def forReader (s : Session) : Session := ⟨s.channel.forReader, .gone, s.reader⟩

theorem forReader_cases (h : s.forReader = t.forReader) :
    s.channel.forReader = t.channel.forReader ∧ s.reader = t.reader :=
  ⟨(Session.mk.inj h).1, (Session.mk.inj h).2.2⟩

theorem forReader_eq {c d : Channel} (h : c.forReader = d.forReader) (e : ReaderEnd)
    (x y : WriterEnd) : forReader ⟨c, x, e⟩ = forReader ⟨d, y, e⟩ := by
  rw [forReader, forReader, h]

theorem refuse_reader_alike (h : s.forReader = t.forReader) (m : Misuse) :
    Alike forReader (s.refuse m) (t.refuse m) := ⟨rfl, h⟩

theorem blockReading_alike (limit : Nat) {o o' : Outcome (Blocking (List UInt8)) Channel}
    (ho : Alike Channel.forReader o o') :
    Alike forReader (s.blockReading limit o) (t.blockReading limit o') := by
  refine ho.andThen ?_
  intro r c d h
  cases r with
  | returned bytes => exact ⟨rfl, forReader_eq h _ _ _⟩
  | asleep => exact ⟨rfl, forReader_eq h _ _ _⟩

theorem endTimedReading_alike {o o' : Outcome (Except ReadTimeout (List UInt8)) Channel}
    (ho : Alike Channel.forReader o o') :
    Alike forReader (s.endTimedReading o) (t.endTimedReading o') := by
  refine ho.andThen ?_
  intro r c d h
  exact ⟨rfl, forReader_eq h _ _ _⟩

/-- Giving up the registration, whatever the end is then. -/
theorem withdrawReader_alike (h : s.channel.forReader = t.channel.forReader) (key : WaitKey)
    (e : ReaderEnd) :
    Alike forReader
      ((s.channel.withdrawReader key).andThen fun _ c =>
        .pure Reply.nothing { s with channel := c, reader := e })
      ((t.channel.withdrawReader key).andThen fun _ c =>
        .pure Reply.nothing { t with channel := c, reader := e }) := by
  refine (Channel.withdrawReader_alike h key).andThen ?_
  intro _ c d h
  exact ⟨rfl, forReader_eq h _ _ _⟩

theorem pollReading_alike (h : s.channel.forReader = t.channel.forReader) (w : Waker)
    (key : WaitKey) (limit : Nat) :
    Alike forReader (s.pollReading w key limit) (t.pollReading w key limit) := by
  refine (pollRead_alike w limit (beside_eq h key)).andThen ?_
  intro r x y h
  obtain ⟨c, k⟩ := x
  obtain ⟨d, k'⟩ := y
  obtain ⟨hchannel, hkey⟩ := beside_cases h
  obtain rfl : k = k' := hkey
  cases r with
  | ready bytes => exact (withdrawReader_alike hchannel k _).map _
  | pending => exact ⟨rfl, forReader_eq hchannel _ _ _⟩

theorem dropReader_alike (h : s.channel.forReader = t.channel.forReader) (key : WaitKey) :
    Alike forReader (s.dropReader key) (t.dropReader key) := by
  refine (Channel.withdrawReader_alike h key).andThen ?_
  intro _ c d h
  refine (Channel.closeReader_alike h).andThen ?_
  intro _ c d h
  exact ⟨rfl, forReader_eq h _ _ _⟩

theorem tryRead_alike (h : s.channel.forReader = t.channel.forReader)
    (hreader : s.reader = t.reader) (limit : Nat) :
    Alike forReader
      ((s.channel.tryRead limit).andThen fun bytes c => .pure (Reply.got bytes) { s with channel := c })
      ((t.channel.tryRead limit).andThen fun bytes c =>
        .pure (Reply.got bytes) { t with channel := c }) := by
  refine (Channel.tryRead_alike h limit).andThen ?_
  intro bytes c d h
  rw [hreader]
  exact ⟨rfl, forReader_eq h _ _ _⟩

theorem blockingReader_alike (h : s.forReader = t.forReader) (r : ReaderRequest) :
    Alike forReader (s.blockingReader r) (t.blockingReader r) := by
  obtain ⟨hchannel, hreader⟩ := forReader_cases h
  obtain ⟨space, hsame⟩ := Channel.forReader_cases hchannel
  cases r with
  | tryRead limit => exact tryRead_alike hchannel hreader limit
  | read limit w unpolled => exact blockReading_alike limit (blockingRead_alike limit hchannel)
  | readOnce limit => exact blockReading_alike limit (blockingRead_alike limit hchannel)
  | timedRead limit => exact endTimedReading_alike (timedRead_alike limit hchannel)
  | readToEnd =>
    have hclosed : s.channel.writerClosed = t.channel.writerClosed :=
      Channel.writerClosed_seen hchannel
    have hstore : s.channel.store = t.channel.store := Channel.store_seen hchannel
    rw [blockingReader, blockingReader, ← hclosed, ← hstore]
    split
    · exact tryRead_alike hchannel hreader _
    · exact refuse_reader_alike h .race
  | toPolled => exact ⟨rfl, forReader_eq hchannel _ _ _⟩
  | info =>
    rw [blockingReader, blockingReader, hsame]
    exact ⟨rfl, h⟩
  | debug =>
    rw [blockingReader, blockingReader, hsame]
    exact ⟨rfl, h⟩
  | drop => exact dropReader_alike hchannel .fresh
  | _ => exact refuse_reader_alike h .mode

theorem polledReader_alike (h : s.forReader = t.forReader) (key : WaitKey) (r : ReaderRequest) :
    Alike forReader (s.polledReader key r) (t.polledReader key r) := by
  obtain ⟨hchannel, hreader⟩ := forReader_cases h
  obtain ⟨space, hsame⟩ := Channel.forReader_cases hchannel
  cases r with
  | tryRead limit => exact tryRead_alike hchannel hreader limit
  | read limit w unpolled =>
    rw [polledReader, polledReader]
    split
    · exact ⟨rfl, forReader_eq hchannel _ _ _⟩
    · exact pollReading_alike hchannel w key limit
  | pollRead limit w =>
    rw [polledReader, polledReader]
    refine (pollRead_alike w limit (beside_eq hchannel key)).andThen ?_
    intro r x y h
    obtain ⟨c, k⟩ := x
    obtain ⟨d, k'⟩ := y
    obtain ⟨hchannel, hkey⟩ := beside_cases h
    obtain rfl : k = k' := hkey
    exact ⟨rfl, forReader_eq hchannel _ _ _⟩
  | toBlocking => exact withdrawReader_alike hchannel key _
  | info =>
    rw [polledReader, polledReader, hsame]
    exact ⟨rfl, h⟩
  | debug =>
    rw [polledReader, polledReader, hsame]
    exact ⟨rfl, h⟩
  | drop => exact dropReader_alike hchannel key
  | _ => exact refuse_reader_alike h .mode

/-- **A request to the reader's end is answered by what that end sees**, and leaves what it sees. -/
theorem readerRequest_alike (h : s.forReader = t.forReader) (r : ReaderRequest) :
    Alike forReader (s.readerRequest r) (t.readerRequest r) := by
  obtain ⟨hchannel, hreader⟩ := forReader_cases h
  rw [readerRequest, readerRequest, ← hreader]
  cases s.reader with
  | blocking => exact blockingReader_alike h r
  | polled key => exact polledReader_alike h key r
  | reading key limit =>
    cases r with
    | poll w => exact pollReading_alike hchannel w key limit
    | cancel => exact withdrawReader_alike hchannel key _
    | drop => exact dropReader_alike hchannel key
    | _ => exact refuse_reader_alike h .busy
  | asleep limit =>
    cases r with
    | timeUp => exact endTimedReading_alike (timeUpRead_alike limit hchannel)
    | _ => exact refuse_reader_alike h .busy
  | gone => exact refuse_reader_alike h .gone

/-- Nor does a read that goes on depend on what its end does not see. -/
theorem settleReader_alike (h : s.forReader = t.forReader) :
    Alike forReader s.settleReader t.settleReader := by
  obtain ⟨hchannel, hreader⟩ := forReader_cases h
  have hdata : s.channel.dataReady = t.channel.dataReady := Channel.dataReady_seen hchannel
  rw [settleReader, settleReader, ← hreader, ← hdata]
  cases s.reader with
  | asleep limit =>
    simp only
    split
    · exact ⟨rfl, h⟩
    · exact (blockReading_alike limit (resumeRead_alike limit hchannel)).map _
  | _ => exact ⟨rfl, h⟩

end Session

/-! ### The writer's end -/

namespace Channel

/-- The channel without the signal that the reader waits in. -/
def forWriter (c : Channel) : Channel := { c with dataReady := Slim.new .quiet }

variable {α : Type} {c d : Channel}

theorem forWriter_cases (h : c.forWriter = d.forWriter) :
    ∃ data, d = { c with dataReady := data } := by
  refine ⟨d.dataReady, ?_⟩
  obtain ⟨store, data, space, closed, closed', observer⟩ := c
  obtain ⟨store', data', space', closed'', closed''', observer'⟩ := d
  simp only [forWriter, mk.injEq, true_and] at h ⊢
  obtain ⟨rfl, rfl, rfl, rfl, rfl⟩ := h
  exact ⟨rfl, rfl, rfl, rfl, rfl⟩

theorem spaceReady_seen (h : c.forWriter = d.forWriter) : c.spaceReady = d.spaceReady := by
  obtain ⟨data, rfl⟩ := forWriter_cases h
  rfl

theorem readerClosed_seen (h : c.forWriter = d.forWriter) : c.readerClosed = d.readerClosed := by
  obtain ⟨data, rfl⟩ := forWriter_cases h
  rfl

/-- A writer also looks at its own flag. -/
theorem own_flag_seen (h : c.forWriter = d.forWriter) : c.writerClosed = d.writerClosed := by
  obtain ⟨data, rfl⟩ := forWriter_cases h
  rfl

theorem onSpace_alike (h : c.forWriter = d.forWriter) (o : Outcome α Slim) :
    Alike forWriter (c.onSpace o) (d.onSpace o) := by
  obtain ⟨data, rfl⟩ := forWriter_cases h
  exact ⟨rfl, rfl⟩

theorem tryWrite_alike (h : c.forWriter = d.forWriter) (src : List UInt8) :
    Alike forWriter (c.tryWrite src) (d.tryWrite src) := by
  obtain ⟨data, rfl⟩ := forWriter_cases h
  simp only [tryWrite]
  split
  · exact ⟨rfl, rfl⟩
  · exact ⟨rfl, rfl⟩

theorem offer_alike (h : c.forWriter = d.forWriter) (src : List UInt8) :
    Alike forWriter (c.offer src) (d.offer src) := by
  rw [offer, offer, ← readerClosed_seen h]
  split
  · exact ⟨rfl, h⟩
  · exact (tryWrite_alike h src).map _

theorem closeWriter_alike (h : c.forWriter = d.forWriter) :
    Alike forWriter c.closeWriter d.closeWriter := by
  obtain ⟨data, rfl⟩ := forWriter_cases h
  simp only [closeWriter]
  split
  · exact ⟨rfl, rfl⟩
  · exact ⟨rfl, rfl⟩

theorem withdrawWriter_alike (h : c.forWriter = d.forWriter) (key : WaitKey) :
    Alike forWriter (c.withdrawWriter key) (d.withdrawWriter key) := by
  rw [withdrawWriter, withdrawWriter, ← spaceReady_seen h]
  exact (onSpace_alike h _).map _

end Channel

theorem writePass_alike (w : Waker) (src : List UInt8) (s t : Keyed)
    (h : beside Channel.forWriter s = beside Channel.forWriter t) :
    Alike (beside Channel.forWriter) (writePass w src s) (writePass w src t) := by
  obtain ⟨hchannel, hkey⟩ := beside_cases h
  rw [writePass, writePass, ← hkey, ← Channel.readerClosed_seen hchannel]
  split
  · exact ((Channel.withdrawWriter_alike hchannel s.2).lift
      fun _ _ h => beside_eq h WaitKey.fresh).map _
  · refine (Channel.tryWrite_alike hchannel src).andThen ?_
    intro n c d h
    split
    · exact ((Channel.withdrawWriter_alike h s.2).lift fun _ _ h => beside_eq h WaitKey.fresh).map _
    · rw [← Channel.spaceReady_seen h]
      refine (Channel.onSpace_alike h _).andThen ?_
      intro r c d h
      split
      · exact ⟨rfl, beside_eq h r.2⟩
      · exact ⟨rfl, beside_eq h r.2⟩

theorem pollWrite_alike (w : Waker) (src : List UInt8) {s t : Keyed}
    (h : beside Channel.forWriter s = beside Channel.forWriter t) :
    Alike (beside Channel.forWriter) (pollWrite w src s) (pollWrite w src t) := by
  have hchannel := (beside_cases h).1
  rw [pollWrite, pollWrite, ← Channel.own_flag_seen hchannel, ← Channel.spaceReady_seen hchannel]
  split
  · exact ⟨rfl, h⟩
  · split
    · exact ⟨rfl, h⟩
    · exact (Alike.loop (writePass_alike w src) _ s t h).map _

theorem writeAllPass_alike (w : Waker) (data : List UInt8) (s t : Writing)
    (h : Prod.map (beside Channel.forWriter) id s = Prod.map (beside Channel.forWriter) id t) :
    Alike (Prod.map (beside Channel.forWriter) id) (writeAllPass w data s)
      (writeAllPass w data t) := by
  obtain ⟨x, i⟩ := s
  obtain ⟨y, j⟩ := t
  obtain ⟨hkeyed, hwritten⟩ := Prod.mk.inj h
  obtain rfl : i = j := hwritten
  rw [writeAllPass, writeAllPass]
  split
  · exact ⟨rfl, h⟩
  · refine (pollWrite_alike w (data.drop i) hkeyed).andThen ?_
    intro r x y h
    cases r with
    | pending => exact ⟨rfl, Prod.ext h rfl⟩
    | ready r =>
      cases r with
      | ok n => exact ⟨rfl, Prod.ext h rfl⟩
      | error e => exact ⟨rfl, Prod.ext h rfl⟩

theorem pollWriteAll_alike (w : Waker) (data : List UInt8) {x y : Keyed}
    (h : beside Channel.forWriter x = beside Channel.forWriter y) (i : Nat) :
    Alike (Prod.map (beside Channel.forWriter) id) (pollWriteAll w data (x, i))
      (pollWriteAll w data (y, i)) :=
  (Alike.loop (writeAllPass_alike w data) _ (x, i) (y, i) (Prod.ext h rfl)).map _

theorem blockingWritePass_alike (mode : WriteMode) (data : List UInt8) (s t : Committing)
    (h : beside Channel.forWriter s = beside Channel.forWriter t) :
    Alike (beside Channel.forWriter) (blockingWritePass mode data s)
      (blockingWritePass mode data t) := by
  obtain ⟨hchannel, hwritten⟩ := beside_cases h
  rw [blockingWritePass, blockingWritePass, ← hwritten, ← Channel.readerClosed_seen hchannel]
  split
  · exact ⟨rfl, h⟩
  · split
    · exact ⟨rfl, h⟩
    · refine (Channel.tryWrite_alike hchannel (data.drop s.2)).andThen ?_
      intro n c d h
      split
      · exact ⟨rfl, beside_eq h _⟩
      · have hstall : Alike Channel.forWriter (c.stall .writer) (d.stall .writer) := ⟨rfl, h⟩
        refine hstall.andThen ?_
        intro _ c d h
        rw [← Channel.spaceReady_seen h]
        exact ((Channel.onSpace_alike h _).lift fun _ _ h => beside_eq h s.2).map _

theorem blockingWrite_alike (mode : WriteMode) (data : List UInt8) {c d : Channel}
    (h : c.forWriter = d.forWriter) (i : Nat) :
    Alike (beside Channel.forWriter) (blockingWrite mode data (c, i))
      (blockingWrite mode data (d, i)) := by
  rw [blockingWrite, blockingWrite, ← Channel.spaceReady_seen h]
  exact (Alike.loop (blockingWritePass_alike mode data) _ _ _ (beside_eq h i)).map _

theorem resumeWrite_alike (mode : WriteMode) (data : List UInt8) {c d : Channel}
    (h : c.forWriter = d.forWriter) (i : Nat) :
    Alike (beside Channel.forWriter) (resumeWrite mode data (c, i))
      (resumeWrite mode data (d, i)) := by
  rw [resumeWrite, resumeWrite, ← Channel.spaceReady_seen h]
  refine (Channel.onSpace_alike h _).andThen ?_
  intro t c d h
  split
  · exact blockingWrite_alike mode data h i
  · exact ⟨rfl, beside_eq h i⟩

namespace Session

variable {s t : Session}

/-- What the writer's end sees of a ring: the channel, and itself. -/
def forWriter (s : Session) : Session := ⟨s.channel.forWriter, s.writer, .gone⟩

theorem forWriter_cases (h : s.forWriter = t.forWriter) :
    s.channel.forWriter = t.channel.forWriter ∧ s.writer = t.writer :=
  ⟨(Session.mk.inj h).1, (Session.mk.inj h).2.1⟩

theorem forWriter_eq {c d : Channel} (h : c.forWriter = d.forWriter) (e : WriterEnd)
    (x y : ReaderEnd) : forWriter ⟨c, e, x⟩ = forWriter ⟨d, e, y⟩ := by
  rw [forWriter, forWriter, h]

theorem refuse_writer_alike (h : s.forWriter = t.forWriter) (m : Misuse) :
    Alike forWriter (s.refuse m) (t.refuse m) := ⟨rfl, h⟩

theorem blockWriting_alike (mode : WriteMode) (data : List UInt8)
    {o o' : Outcome (Blocking (Except RingClosed Nat)) Committing}
    (ho : Alike (beside Channel.forWriter) o o') :
    Alike forWriter (s.blockWriting mode data o) (t.blockWriting mode data o') := by
  refine ho.andThen ?_
  intro r x y h
  obtain ⟨c, i⟩ := x
  obtain ⟨d, j⟩ := y
  obtain ⟨hchannel, hwritten⟩ := beside_cases h
  obtain rfl : i = j := hwritten
  cases r with
  | returned r => exact ⟨rfl, forWriter_eq hchannel _ _ _⟩
  | asleep => exact ⟨rfl, forWriter_eq hchannel _ _ _⟩

/-- Giving up the registration, whatever the end is then. -/
theorem withdrawWriter_alike (h : s.channel.forWriter = t.channel.forWriter) (key : WaitKey)
    (e : WriterEnd) :
    Alike forWriter
      ((s.channel.withdrawWriter key).andThen fun _ c =>
        .pure Reply.nothing { s with channel := c, writer := e })
      ((t.channel.withdrawWriter key).andThen fun _ c =>
        .pure Reply.nothing { t with channel := c, writer := e }) := by
  refine (Channel.withdrawWriter_alike h key).andThen ?_
  intro _ c d h
  exact ⟨rfl, forWriter_eq h _ _ _⟩

theorem pollWriting_alike (h : s.channel.forWriter = t.channel.forWriter) (w : Waker)
    (key : WaitKey) (data : List UInt8) (written : Nat) :
    Alike forWriter (s.pollWriting w key data written) (t.pollWriting w key data written) := by
  refine (pollWriteAll_alike w data (beside_eq h key) written).andThen ?_
  intro r x y h
  obtain ⟨⟨c, k⟩, i⟩ := x
  obtain ⟨⟨d, k'⟩, j⟩ := y
  obtain ⟨hkeyed, hwritten⟩ := Prod.mk.inj h
  obtain ⟨hchannel, hkey⟩ := beside_cases hkeyed
  obtain rfl : i = j := hwritten
  obtain rfl : k = k' := hkey
  cases r with
  | pending => exact ⟨rfl, forWriter_eq hchannel _ _ _⟩
  | ready r =>
    cases r with
    | ok _ => exact (withdrawWriter_alike hchannel k _).map _
    | error e => exact (withdrawWriter_alike hchannel k _).map _

theorem dropWriter_alike (h : s.channel.forWriter = t.channel.forWriter) (key : WaitKey) :
    Alike forWriter (s.dropWriter key) (t.dropWriter key) := by
  refine (Channel.withdrawWriter_alike h key).andThen ?_
  intro _ c d h
  refine (Channel.closeWriter_alike h).andThen ?_
  intro _ c d h
  exact ⟨rfl, forWriter_eq h _ _ _⟩

theorem offer_alike (h : s.channel.forWriter = t.channel.forWriter)
    (hwriter : s.writer = t.writer) (data : List UInt8) :
    Alike forWriter
      ((s.channel.offer data).andThen fun r c => .pure (offerReply r) { s with channel := c })
      ((t.channel.offer data).andThen fun r c =>
        .pure (offerReply r) { t with channel := c }) := by
  refine (Channel.offer_alike h data).andThen ?_
  intro r c d h
  rw [hwriter]
  exact ⟨rfl, forWriter_eq h _ _ _⟩

theorem blockingWriter_alike (h : s.forWriter = t.forWriter) (r : WriterRequest) :
    Alike forWriter (s.blockingWriter r) (t.blockingWriter r) := by
  obtain ⟨hchannel, hwriter⟩ := forWriter_cases h
  obtain ⟨ready, hsame⟩ := Channel.forWriter_cases hchannel
  cases r with
  | tryWrite data => exact offer_alike hchannel hwriter data
  | write data w unpolled => exact blockWriting_alike _ data (blockingWrite_alike _ data hchannel 0)
  | writeOnce data => exact blockWriting_alike _ data (blockingWrite_alike _ data hchannel 0)
  | writePieces data => exact blockWriting_alike _ data (blockingWrite_alike _ data hchannel 0)
  | flush => exact ⟨rfl, h⟩
  | toPolled => exact ⟨rfl, forWriter_eq hchannel _ _ _⟩
  | info =>
    rw [blockingWriter, blockingWriter, hsame]
    exact ⟨rfl, h⟩
  | debug =>
    rw [blockingWriter, blockingWriter, hsame]
    exact ⟨rfl, h⟩
  | drop => exact dropWriter_alike hchannel .fresh
  | _ => exact refuse_writer_alike h .mode

theorem polledWriter_alike (h : s.forWriter = t.forWriter) (key : WaitKey) (r : WriterRequest) :
    Alike forWriter (s.polledWriter key r) (t.polledWriter key r) := by
  obtain ⟨hchannel, hwriter⟩ := forWriter_cases h
  obtain ⟨ready, hsame⟩ := Channel.forWriter_cases hchannel
  cases r with
  | tryWrite data =>
    rw [polledWriter, polledWriter, ← Channel.own_flag_seen hchannel]
    split
    · exact ⟨rfl, h⟩
    · exact offer_alike hchannel hwriter data
  | write data w unpolled =>
    rw [polledWriter, polledWriter]
    split
    · exact ⟨rfl, forWriter_eq hchannel _ _ _⟩
    · exact pollWriting_alike hchannel w key data 0
  | pollWrite data w =>
    rw [polledWriter, polledWriter]
    refine (pollWrite_alike w data (beside_eq hchannel key)).andThen ?_
    intro r x y h
    obtain ⟨c, k⟩ := x
    obtain ⟨d, k'⟩ := y
    obtain ⟨hchannel, hkey⟩ := beside_cases h
    obtain rfl : k = k' := hkey
    exact ⟨rfl, forWriter_eq hchannel _ _ _⟩
  | flush => exact ⟨rfl, h⟩
  | close =>
    rw [polledWriter, polledWriter]
    refine (Channel.closeWriter_alike hchannel).andThen ?_
    intro _ c d h
    rw [hwriter]
    exact ⟨rfl, forWriter_eq h _ _ _⟩
  | toBlocking => exact withdrawWriter_alike hchannel key _
  | info =>
    rw [polledWriter, polledWriter, hsame]
    exact ⟨rfl, h⟩
  | debug =>
    rw [polledWriter, polledWriter, hsame]
    exact ⟨rfl, h⟩
  | drop => exact dropWriter_alike hchannel key
  | _ => exact refuse_writer_alike h .mode

/-- **A request to the writer's end is answered by what that end sees**, and leaves what it sees. -/
theorem writerRequest_alike (h : s.forWriter = t.forWriter) (r : WriterRequest) :
    Alike forWriter (s.writerRequest r) (t.writerRequest r) := by
  obtain ⟨hchannel, hwriter⟩ := forWriter_cases h
  rw [writerRequest, writerRequest, ← hwriter]
  cases s.writer with
  | blocking => exact blockingWriter_alike h r
  | polled key => exact polledWriter_alike h key r
  | writing key data written =>
    cases r with
    | poll w => exact pollWriting_alike hchannel w key data written
    | cancel => exact withdrawWriter_alike hchannel key _
    | progress => exact ⟨rfl, h⟩
    | drop => exact dropWriter_alike hchannel key
    | _ => exact refuse_writer_alike h .busy
  | asleep mode data written => exact refuse_writer_alike h .busy
  | gone => exact refuse_writer_alike h .gone

/-- Nor does a write that goes on depend on what its end does not see. -/
theorem settleWriter_alike (h : s.forWriter = t.forWriter) :
    Alike forWriter s.settleWriter t.settleWriter := by
  obtain ⟨hchannel, hwriter⟩ := forWriter_cases h
  rw [settleWriter, settleWriter, ← hwriter, ← Channel.spaceReady_seen hchannel]
  cases s.writer with
  | asleep mode data written =>
    simp only
    split
    · exact ⟨rfl, h⟩
    · exact (blockWriting_alike mode data (resumeWrite_alike mode data hchannel written)).map _
  | _ => exact ⟨rfl, h⟩

end Session

end Ring

end Conduit

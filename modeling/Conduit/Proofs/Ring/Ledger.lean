/-
  Conduit/Proofs/Ring/Ledger.lean
  ===============================
  **The byte stream of a ring is exact.**

  A ledger lists the writes of a run in order, each with its buffer and with how many
  bytes of it are committed: what the write reported when it ended, or what it has
  committed so far if it is still under way.  The bytes that reads handed out, followed by
  the bytes that are unread, are the committed prefixes of the ledger one after another.

  The invariant is that of a store with a history, `Carries`, where the history includes
  the committed part of the write under way.  A request and the calls that go on after it
  extend the history and settle the write under way, whatever the request is.
-/
import Conduit.Proofs.Ring.Stream
import Conduit.Ring.Session

namespace Conduit.Ring

open Signal (WaitKey)

/-! ### Ledgers -/

/-- A write: its buffer, and how many bytes of it are committed. -/
structure Commit where
  data : List UInt8
  written : Nat
deriving DecidableEq, Repr

namespace Commit

/-- The committed bytes. -/
def bytes (w : Commit) : List UInt8 := w.data.take w.written

/-- The number of committed bytes is not more than there are. -/
def Exact (w : Commit) : Prop := w.bytes.length = w.written

/-- The write once it has ended with a reply.  A broken pipe tells of the piece that failed, which
    comes after the pieces that are written; a write that is given up has committed what it had
    before. -/
def ended (w : Commit) : Reply → List Commit
  | .done => [⟨w.data, w.data.length⟩]
  | .count n => [⟨w.data, n⟩]
  | .closed e => [⟨w.data, e.written⟩]
  | .brokenPipe e => [⟨w.data, w.written + e.written⟩]
  | .nothing => [w]
  | _ => []

theorem exact_iff (w : Commit) : w.Exact ↔ w.written ≤ w.data.length := by
  rw [Exact, bytes, List.length_take]
  omega

end Commit

/-- All committed bytes in order. -/
def committedBytes (ws : List Commit) : List UInt8 := ws.flatMap Commit.bytes

/-- The write that a writer's end has under way. -/
def WriterEnd.underWay : WriterEnd → List Commit
  | .writing _ data written | .asleep _ data written => [⟨data, written⟩]
  | _ => []

/-- The bytes that a reply hands to a reader. -/
def Reply.handed : Reply → List UInt8
  | .got bytes => bytes
  | _ => []

namespace Session

/-- The write that a request is about: one that it starts, or the one under way. -/
def subject (s : Session) : Request → List Commit
  | .writer (.tryWrite data) | .writer (.write data _ _) | .writer (.writeOnce data)
  | .writer (.writePieces data) | .writer (.pollWrite data _) => [⟨data, 0⟩]
  | .writer (.poll _) | .writer .cancel | .writer .drop => s.writer.underWay
  | _ => []

/-- The writes that a reply ends. -/
def ended (s : Session) (r : Request) (reply : Reply) : List Commit :=
  (s.subject r).flatMap fun w => w.ended reply

/-- The writes that end because a call returned. -/
def settled (s : Session) (returned : Returned) : List Commit :=
  returned.flatMap fun
    | (.writer, reply) => s.writer.underWay.flatMap fun w => w.ended reply
    | (.reader, _) => []

/-- The bytes that returning calls hand to a reader. -/
def handed (returned : Returned) : List UInt8 := returned.flatMap fun x => x.2.handed

/-- The ledger of a run: the writes that ended in it, and the one still under way after it. -/
def ledger (s : Session) : List Request → List Commit
  | [] => s.writer.underWay
  | r :: rs =>
    s.ended r (s.advance r).answer.1 ++ (s.request r).state.settled (s.advance r).answer.2
      ++ ledger (s.advance r).state rs

/-- The bytes that reads handed out in a run. -/
def received (s : Session) : List Request → List UInt8
  | [] => []
  | r :: rs =>
    (s.advance r).answer.1.handed ++ handed (s.advance r).answer.2
      ++ received (s.advance r).state rs

/-! ### Parts of a run -/

/-- A part of a run in which the writes `closed` end and reads take `took` out. -/
structure Goes (closed : List Commit) (took : List UInt8) (s s' : Session) : Prop where
  exact : (∀ w ∈ s.writer.underWay, w.Exact) → ∀ w ∈ closed ++ s'.writer.underWay, w.Exact
  stream : ∃ put,
    committedBytes s.writer.underWay ++ put = committedBytes (closed ++ s'.writer.underWay) ∧
      Transfers put took s.channel.store s'.channel.store

namespace Goes

variable {s s' s'' : Session} {closed closed' : List Commit} {took took' : List UInt8}

theorem trans (h : Goes closed took s s') (h' : Goes closed' took' s' s'') :
    Goes (closed ++ closed') (took ++ took') s s'' := by
  constructor
  · intro hs w hw
    rw [List.append_assoc, List.mem_append] at hw
    have hexact := h.exact hs
    rcases hw with hw | hw
    · exact hexact w (List.mem_append_left _ hw)
    · exact h'.exact (fun v hv => hexact v (List.mem_append_right _ hv)) w hw
  · obtain ⟨put, hput, hmoved⟩ := h.stream
    obtain ⟨put', hput', hmoved'⟩ := h'.stream
    refine ⟨put ++ put', ?_, hmoved.trans hmoved'⟩
    simp only [committedBytes, List.flatMap_append] at hput hput' ⊢
    rw [← List.append_assoc, hput, List.append_assoc, hput', List.append_assoc]

/-- A part that reads and leaves the writer's end as it is. -/
theorem read (hwriter : s'.writer.underWay = s.writer.underWay)
    (h : Transfers [] took s.channel.store s'.channel.store) : Goes [] took s s' := by
  constructor
  · intro hs
    rw [List.nil_append, hwriter]
    exact hs
  · refine ⟨[], ?_, h⟩
    rw [List.nil_append, List.append_nil, hwriter]

theorem quiet (hwriter : s'.writer.underWay = s.writer.underWay)
    (h : s'.channel.store = s.channel.store) : Goes [] [] s s' := by
  apply read hwriter
  rw [h]
  exact Transfers.refl _

end Goes

/-- The write of `data` is under way with `written` bytes committed, or starts now. -/
def Continues (e : WriterEnd) (data : List UInt8) (written : Nat) : Prop :=
  e.underWay = [⟨data, written⟩] ∨ e.underWay = [] ∧ written = 0

/-- A part that goes on with a write, which then is on the ledger once, ended or not. -/
theorem Goes.write {s s' : Session} {data : List UInt8} {i j n : Nat} {closed : List Commit}
    (hstart : Continues s.writer data i) (h : Writes data i j s.channel.store s'.channel.store)
    (hlisted : closed ++ s'.writer.underWay = [⟨data, n⟩])
    (hn : n = j ∨ n = data.length ∧ data.length ≤ j) : Goes closed [] s s' := by
  have hbefore : committedBytes s.writer.underWay = data.take i := by
    rcases hstart with hlisted | ⟨hnone, hzero⟩
    · rw [hlisted]
      exact List.append_nil _
    · rw [hnone, hzero]
      rfl
  have hafter : Commit.bytes ⟨data, n⟩ = data.take j := by
    rcases hn with rfl | ⟨rfl, hall⟩
    · rfl
    · show data.take data.length = data.take j
      rw [List.take_length, List.take_of_length_le hall]
  constructor
  · intro hs w hw
    rw [hlisted, List.mem_singleton] at hw
    subst hw
    have hi : i ≤ data.length := by
      rcases hstart with hlisted | ⟨_, hzero⟩
      · exact (Commit.exact_iff _).mp (hs ⟨data, i⟩ (hlisted ▸ List.mem_singleton_self _))
      · omega
    have hj := h.within hi
    rw [Commit.exact_iff]
    show n ≤ data.length
    omega
  · refine ⟨(data.drop i).take (j - i), ?_, h.transfers⟩
    rw [hlisted, hbefore, h.take_append, committedBytes, List.flatMap_singleton, hafter]

/-! ### Requests to the writer's end -/

theorem blockWriting_goes {s : Session} {mode : WriteMode} {data : List UInt8} {written : Nat}
    {closed : Bool} {o : Outcome (Blocking (Except RingClosed Nat)) Committing}
    (hstart : Continues s.writer data written)
    (hwrites : Writes data written o.state.2 s.channel.store o.state.1.store)
    (hreports : mode.Reports data written o.state.2 closed (some o.answer)) :
    Goes (Commit.ended ⟨data, written⟩ (s.blockWriting mode data o).answer)
      (s.blockWriting mode data o).answer.handed s (s.blockWriting mode data o).state := by
  obtain ⟨answer, ⟨c, after⟩, effects⟩ := o
  rcases answer with (e | n) | _
  · obtain ⟨_, hafter, he⟩ := hreports
    have hsame : after = written := hafter
    cases mode with
    | whole => exact Goes.write hstart hwrites rfl (Or.inl (he.trans hsame.symm))
    | once =>
      have hnone : e.written = 0 := he
      have hcount : written + e.written = after := by omega
      exact Goes.write hstart hwrites rfl (Or.inl hcount)
    | pieces =>
      have hnone : e.written = 0 := he
      have hcount : written + e.written = after := by omega
      exact Goes.write hstart hwrites rfl (Or.inl hcount)
  · obtain ⟨hn, hover⟩ := hreports
    cases mode with
    | whole =>
      refine Goes.write hstart hwrites rfl (Or.inr ⟨rfl, ?_⟩)
      simpa [WriteMode.isOver] using hover
    | once => exact Goes.write hstart hwrites rfl (Or.inl hn)
    | pieces =>
      refine Goes.write hstart hwrites rfl (Or.inr ⟨rfl, ?_⟩)
      simpa [WriteMode.isOver] using hover
  · exact Goes.write hstart hwrites rfl (Or.inl rfl)

theorem pollWriting_goes {s : Session} {data : List UInt8} {written : Nat}
    (hstart : Continues s.writer data written) (w : Waker) (key : WaitKey) :
    Goes (Commit.ended ⟨data, written⟩ (s.pollWriting w key data written).answer)
      (s.pollWriting w key data written).answer.handed s
      (s.pollWriting w key data written).state := by
  obtain ⟨hwrites, hreports⟩ := pollWriteAll_writes w data ((s.channel, key), written)
  simp only [pollWriting, Outcome.andThen_answer, Outcome.andThen_state]
  rcases hanswer : (pollWriteAll w data ((s.channel, key), written)).answer with (e | _) | _
  · rw [hanswer] at hreports
    exact Goes.write hstart hwrites rfl (Or.inl hreports)
  · rw [hanswer] at hreports
    exact Goes.write hstart hwrites rfl (Or.inr ⟨rfl, hreports⟩)
  · exact Goes.write hstart hwrites rfl (Or.inl rfl)

/-- A partial write by an idle handle, which answers with its count or with the error. -/
theorem piece_goes {s s' : Session} {data : List UInt8} {r : Except RingClosed Nat}
    {reply : Reply} (hidle : s.writer.underWay = []) (hidle' : s'.writer.underWay = [])
    (h : Commits data s.channel.store s'.channel.store r)
    (hok : ∀ n, r = .ok n → reply = .count n)
    (herror : ∀ e, r = .error e → reply = .closed e ∨ reply = .brokenPipe e) :
    Goes (Commit.ended ⟨data, 0⟩ reply) reply.handed s s' := by
  have hstart : Continues s.writer data 0 := Or.inr ⟨hidle, rfl⟩
  have hlisted (n : Nat) : [(⟨data, n⟩ : Commit)] ++ s'.writer.underWay = [⟨data, n⟩] := by
    rw [hidle', List.append_nil]
  rcases r with e | n
  · obtain ⟨hnone, hstore⟩ := h
    have hwrites : Writes data 0 (0 + 0) s.channel.store s'.channel.store :=
      Writes.of_rest (Nat.zero_le _) hstore
    rcases herror e rfl with rfl | rfl
    · exact Goes.write hstart hwrites (hlisted _) (Or.inl hnone)
    · have hcount : 0 + e.written = 0 + 0 := by rw [hnone]
      exact Goes.write hstart hwrites (hlisted _) (Or.inl hcount)
  · obtain ⟨hle, hstore⟩ := h
    rw [hok n rfl]
    exact Goes.write hstart (Writes.of_rest hle hstore) (hlisted n) (Or.inl (Nat.zero_add n).symm)

theorem offer_goes {s : Session} (hidle : s.writer.underWay = []) (data : List UInt8) :
    Goes (Commit.ended ⟨data, 0⟩ (offerReply (s.channel.offer data).answer))
      (offerReply (s.channel.offer data).answer).handed s
      { s with channel := (s.channel.offer data).state } := by
  refine piece_goes hidle hidle (offer_commits data s.channel) ?_ ?_
  · intro n hn
    rw [hn]
    rfl
  · intro e he
    rw [he]
    exact Or.inl rfl

/-- Giving up the write under way, if there is one. -/
theorem Goes.giveUp {s s' : Session} (hidle : s'.writer.underWay = [])
    (h : s'.channel.store = s.channel.store) : Goes s.writer.underWay [] s s' := by
  constructor
  · intro hs
    rw [hidle, List.append_nil]
    exact hs
  · refine ⟨[], ?_, ?_⟩
    · rw [hidle, List.append_nil, List.append_nil]
    · rw [h]
      exact Transfers.refl _

/-- A request that starts a write, or goes on with one, ends that write or none. -/
theorem ended_eq {s : Session} {r : Request} {w : Commit} (h : s.subject r = [w])
    (reply : Reply) : s.ended r reply = w.ended reply := by
  rw [ended, h, List.flatMap_singleton]

theorem refuse_goes (s : Session) (r : Request) (m : Misuse) :
    Goes (s.ended r (s.refuse m).answer) (s.refuse m).answer.handed s (s.refuse m).state := by
  have hnone : s.ended r (s.refuse m).answer = [] := List.flatMap_eq_nil_iff.mpr fun _ _ => rfl
  rw [hnone]
  exact Goes.quiet rfl rfl

theorem dropWriter_goes (s : Session) (key : WaitKey) :
    Goes (s.ended (.writer .drop) (s.dropWriter key).answer) [] s (s.dropWriter key).state := by
  have hgiven : s.ended (.writer .drop) (s.dropWriter key).answer = s.writer.underWay :=
    List.flatMap_singleton' s.writer.underWay
  rw [hgiven]
  exact Goes.giveUp rfl (Channel.closeWriter_store _)

theorem blockingWriter_goes {s : Session} (hidle : s.writer = .blocking) (r : WriterRequest) :
    Goes (s.ended (.writer r) (s.blockingWriter r).answer) (s.blockingWriter r).answer.handed s
      (s.blockingWriter r).state := by
  have hnone : s.writer.underWay = [] := by rw [hidle]; rfl
  have hstart (data : List UInt8) : Continues s.writer data 0 := Or.inr ⟨hnone, rfl⟩
  have hwrite (mode : WriteMode) (data : List UInt8) :=
    blockingWrite_writes mode data (s.channel, 0)
  cases r with
  | tryWrite data =>
    rw [ended_eq rfl]
    exact offer_goes hnone data
  | write data w unpolled =>
    rw [ended_eq rfl]
    exact blockWriting_goes (hstart data) (hwrite .whole data).1 (hwrite .whole data).2
  | writeOnce data =>
    rw [ended_eq rfl]
    exact blockWriting_goes (hstart data) (hwrite .once data).1 (hwrite .once data).2
  | writePieces data =>
    rw [ended_eq rfl]
    exact blockWriting_goes (hstart data) (hwrite .pieces data).1 (hwrite .pieces data).2
  | flush => exact Goes.quiet rfl rfl
  | toPolled => exact Goes.quiet hnone.symm rfl
  | info => exact Goes.quiet rfl rfl
  | debug => exact Goes.quiet rfl rfl
  | drop => exact dropWriter_goes s .fresh
  | poll w => exact refuse_goes s _ .mode
  | cancel => exact refuse_goes s _ .mode
  | progress => exact refuse_goes s _ .mode
  | pollWrite data w => exact refuse_goes s _ .mode
  | close => exact refuse_goes s _ .mode
  | toBlocking => exact refuse_goes s _ .mode

theorem polledWriter_goes {s : Session} {key : WaitKey} (hidle : s.writer = .polled key)
    (r : WriterRequest) :
    Goes (s.ended (.writer r) (s.polledWriter key r).answer) (s.polledWriter key r).answer.handed
      s (s.polledWriter key r).state := by
  have hnone : s.writer.underWay = [] := by rw [hidle]; rfl
  have hstart (data : List UInt8) : Continues s.writer data 0 := Or.inr ⟨hnone, rfl⟩
  cases r with
  | tryWrite data =>
    rw [ended_eq rfl, polledWriter]
    split
    · refine piece_goes (r := .error ⟨0⟩) hnone hnone ⟨rfl, Transfers.refl _⟩ ?_ ?_
      · intro n hn
        cases hn
      · intro e he
        cases he
        exact Or.inl rfl
    · exact offer_goes hnone data
  | write data w unpolled =>
    rw [ended_eq rfl, polledWriter]
    split
    · exact Goes.write (hstart data) (Writes.refl data 0 _) rfl (Or.inl rfl)
    · exact pollWriting_goes (hstart data) w key
  | pollWrite data w =>
    have h := pollWrite_commits w data (s.channel, key)
    rw [ended_eq rfl]
    simp only [polledWriter, Outcome.andThen_answer, Outcome.andThen_state]
    rcases hanswer : (pollWrite w data (s.channel, key)).answer with r | _
    · rw [hanswer] at h
      refine piece_goes hnone rfl h ?_ ?_
      · intro n hn
        rw [hn]
        rfl
      · intro e he
        rw [he]
        exact Or.inr rfl
    · rw [hanswer] at h
      exact Goes.read hnone.symm h
  | flush => exact Goes.quiet rfl rfl
  | close => exact Goes.quiet rfl (Channel.closeWriter_store _)
  | toBlocking => exact Goes.quiet hnone.symm rfl
  | info => exact Goes.quiet rfl rfl
  | debug => exact Goes.quiet rfl rfl
  | drop => exact dropWriter_goes s key
  | poll w => exact refuse_goes s _ .mode
  | cancel => exact refuse_goes s _ .mode
  | progress => exact refuse_goes s _ .mode
  | writeOnce data => exact refuse_goes s _ .mode
  | writePieces data => exact refuse_goes s _ .mode
  | toPolled => exact refuse_goes s _ .mode

theorem busyWriter_goes {s : Session} {key : WaitKey} {data : List UInt8} {written : Nat}
    (hbusy : s.writer = .writing key data written) (r : WriterRequest) :
    Goes (s.ended (.writer r) (s.busyWriter key data written r).answer)
      (s.busyWriter key data written r).answer.handed s
      (s.busyWriter key data written r).state := by
  have hunderWay : s.writer.underWay = [⟨data, written⟩] := by rw [hbusy]; rfl
  cases r with
  | poll w =>
    rw [ended_eq (s := s) (r := .writer (.poll w)) hunderWay]
    exact pollWriting_goes (Or.inl hunderWay) w key
  | cancel =>
    have hgiven : s.ended (.writer .cancel) (s.endWriting key).answer = s.writer.underWay :=
      List.flatMap_singleton' s.writer.underWay
    simp only [busyWriter]
    rw [hgiven]
    exact Goes.giveUp rfl rfl
  | progress => exact Goes.quiet rfl rfl
  | drop => exact dropWriter_goes s key
  | tryWrite data => exact refuse_goes s _ .busy
  | write data w unpolled => exact refuse_goes s _ .busy
  | writeOnce data => exact refuse_goes s _ .busy
  | writePieces data => exact refuse_goes s _ .busy
  | pollWrite data w => exact refuse_goes s _ .busy
  | flush => exact refuse_goes s _ .busy
  | close => exact refuse_goes s _ .busy
  | toPolled => exact refuse_goes s _ .busy
  | toBlocking => exact refuse_goes s _ .busy
  | info => exact refuse_goes s _ .busy
  | debug => exact refuse_goes s _ .busy

theorem writerRequest_goes (s : Session) (r : WriterRequest) :
    Goes (s.ended (.writer r) (s.writerRequest r).answer) (s.writerRequest r).answer.handed s
      (s.writerRequest r).state := by
  rw [writerRequest]
  cases hwriter : s.writer with
  | blocking => exact blockingWriter_goes hwriter r
  | polled key => exact polledWriter_goes hwriter r
  | writing key data written => exact busyWriter_goes hwriter r
  | asleep mode data written => exact refuse_goes s _ .busy
  | gone => exact refuse_goes s _ .gone

/-! ### Requests to the reader's end -/

theorem blockReading_goes {s : Session} (limit : Nat)
    {o : Outcome (Blocking (List UInt8)) Channel}
    (h : Transfers [] (Blocking.handed (some o.answer)) s.channel.store o.state.store) :
    Goes [] (s.blockReading limit o).answer.handed s (s.blockReading limit o).state := by
  obtain ⟨bytes | _, c, effects⟩ := o
  · exact Goes.read rfl h
  · exact Goes.read rfl h

theorem endTimedReading_goes {s : Session}
    {o : Outcome (Except ReadTimeout (List UInt8)) Channel}
    (h : Transfers [] (handedInTime (some o.answer)) s.channel.store o.state.store) :
    Goes [] (s.endTimedReading o).answer.handed s (s.endTimedReading o).state := by
  obtain ⟨e | bytes, c, effects⟩ := o
  · exact Goes.read rfl h
  · exact Goes.read rfl h

theorem pollReading_goes (s : Session) (w : Waker) (key : WaitKey) (limit : Nat) :
    Goes [] (s.pollReading w key limit).answer.handed s (s.pollReading w key limit).state := by
  have h := pollRead_transfers w limit (s.channel, key)
  simp only [pollReading, Outcome.andThen_answer, Outcome.andThen_state]
  rcases hanswer : (pollRead w limit (s.channel, key)).answer with bytes | _
  · rw [hanswer] at h
    exact Goes.read rfl h
  · rw [hanswer] at h
    exact Goes.read rfl h

theorem dropReader_goes (s : Session) (key : WaitKey) :
    Goes [] [] s (s.dropReader key).state :=
  Goes.quiet rfl (Channel.closeReader_store _)

theorem blockingReader_goes (s : Session) (r : ReaderRequest) :
    Goes [] (s.blockingReader r).answer.handed s (s.blockingReader r).state := by
  cases r with
  | tryRead limit => exact Goes.read rfl (s.channel.tryRead_transfers limit)
  | read limit w unpolled => exact blockReading_goes limit (blockingRead_transfers limit s.channel)
  | readOnce limit => exact blockReading_goes limit (blockingRead_transfers limit s.channel)
  | timedRead limit => exact endTimedReading_goes (timedRead_transfers limit s.channel)
  | readToEnd =>
    simp only [blockingReader]
    split
    · exact Goes.read rfl (s.channel.tryRead_transfers _)
    · exact Goes.quiet rfl rfl
  | drop => exact dropReader_goes s .fresh
  | toPolled => exact Goes.quiet rfl rfl
  | info => exact Goes.quiet rfl rfl
  | debug => exact Goes.quiet rfl rfl
  | poll w => exact Goes.quiet rfl rfl
  | cancel => exact Goes.quiet rfl rfl
  | pollRead limit w => exact Goes.quiet rfl rfl
  | timeUp => exact Goes.quiet rfl rfl
  | toBlocking => exact Goes.quiet rfl rfl

theorem polledReader_goes (s : Session) (key : WaitKey) (r : ReaderRequest) :
    Goes [] (s.polledReader key r).answer.handed s (s.polledReader key r).state := by
  cases r with
  | tryRead limit => exact Goes.read rfl (s.channel.tryRead_transfers limit)
  | read limit w unpolled =>
    simp only [polledReader]
    split
    · exact Goes.quiet rfl rfl
    · exact pollReading_goes s w key limit
  | pollRead limit w =>
    have h := pollRead_transfers w limit (s.channel, key)
    simp only [polledReader, Outcome.andThen_answer, Outcome.andThen_state]
    rcases hanswer : (pollRead w limit (s.channel, key)).answer with bytes | _
    · rw [hanswer] at h
      exact Goes.read rfl h
    · rw [hanswer] at h
      exact Goes.read rfl h
  | drop => exact dropReader_goes s key
  | toBlocking => exact Goes.quiet rfl rfl
  | info => exact Goes.quiet rfl rfl
  | debug => exact Goes.quiet rfl rfl
  | poll w => exact Goes.quiet rfl rfl
  | cancel => exact Goes.quiet rfl rfl
  | readOnce limit => exact Goes.quiet rfl rfl
  | timedRead limit => exact Goes.quiet rfl rfl
  | timeUp => exact Goes.quiet rfl rfl
  | readToEnd => exact Goes.quiet rfl rfl
  | toPolled => exact Goes.quiet rfl rfl

theorem readerRequest_goes (s : Session) (r : ReaderRequest) :
    Goes [] (s.readerRequest r).answer.handed s (s.readerRequest r).state := by
  rw [readerRequest]
  cases s.reader with
  | blocking => exact blockingReader_goes s r
  | polled key => exact polledReader_goes s key r
  | reading key limit =>
    simp only [busyReader]
    split
    · exact pollReading_goes s _ key limit
    · exact Goes.quiet rfl rfl
    · exact dropReader_goes s key
    · exact Goes.quiet rfl rfl
  | asleep limit =>
    simp only [sleepingReader]
    split
    · exact endTimedReading_goes (timeUpRead_transfers limit s.channel)
    · exact Goes.quiet rfl rfl
  | gone => exact Goes.quiet rfl rfl

/-! ### Steps -/

theorem request_goes (s : Session) (r : Request) :
    Goes (s.ended r (s.request r).answer) (s.request r).answer.handed s (s.request r).state := by
  cases r with
  | writer r => exact writerRequest_goes s r
  | reader r => exact readerRequest_goes s r
  | unknown => exact refuse_goes s .unknown .noSuchOp

theorem settleReader_goes (s : Session) :
    Goes [] (s.settleReader.answer.elim [] Reply.handed) s s.settleReader.state := by
  rw [settleReader]
  split
  · rename_i limit hasleep
    split
    · exact Goes.quiet rfl rfl
    · have h := blockReading_goes limit (resumeRead_transfers limit s.channel)
      rw [Outcome.map_answer, Outcome.map_state]
      split
      · rename_i hstarted
        rw [hstarted] at h
        exact h
      · exact h
  · exact Goes.quiet rfl rfl

theorem settleWriter_goes (s : Session) :
    Goes (s.settleWriter.answer.elim [] fun reply =>
        s.writer.underWay.flatMap fun w => w.ended reply)
      (s.settleWriter.answer.elim [] Reply.handed) s s.settleWriter.state := by
  rw [settleWriter]
  split
  · rename_i mode data written hasleep
    split
    · exact Goes.quiet rfl rfl
    · have hunderWay : s.writer.underWay = [⟨data, written⟩] := by rw [hasleep]; rfl
      obtain ⟨hwrites, hreports⟩ := resumeWrite_writes mode data (s.channel, written)
      have h := blockWriting_goes (Or.inl hunderWay) hwrites hreports
      rw [Outcome.map_answer, Outcome.map_state]
      split
      · rename_i hstarted
        rw [hstarted] at h
        exact h
      · simp only [hunderWay, List.flatMap_singleton, Option.elim_some]
        exact h
  · exact Goes.quiet rfl rfl

theorem settleReader_writer (s : Session) : s.settleReader.state.writer = s.writer := by
  rw [settleReader]
  split
  · split
    · rfl
    · simp only [blockReading, Outcome.map_state, Outcome.andThen_state]
      split
      · rfl
      · rfl
  · rfl

theorem blockWriting_handed (s : Session) (mode : WriteMode) (data : List UInt8)
    (o : Outcome (Blocking (Except RingClosed Nat)) Committing) :
    (s.blockWriting mode data o).answer.handed = [] := by
  obtain ⟨(e | n) | _, st, effects⟩ := o
  · cases mode <;> rfl
  · cases mode <;> rfl
  · rfl

theorem settleWriter_handed (s : Session) : s.settleWriter.answer.elim [] Reply.handed = [] := by
  rw [settleWriter]
  split
  · split
    · rfl
    · rw [Outcome.map_answer]
      split
      · rfl
      · exact blockWriting_handed s _ _ _
  · rfl

theorem pollWriting_handed (s : Session) (w : Waker) (key : WaitKey) (data : List UInt8)
    (written : Nat) : (s.pollWriting w key data written).answer.handed = [] := by
  simp only [pollWriting, Outcome.andThen_answer]
  split
  · rfl
  · rfl
  · rfl

theorem offerReply_handed (r : Except RingClosed Nat) : (offerReply r).handed = [] := by
  cases r with
  | ok n => rfl
  | error e => rfl

theorem pollWriteReply_handed (r : Poll (Except RingClosed Nat)) :
    (pollWriteReply r).handed = [] := by
  rcases r with (_ | _) | _
  · rfl
  · rfl
  · rfl

/-- No reply to a writer hands out bytes. -/
theorem writerRequest_handed (s : Session) (r : WriterRequest) :
    (s.writerRequest r).answer.handed = [] := by
  rw [writerRequest]
  cases s.writer with
  | blocking =>
    simp only [blockingWriter]
    split
    · exact offerReply_handed _
    · exact blockWriting_handed s _ _ _
    · exact blockWriting_handed s _ _ _
    · exact blockWriting_handed s _ _ _
    · rfl
    · rfl
    · rfl
    · rfl
    · rfl
    · rfl
  | polled key =>
    simp only [polledWriter]
    split
    · split
      · rfl
      · exact offerReply_handed _
    · split
      · rfl
      · exact pollWriting_handed s _ key _ 0
    · exact pollWriteReply_handed _
    · rfl
    · rfl
    · rfl
    · rfl
    · rfl
    · rfl
    · rfl
  | writing key data written =>
    simp only [busyWriter]
    split
    · exact pollWriting_handed s _ key data written
    · rfl
    · rfl
    · rfl
    · rfl
  | asleep mode data written => rfl
  | gone => rfl

theorem settled_returned (s : Session) (w r : Option Reply) :
    s.settled ((w.toList.map fun x => (Side.writer, x)) ++ r.toList.map fun x => (Side.reader, x))
      = w.elim [] fun reply => s.writer.underWay.flatMap fun v => v.ended reply := by
  cases w <;> cases r <;> simp [settled]

theorem handed_returned {w : Option Reply} (hw : w.elim [] Reply.handed = []) (r : Option Reply) :
    handed ((w.toList.map fun x => (Side.writer, x)) ++ r.toList.map fun x => (Side.reader, x))
      = r.elim [] Reply.handed := by
  cases w <;> cases r <;> simp_all [handed]

theorem settle_goes (s : Session) :
    Goes (s.settled s.settle.answer) (handed s.settle.answer) s s.settle.state := by
  have h := s.settleReader_goes.trans s.settleReader.state.settleWriter_goes
  have hnone := s.settleReader.state.settleWriter_handed
  rw [hnone, List.append_nil, List.nil_append, settleReader_writer] at h
  simp only [settle, Outcome.andThen_answer, Outcome.map_answer, Outcome.andThen_state,
    Outcome.map_state]
  rw [settled_returned, handed_returned hnone]
  exact h

theorem advance_goes (s : Session) (r : Request) :
    Goes (s.ended r (s.advance r).answer.1 ++ (s.request r).state.settled (s.advance r).answer.2)
      ((s.advance r).answer.1.handed ++ handed (s.advance r).answer.2) s (s.advance r).state :=
  (s.request_goes r).trans (s.request r).state.settle_goes

/-! ### Runs -/

/-- The store has a history: the bytes `sent` before, then those of the write under way, of which
    `got` were read. -/
def Remembers (sent got : List UInt8) (s : Session) : Prop :=
  (∀ w ∈ s.writer.underWay, w.Exact) ∧
    Carries (sent ++ committedBytes s.writer.underWay) got s.channel.store

theorem Goes.remembers {s s' : Session} {closed : List Commit} {took sent got : List UInt8}
    (h : Goes closed took s s') (hs : Remembers sent got s) :
    Remembers (sent ++ committedBytes closed) (got ++ took) s' := by
  obtain ⟨put, hput, hmoved⟩ := h.stream
  constructor
  · intro w hw
    exact h.exact hs.1 w (List.mem_append_right _ hw)
  · have hcarries := hmoved.carries _ _ hs.2
    rw [List.append_assoc, hput, committedBytes, List.flatMap_append, ← List.append_assoc]
      at hcarries
    exact hcarries

/-- After a run the history is the ledger of the run. -/
theorem run_remembers (rs : List Request) : ∀ {s : Session} {sent got : List UInt8},
    Remembers sent got s →
      Carries (sent ++ committedBytes (s.ledger rs)) (got ++ s.received rs)
          (s.after rs).channel.store ∧
        (s.after rs).channel.store.storage.size = s.channel.store.storage.size ∧
        ∀ w ∈ s.ledger rs, w.Exact := by
  induction rs with
  | nil =>
    intro s sent got hs
    refine ⟨?_, rfl, hs.1⟩
    rw [received, List.append_nil]
    exact hs.2
  | cons r rs ih =>
    intro s sent got hs
    have hgoes := s.advance_goes r
    obtain ⟨hcarries, hsize, hexact⟩ := ih (hgoes.remembers hs)
    refine ⟨?_, ?_, ?_⟩
    · rw [List.append_assoc, List.append_assoc, committedBytes, committedBytes,
        ← List.flatMap_append] at hcarries
      exact hcarries
    · obtain ⟨_, _, hmoved⟩ := hgoes.stream
      exact hsize.trans hmoved.size
    · intro w hw
      rw [ledger, List.mem_append] at hw
      rcases hw with hw | hw
      · exact hgoes.exact hs.1 w (List.mem_append_left _ hw)
      · exact hexact w hw

theorem new_remembers {capacity : Nat} (hpos : 0 < capacity) (hword : capacity < UInt64.size)
    (observer : Observer) (polled : Bool) : Remembers [] [] (new capacity observer polled) := by
  cases polled with
  | false =>
    refine ⟨?_, new_carries hpos hword⟩
    intro w hw
    cases hw
  | true =>
    refine ⟨?_, new_carries hpos hword⟩
    intro w hw
    cases hw

/-- **The byte stream of a ring is exact.**  In every run that commits fewer than 2^64 bytes, what
    reads handed out followed by what is unread is what the writes committed, in order; each
    write committed the prefix of its buffer that it reports, or that it has reported so far; and
    no more bytes are unread than fit. -/
theorem stream_exact {capacity : Nat} (hpos : 0 < capacity) (hword : capacity < UInt64.size)
    (observer : Observer) (polled : Bool) (rs : List Request)
    (hshort : (committedBytes ((new capacity observer polled).ledger rs)).length < UInt64.size) :
    (new capacity observer polled).received rs
        ++ ((new capacity observer polled).after rs).channel.store.unread
      = committedBytes ((new capacity observer polled).ledger rs) ∧
    (∀ w ∈ (new capacity observer polled).ledger rs, w.bytes.length = w.written) ∧
    ((new capacity observer polled).after rs).channel.store.unread.length ≤ capacity ∧
    ((new capacity observer polled).after rs).channel.store.len.toNat
      = ((new capacity observer polled).after rs).channel.store.unread.length := by
  obtain ⟨hcarries, hsize, hexact⟩ := run_remembers rs (new_remembers hpos hword observer polled)
  obtain ⟨hstream, hfits, hlen⟩ := hcarries.exact hshort
  have hcapacity : (new capacity observer polled).channel.store.storage.size = capacity := by
    cases polled <;> exact Array.size_replicate
  rw [hsize, hcapacity] at hfits
  exact ⟨hstream, hexact, hfits, hlen⟩

/-- A polled write of four bytes into two places waits; a read makes room, a poll goes on, and
    giving up the write leaves its first three bytes on the ledger. -/
theorem stream_exact_given_up :
    let s := new 2 .counting true
    let rs : List Request :=
      [.writer (.write [1, 2, 3, 4] 7 false), .reader (.tryRead 1), .writer (.poll 7),
        .writer .cancel, .reader (.tryRead 5)]
    s.ledger rs = [⟨[1, 2, 3, 4], 3⟩] ∧ s.received rs = [1, 2, 3] ∧
      s.received rs ++ (s.after rs).channel.store.unread = committedBytes (s.ledger rs) := by
  refine ⟨by decide, by decide, ?_⟩
  exact (stream_exact (by decide) (by decide) .counting true _ (by decide)).1

end Session

end Conduit.Ring

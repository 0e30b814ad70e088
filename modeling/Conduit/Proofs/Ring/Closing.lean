/-
  Conduit/Proofs/Ring/Closing.lean
  ================================
  **What a closed writer can still commit.**

  A polled handle refuses to write once its end is closed.  A blocking handle does not
  look, and a polled handle that was closed can be converted into one; what it then writes
  is committed, and read, after the end of the stream.  In every run in which no blocking
  handle of a closed writer is asked to write, the end is final.

  A closed writer is `Spent`: of a write under way it has committed nothing.  A request
  that heeds the close keeps it so and puts nothing on the ledger but empty writes, hence
  by the books of the ledger nothing is taken out of an empty ring any more.
-/
import Conduit.Proofs.Ring.Ledger
import Conduit.Proofs.Ring.Wakeups

namespace Conduit.Ring

open Signal (Slim WaitKey)

/-! ### Writes leave the flag alone -/

/-- What each pass of a loop leaves alone, the loop does. -/
theorem loop_keeps {σ β γ : Type} (view : σ → γ) {pass : σ → Outcome (Option β) σ}
    (each : ∀ s, view (pass s).state = view s) (bound : Nat) (s : σ) :
    view (Outcome.loop pass bound s).state = view s := by
  apply Outcome.loop_along (R := fun s _ s' => view s' = view s)
  · intro s
    rfl
  · intro s _ s' _ s'' h h'
    exact h'.trans h
  · exact each

theorem Channel.tryWrite_writerClosed (c : Channel) (src : List UInt8) :
    (c.tryWrite src).state.writerClosed = c.writerClosed := by
  rw [tryWrite]
  split
  · rfl
  · rfl

theorem writePass_writerClosed (w : Waker) (src : List UInt8) (s : Keyed) :
    (writePass w src s).state.1.writerClosed = s.1.writerClosed := by
  rw [writePass]
  split
  · rfl
  · rw [← s.1.tryWrite_writerClosed src]
    simp only [Outcome.andThen_state]
    split
    · rfl
    · simp only [Outcome.andThen_state]
      split
      · rfl
      · rfl

theorem pollWrite_writerClosed (w : Waker) (src : List UInt8) (s : Keyed) :
    (pollWrite w src s).state.1.writerClosed = s.1.writerClosed := by
  rw [pollWrite]
  split
  · rfl
  · split
    · rfl
    · exact loop_keeps (fun s : Keyed => s.1.writerClosed) (writePass_writerClosed w src) _ s

theorem writeAllPass_writerClosed (w : Waker) (data : List UInt8) (s : Writing) :
    (writeAllPass w data s).state.1.1.writerClosed = s.1.1.writerClosed := by
  rw [writeAllPass]
  split
  · rfl
  · rw [← pollWrite_writerClosed w (data.drop s.2) s.1]
    simp only [Outcome.andThen_state]
    split
    · rfl
    · rfl
    · rfl

theorem pollWriteAll_writerClosed (w : Waker) (data : List UInt8) (s : Writing) :
    (pollWriteAll w data s).state.1.1.writerClosed = s.1.1.writerClosed :=
  loop_keeps (fun s : Writing => s.1.1.writerClosed) (writeAllPass_writerClosed w data) _ s

theorem blockingWritePass_writerClosed (mode : WriteMode) (data : List UInt8) (s : Committing) :
    (blockingWritePass mode data s).state.1.writerClosed = s.1.writerClosed := by
  rw [blockingWritePass]
  split
  · rfl
  · split
    · rfl
    · rw [← s.1.tryWrite_writerClosed (data.drop s.2)]
      simp only [Outcome.andThen_state]
      split
      · rfl
      · rfl

theorem blockingWrite_writerClosed (mode : WriteMode) (data : List UInt8) (s : Committing) :
    (blockingWrite mode data s).state.1.writerClosed = s.1.writerClosed :=
  loop_keeps (fun s : Committing => s.1.writerClosed) (blockingWritePass_writerClosed mode data) _ s

theorem resumeWrite_writerClosed (mode : WriteMode) (data : List UInt8) (s : Committing) :
    (resumeWrite mode data s).state.1.writerClosed = s.1.writerClosed := by
  simp only [resumeWrite, Outcome.andThen_state]
  split
  · exact blockingWrite_writerClosed mode data (_, s.2)
  · rfl

theorem Channel.offer_writerClosed (c : Channel) (src : List UInt8) :
    (c.offer src).state.writerClosed = c.writerClosed := by
  rw [offer]
  split
  · rfl
  · exact c.tryWrite_writerClosed src

theorem Channel.closeWriter_closed (c : Channel) : c.closeWriter.state.writerClosed = true := by
  rw [closeWriter]
  split
  · rename_i hclosed
    exact hclosed
  · rfl

/-! ### Reads from a closed channel -/

theorem Channel.tryRead_writerClosed (c : Channel) (limit : Nat) :
    (c.tryRead limit).state.writerClosed = c.writerClosed := (tryRead_spares c limit).flag

/-- How many bytes an attempt takes. -/
theorem Channel.tryRead_length {c : Channel} (hsized : c.store.Sized) (limit : Nat) :
    (c.tryRead limit).answer.length = min limit c.store.len.toNat := by
  obtain ⟨hlength, _⟩ := hsized.tryRead limit
  rw [tryRead]
  split
  · rename_i store htaken
    rw [htaken] at hlength
    exact hlength
  · rename_i bytes store _ htaken
    rw [htaken] at hlength
    exact hlength

/-- A read for nothing takes nothing. -/
theorem Channel.tryRead_zero (c : Channel) : c.tryRead 0 = .pure [] c := by
  have hnone : (c.store.tryRead 0).1 = [] := by
    simp only [Store.tryRead, Store.firstPart, slice, Nat.zero_min, Nat.sub_self, Nat.add_zero,
      Array.extract_empty_of_stop_le_start (Nat.le_refl _), List.append_nil]
  rw [tryRead]
  split
  · rfl
  · rename_i bytes store hsome htaken
    rw [htaken] at hnone
    exact absurd hnone hsome

/-- An attempt to read from a closed channel is the last. -/
theorem attempt_closed {σ α : Type} {finish : List UInt8 → Channel → Outcome α σ}
    {rest : Channel → Outcome α σ} (limit : Nat) {c : Channel} (hclosed : c.writerClosed = true) :
    ((c.tryRead limit).andThen fun bytes c =>
        if ¬ bytes.isEmpty ∨ c.writerClosed then finish bytes c else rest c)
      = (c.tryRead limit).andThen finish := by
  have hstop : ¬ (c.tryRead limit).answer.isEmpty ∨ (c.tryRead limit).state.writerClosed :=
    Or.inr ((c.tryRead_writerClosed limit).trans hclosed)
  simp only [Outcome.andThen, if_pos hstop]

/-- A read from a closed channel does not wait: it comes back with what one attempt takes. -/
theorem pollRead_closed (w : Waker) (limit : Nat) {s : Keyed} (hclosed : s.1.writerClosed = true) :
    (pollRead w limit s).answer = .ready (s.1.tryRead limit).answer ∧
      (pollRead w limit s).state.1.store = (s.1.tryRead limit).state.store := by
  rw [pollRead]
  by_cases hzero : limit = 0
  · rw [if_pos hzero, hzero, s.1.tryRead_zero]
    exact ⟨rfl, rfl⟩
  · rw [if_neg hzero]
    simp only [Outcome.loop, readPass]
    rw [attempt_closed limit hclosed]
    exact ⟨rfl, rfl⟩

theorem blockingRead_closed (limit : Nat) {c : Channel} (hclosed : c.writerClosed = true) :
    (blockingRead limit c).answer = .returned (c.tryRead limit).answer ∧
      (blockingRead limit c).state.store = (c.tryRead limit).state.store := by
  rw [blockingRead]
  by_cases hzero : limit = 0
  · rw [if_pos hzero, hzero, c.tryRead_zero]
    exact ⟨rfl, rfl⟩
  · rw [if_neg hzero]
    simp only [Outcome.loop, blockingReadPass]
    rw [attempt_closed limit hclosed]
    exact ⟨rfl, rfl⟩

theorem timedRead_closed (limit : Nat) {c : Channel} (hclosed : c.writerClosed = true) :
    (timedRead limit c).answer = .ok (c.tryRead limit).answer ∧
      (timedRead limit c).state.store = (c.tryRead limit).state.store := by
  rw [timedRead]
  by_cases hzero : limit = 0
  · rw [if_pos hzero, hzero, c.tryRead_zero]
    exact ⟨rfl, rfl⟩
  · rw [if_neg hzero]
    simp only [Outcome.loop, timedReadPass]
    rw [attempt_closed limit hclosed]
    exact ⟨rfl, rfl⟩

/-- What an answered read says: it took no more than it may, and if it took nothing the channel is
    closed and empty. -/
def Answered (limit : Nat) (s' : Keyed) : Option (Poll (List UInt8)) → Prop
  | some (.ready bytes) =>
    bytes.length ≤ limit ∧ (bytes = [] → s'.1.writerClosed = true ∧ s'.1.store.Empty)
  | _ => True

theorem readPass_answered (w : Waker) {limit : Nat} (hsome : limit ≠ 0) {s : Keyed}
    (hsized : s.1.store.Sized) :
    Answered limit (readPass w limit s).state (readPass w limit s).answer := by
  have hlength := Channel.tryRead_length hsized limit
  obtain ⟨_, hcount⟩ := (s.1.tryRead_transfers limit).count hsized
  simp only [readPass, Outcome.andThen_answer, Outcome.andThen_state]
  by_cases hstop : ¬ (s.1.tryRead limit).answer.isEmpty ∨ (s.1.tryRead limit).state.writerClosed
  · rw [if_pos hstop]
    constructor
    · rw [hlength]
      exact Nat.min_le_left _ _
    · intro hnone
      rw [hnone, List.length_nil] at hlength hcount
      constructor
      · rcases hstop with hbytes | hclosed
        · rw [hnone] at hbytes
          exact absurd rfl hbytes
        · exact hclosed
      · show (s.1.tryRead limit).state.store.len.toNat = 0
        omega
  · rw [if_neg hstop]
    simp only [Outcome.andThen_answer, Outcome.andThen_state]
    split
    · trivial
    · trivial

/-- **A polled read comes back with nothing only from a closed and empty channel.** -/
theorem pollRead_answered (w : Waker) {limit : Nat} (hsome : limit ≠ 0) {s : Keyed}
    (hsized : s.1.store.Sized) :
    Answered limit (pollRead w limit s).state (some (pollRead w limit s).answer) := by
  rw [pollRead, if_neg hsome, Outcome.map_answer, Outcome.map_state]
  revert hsized
  apply Outcome.loop_rule (Q := fun (s : Keyed) b (s' : Keyed) =>
    s.1.store.Sized → Answered limit s' (some (b.getD .pending)))
  · intro s _
    trivial
  · intro s b hb hsized
    have h := readPass_answered w hsome hsized
    rw [hb] at h
    exact h
  · intro s b s' hb hrest hsized
    apply hrest
    exact ((readPass_transfers w limit s).count hsized).1

/-! ### Closed writers -/

/-- A writer's end that has committed nothing of a write under way. -/
inductive WriterEnd.Spent : WriterEnd → Prop
  | blocking : Spent .blocking
  | polled (key : WaitKey) : Spent (.polled key)
  | unbegun (key : WaitKey) (data : List UInt8) : Spent (.writing key data 0)
  | gone : Spent .gone

theorem WriterEnd.Spent.committed {e : WriterEnd} (h : e.Spent) :
    committedBytes e.underWay = [] := by
  cases h with
  | blocking => rfl
  | polled key => rfl
  | unbegun key data => rfl
  | gone => rfl

/-- A closed writer that is polled for a whole buffer commits nothing. -/
theorem writeAllPass_closed (w : Waker) (data : List UInt8) {s : Writing}
    (hclosed : s.1.1.writerClosed = true) : (writeAllPass w data s).state = s := by
  rw [writeAllPass]
  split
  · rfl
  · rw [pollWrite, if_pos hclosed]
    rfl

theorem pollWriteAll_closed (w : Waker) (data : List UInt8) {s : Writing}
    (hclosed : s.1.1.writerClosed = true) : (pollWriteAll w data s).state = s := by
  have hloop : ∀ s : Writing, s.1.1.writerClosed = true →
      (Outcome.loop (writeAllPass w data) (data.length - s.2 + 1) s).state = s := by
    intro s
    apply Outcome.loop_along (R := fun (s : Writing) _ s' => s.1.1.writerClosed = true → s' = s)
    · intro s _
      rfl
    · intro s _ s' _ s'' h h' hclosed
      obtain rfl := h hclosed
      exact h' hclosed
    · intro s hclosed
      exact writeAllPass_closed w data hclosed
  exact hloop s hclosed

namespace Session

/-- A request does not ask a blocking handle of a closed writer to write. -/
def Heeds (s : Session) (r : Request) : Prop :=
  s.channel.writerClosed = true → s.writer = .blocking → s.subject r = []

/-- No request of a run asks a blocking handle of a closed writer to write. -/
def Sealed (s : Session) : List Request → Prop
  | [] => True
  | r :: rs => s.Heeds r ∧ Sealed (s.advance r).state rs

instance (s : Session) (r : Request) : Decidable (s.Heeds r) :=
  inferInstanceAs (Decidable (_ → _ → _))

instance decidableSealed : ∀ (s : Session) (rs : List Request), Decidable (s.Sealed rs)
  | _, [] => inferInstanceAs (Decidable True)
  | s, r :: rs =>
    have := decidableSealed (s.advance r).state rs
    inferInstanceAs (Decidable (_ ∧ _))

variable {s : Session}

/-- An answer that moves no byte and leaves a closed writer spent. -/
structure Idles (s : Session) (o : Answer) : Prop where
  store : o.state.channel.store = s.channel.store
  closed : o.state.channel.writerClosed = true
  spent : o.state.writer.Spent
  silent : o.answer.handed = []

theorem pollWriting_idles (hclosed : s.channel.writerClosed = true) (w : Waker) (key : WaitKey)
    (data : List UInt8) : s.Idles (s.pollWriting w key data 0) := by
  have hstate := pollWriteAll_closed w data (s := ((s.channel, key), 0)) hclosed
  rw [pollWriting]
  generalize pollWriteAll w data ((s.channel, key), 0) = o at hstate
  obtain ⟨answer, st, effects⟩ := o
  obtain rfl : st = ((s.channel, key), 0) := hstate
  rcases answer with (e | _) | _
  · exact ⟨rfl, hclosed, .polled .fresh, rfl⟩
  · exact ⟨rfl, hclosed, .polled .fresh, rfl⟩
  · exact ⟨rfl, hclosed, .unbegun key data, rfl⟩

theorem dropWriter_idles (s : Session) (key : WaitKey) : s.Idles (s.dropWriter key) :=
  ⟨Channel.closeWriter_store _, Channel.closeWriter_closed _, .gone, rfl⟩

/-- An idle handle, or one whose write has not begun, that stays as it is. -/
theorem Idles.same {reply : Reply} (hclosed : s.channel.writerClosed = true)
    (hspent : s.writer.Spent) (hsilent : reply.handed = []) : s.Idles (.pure reply s) :=
  ⟨rfl, hclosed, hspent, hsilent⟩

theorem blockingWriter_idles (hclosed : s.channel.writerClosed = true)
    (hwriter : s.writer = .blocking) {r : WriterRequest} (hsilent : s.subject (.writer r) = []) :
    s.Idles (s.blockingWriter r) := by
  have hspent : s.writer.Spent := hwriter ▸ .blocking
  cases r with
  | tryWrite data => cases hsilent
  | write data w unpolled => cases hsilent
  | writeOnce data => cases hsilent
  | writePieces data => cases hsilent
  | pollWrite data w => cases hsilent
  | toPolled => exact ⟨rfl, hclosed, .polled .fresh, rfl⟩
  | drop => exact dropWriter_idles s .fresh
  | flush => exact Idles.same hclosed hspent rfl
  | info => exact Idles.same hclosed hspent rfl
  | debug => exact Idles.same hclosed hspent rfl
  | poll w => exact Idles.same hclosed hspent rfl
  | cancel => exact Idles.same hclosed hspent rfl
  | progress => exact Idles.same hclosed hspent rfl
  | close => exact Idles.same hclosed hspent rfl
  | toBlocking => exact Idles.same hclosed hspent rfl

theorem polledWriter_idles {key : WaitKey} (hclosed : s.channel.writerClosed = true)
    (hwriter : s.writer = .polled key) (r : WriterRequest) : s.Idles (s.polledWriter key r) := by
  have hspent : s.writer.Spent := hwriter ▸ .polled key
  cases r with
  | tryWrite data =>
    rw [polledWriter, if_pos hclosed]
    exact Idles.same hclosed hspent rfl
  | write data w unpolled =>
    rw [polledWriter]
    split
    · exact ⟨rfl, hclosed, .unbegun key data, rfl⟩
    · exact pollWriting_idles hclosed w key data
  | pollWrite data w =>
    rw [polledWriter, pollWrite, if_pos hclosed]
    exact ⟨rfl, hclosed, .polled key, rfl⟩
  | close => exact ⟨Channel.closeWriter_store _, Channel.closeWriter_closed _, hspent, rfl⟩
  | toBlocking => exact ⟨rfl, hclosed, .blocking, rfl⟩
  | drop => exact dropWriter_idles s key
  | flush => exact Idles.same hclosed hspent rfl
  | info => exact Idles.same hclosed hspent rfl
  | debug => exact Idles.same hclosed hspent rfl
  | poll w => exact Idles.same hclosed hspent rfl
  | cancel => exact Idles.same hclosed hspent rfl
  | progress => exact Idles.same hclosed hspent rfl
  | writeOnce data => exact Idles.same hclosed hspent rfl
  | writePieces data => exact Idles.same hclosed hspent rfl
  | toPolled => exact Idles.same hclosed hspent rfl

theorem busyWriter_idles {key : WaitKey} {data : List UInt8}
    (hclosed : s.channel.writerClosed = true) (hwriter : s.writer = .writing key data 0)
    (r : WriterRequest) : s.Idles (s.busyWriter key data 0 r) := by
  have hspent : s.writer.Spent := hwriter ▸ .unbegun key data
  simp only [busyWriter]
  split
  · exact pollWriting_idles hclosed _ key data
  · exact ⟨rfl, hclosed, .polled .fresh, rfl⟩
  · exact Idles.same hclosed hspent rfl
  · exact dropWriter_idles s key
  · exact Idles.same hclosed hspent rfl

/-- A closed writer moves no byte, unless a blocking handle is asked to write. -/
theorem writerRequest_idles (hclosed : s.channel.writerClosed = true) (hspent : s.writer.Spent)
    {r : WriterRequest} (hheeds : s.Heeds (.writer r)) : s.Idles (s.writerRequest r) := by
  rw [writerRequest]
  cases hwriter : s.writer with
  | blocking => exact blockingWriter_idles hclosed hwriter (hheeds hclosed hwriter)
  | polled key => exact polledWriter_idles hclosed hwriter r
  | writing key data written =>
    rw [hwriter] at hspent
    cases hspent with
    | unbegun key data => exact busyWriter_idles hclosed hwriter r
  | asleep mode data written =>
    rw [hwriter] at hspent
    cases hspent
  | gone => exact Idles.same hclosed hspent rfl

theorem blockWriting_writerClosed {mode : WriteMode} {data : List UInt8}
    {o : Outcome (Blocking (Except RingClosed Nat)) Committing}
    (hkeeps : o.state.1.writerClosed = s.channel.writerClosed) :
    (s.blockWriting mode data o).state.channel.writerClosed = s.channel.writerClosed := by
  simp only [blockWriting, Outcome.andThen_state]
  split
  · exact hkeeps
  · exact hkeeps

theorem pollWriting_writerClosed (s : Session) (w : Waker) (key : WaitKey) (data : List UInt8)
    (written : Nat) :
    (s.pollWriting w key data written).state.channel.writerClosed = s.channel.writerClosed := by
  have hkeeps := pollWriteAll_writerClosed w data ((s.channel, key), written)
  simp only [pollWriting, Outcome.andThen_state]
  split
  · exact hkeeps
  · exact hkeeps
  · exact hkeeps

theorem blockingWriter_keeps {r : WriterRequest} (hdrop : r ≠ .drop) :
    (s.blockingWriter r).state.channel.writerClosed = s.channel.writerClosed := by
  have hwrite (mode : WriteMode) (data : List UInt8) :
      (s.blockWriting mode data (blockingWrite mode data (s.channel, 0))).state.channel.writerClosed
        = s.channel.writerClosed :=
    blockWriting_writerClosed (blockingWrite_writerClosed mode data (s.channel, 0))
  simp only [blockingWriter]
  split
  · exact s.channel.offer_writerClosed _
  · exact hwrite .whole _
  · exact hwrite .once _
  · exact hwrite .pieces _
  · rfl
  · rfl
  · rfl
  · rfl
  · exact absurd rfl hdrop
  · rfl

theorem polledWriter_keeps {key : WaitKey} {r : WriterRequest} (hclose : r ≠ .close)
    (hdrop : r ≠ .drop) :
    (s.polledWriter key r).state.channel.writerClosed = s.channel.writerClosed := by
  simp only [polledWriter]
  split
  · split
    · rfl
    · exact s.channel.offer_writerClosed _
  · split
    · rfl
    · exact s.pollWriting_writerClosed _ key _ 0
  · exact pollWrite_writerClosed _ _ (s.channel, key)
  · rfl
  · exact absurd rfl hclose
  · rfl
  · rfl
  · rfl
  · exact absurd rfl hdrop
  · rfl

theorem busyWriter_keeps {key : WaitKey} {data : List UInt8} {written : Nat} {r : WriterRequest}
    (hdrop : r ≠ .drop) :
    (s.busyWriter key data written r).state.channel.writerClosed = s.channel.writerClosed := by
  simp only [busyWriter]
  split
  · exact s.pollWriting_writerClosed _ key data written
  · rfl
  · rfl
  · exact absurd rfl hdrop
  · rfl

/-- Only closing and dropping the handle close the writer, and they leave it spent. -/
theorem writerRequest_closes (s : Session) (r : WriterRequest) :
    (s.writerRequest r).state.channel.writerClosed = s.channel.writerClosed ∨
      s.Idles (s.writerRequest r) := by
  rw [writerRequest]
  cases hwriter : s.writer with
  | blocking =>
    by_cases hdrop : r = .drop
    · subst hdrop
      exact Or.inr (dropWriter_idles s .fresh)
    · exact Or.inl (blockingWriter_keeps hdrop)
  | polled key =>
    by_cases hdrop : r = .drop
    · subst hdrop
      exact Or.inr (dropWriter_idles s key)
    · by_cases hclose : r = .close
      · subst hclose
        have hspent : s.writer.Spent := hwriter ▸ .polled key
        exact Or.inr ⟨Channel.closeWriter_store _, Channel.closeWriter_closed _, hspent, rfl⟩
      · exact Or.inl (polledWriter_keeps hclose hdrop)
  | writing key data written =>
    by_cases hdrop : r = .drop
    · subst hdrop
      exact Or.inr (dropWriter_idles s key)
    · exact Or.inl (busyWriter_keeps hdrop)
  | asleep mode data written => exact Or.inl rfl
  | gone => exact Or.inl rfl

/-! ### Steps -/

/-- A ring at rest whose writer, if it is closed, is spent. -/
structure AtRest (s : Session) : Prop where
  guarded : s.Guarded
  rested : s.Rested
  spent : s.channel.writerClosed = true → s.writer.Spent

theorem new_atRest {capacity : Nat} (hpos : 0 < capacity) (hword : capacity < UInt64.size)
    (observer : Observer) (polled : Bool) : (new capacity observer polled).AtRest := by
  obtain ⟨hguarded, hrested⟩ := new_guarded hpos hword observer polled
  refine ⟨hguarded, hrested, ?_⟩
  intro hclosed
  cases polled with
  | false => cases hclosed
  | true => cases hclosed

/-- A request to the writer keeps it closed and spent, and one that closes it leaves it so. -/
theorem writerRequest_closed (hspent : s.channel.writerClosed = true → s.writer.Spent)
    {r : WriterRequest} (hheeds : s.Heeds (.writer r)) :
    ((s.writerRequest r).state.channel.writerClosed = true →
        (s.writerRequest r).state.writer.Spent) ∧
      (s.channel.writerClosed = true →
        (s.writerRequest r).state.channel.writerClosed = true) := by
  constructor
  · intro hclosed
    rcases writerRequest_closes s r with hsame | hidles
    · have hclosed' : s.channel.writerClosed = true := hsame.symm.trans hclosed
      exact (writerRequest_idles hclosed' (hspent hclosed') hheeds).spent
    · exact hidles.spent
  · intro hclosed
    exact (writerRequest_idles hclosed (hspent hclosed) hheeds).closed

/-- A request to either end does so. -/
theorem request_closed (h : s.AtRest) {r : Request} (hheeds : s.Heeds r) :
    ((s.request r).state.channel.writerClosed = true → (s.request r).state.writer.Spent) ∧
      (s.channel.writerClosed = true → (s.request r).state.channel.writerClosed = true) := by
  cases r with
  | writer r => exact writerRequest_closed h.spent hheeds
  | reader r =>
    have ha := readerRequest_answers h.guarded h.rested r
    constructor
    · intro hclosed
      have hspent := h.spent (ha.spares.flag.symm.trans hclosed)
      exact ha.writer.symm ▸ hspent
    · intro hclosed
      exact ha.spares.flag.trans hclosed
  | unknown => exact ⟨h.spent, id⟩

theorem settleReader_writerClosed (h : s.Guarded) :
    s.settleReader.state.channel.writerClosed = s.channel.writerClosed := by
  rcases settleReader_cases h with ⟨hsame, _⟩ | ⟨limit, o, _, ha, hstate, _⟩
  · rw [hsame]
    rfl
  · rw [hstate]
    exact ha.spares.flag

theorem settleWriter_writerClosed (s : Session) :
    s.settleWriter.state.channel.writerClosed = s.channel.writerClosed := by
  rw [settleWriter]
  split
  · split
    · rfl
    · exact blockWriting_writerClosed (resumeWrite_writerClosed _ _ (s.channel, _))
  · rfl

theorem settle_writerClosed (h : s.Guarded) :
    s.settle.state.channel.writerClosed = s.channel.writerClosed :=
  (settleWriter_writerClosed _).trans (settleReader_writerClosed h)

/-- A writer that is spent has no call that could go on. -/
theorem settleWriter_spent (hspent : s.writer.Spent) : s.settleWriter = .pure none s := by
  rw [settleWriter]
  cases hwriter : s.writer with
  | asleep mode data written =>
    rw [hwriter] at hspent
    cases hspent
  | blocking => rfl
  | polled key => rfl
  | writing key data written => rfl
  | gone => rfl

theorem settle_spent (hspent : s.writer.Spent) :
    s.settle.state = s.settleReader.state ∧ s.settle.state.writer = s.writer := by
  have hkept := s.settleReader_writer
  have hstate : s.settle.state = s.settleReader.state := by
    have hnone := settleWriter_spent (s := s.settleReader.state) (hkept.symm ▸ hspent)
    simp only [settle, Outcome.andThen_state, Outcome.map_state]
    rw [hnone]
    rfl
  refine ⟨hstate, ?_⟩
  rw [hstate]
  exact hkept

theorem settled_spent (hspent : s.writer.Spent) : s.settled s.settle.answer = [] := by
  have hnone := settleWriter_spent (s := s.settleReader.state)
    (s.settleReader_writer.symm ▸ hspent)
  simp only [settle, Outcome.andThen_answer, Outcome.map_answer]
  rw [settled_returned, hnone]
  rfl

/-- The writes that a step ends, and with them all that it puts on the ledger. -/
def endedIn (s : Session) (r : Request) : List Commit :=
  s.ended r (s.advance r).answer.1 ++ (s.request r).state.settled (s.advance r).answer.2

theorem advance_atRest (h : s.AtRest) {r : Request} (hheeds : s.Heeds r) :
    (s.advance r).state.AtRest ∧
      (s.channel.writerClosed = true → (s.advance r).state.channel.writerClosed = true) := by
  obtain ⟨hguarded, hrested⟩ := advance_guarded h.guarded h.rested r
  obtain ⟨hguarded', _⟩ := request_guarded h.guarded h.rested r
  obtain ⟨hspent, hstays⟩ := request_closed h hheeds
  have hflag : (s.advance r).state.channel.writerClosed
      = (s.request r).state.channel.writerClosed := settle_writerClosed hguarded'
  constructor
  · refine ⟨hguarded, hrested, ?_⟩
    intro hclosed
    have hspent' := hspent (hflag.symm.trans hclosed)
    have hwriter : (s.advance r).state.writer = (s.request r).state.writer :=
      (settle_spent hspent').2
    rw [hwriter]
    exact hspent'
  · intro hclosed
    exact hflag.trans (hstays hclosed)

/-- What moves no byte ends no write that committed one. -/
theorem Idles.commits_nothing {o : Answer} {ended : List Commit} (h : s.Idles o)
    (hsized : s.channel.store.Sized) (hspent : s.writer.Spent)
    (hgoes : Goes ended o.answer.handed s o.state) : committedBytes ended = [] := by
  obtain ⟨put, hput, hmoved⟩ := hgoes.stream
  obtain ⟨_, hcount⟩ := hmoved.count hsized
  rw [h.store, h.silent, List.length_nil, Nat.zero_add, Nat.add_eq_left,
    List.length_eq_zero_iff] at hcount
  rw [hcount, hspent.committed, committedBytes, List.flatMap_append] at hput
  exact (List.append_eq_nil_iff.mp hput.symm).1

/-- **After the close a step commits nothing.** -/
theorem advance_commits_nothing (h : s.AtRest) (hclosed : s.channel.writerClosed = true)
    {r : Request} (hheeds : s.Heeds r) : committedBytes (s.endedIn r) = [] := by
  have hspent := h.spent hclosed
  have hspent' := (request_closed h hheeds).1 ((request_closed h hheeds).2 hclosed)
  have hrequest : committedBytes (s.ended r (s.request r).answer) = [] := by
    cases r with
    | writer r =>
      exact (writerRequest_idles hclosed hspent hheeds).commits_nothing
        h.guarded.channel.sized hspent (writerRequest_goes s r)
    | reader r => rfl
    | unknown => rfl
  show committedBytes (s.ended r (s.request r).answer
    ++ (s.request r).state.settled (s.request r).state.settle.answer) = []
  rw [settled_spent hspent', List.append_nil]
  exact hrequest

/-- An empty ring whose closed writer is heeded gives nothing away and stays empty. -/
theorem advance_drained (h : s.AtRest) (hclosed : s.channel.writerClosed = true)
    (hempty : s.channel.store.Empty) {r : Request} (hheeds : s.Heeds r) :
    (s.advance r).answer.1.handed ++ handed (s.advance r).answer.2 = [] ∧
      (s.advance r).state.channel.store.Empty := by
  obtain ⟨put, hput, hmoved⟩ := (s.advance_goes r).stream
  obtain ⟨hatRest, hstays⟩ := advance_atRest h hheeds
  have hnothing := advance_commits_nothing h hclosed hheeds
  have hspent := hatRest.spent (hstays hclosed)
  rw [(h.spent hclosed).committed, committedBytes, List.flatMap_append] at hput
  have hput' : put = [] := by
    have hcommitted := hspent.committed
    rw [endedIn] at hnothing
    rw [committedBytes] at hnothing hcommitted
    rw [hnothing, hcommitted] at hput
    exact hput
  obtain ⟨_, hcount⟩ := hmoved.count h.guarded.channel.sized
  rw [Store.Empty] at hempty ⊢
  rw [hempty, hput', List.length_nil] at hcount
  constructor
  · exact List.length_eq_zero_iff.mp (by omega)
  · omega

/-! ### Reads after the close -/

/-- How many bytes at most the read takes that a request is for, or goes on with. -/
def reads (s : Session) : ReaderRequest → Option Nat
  | .tryRead limit | .readOnce limit | .pollRead limit _ | .timedRead limit => some limit
  | .read limit _ unpolled => if unpolled then none else some limit
  | .readToEnd => some s.channel.store.len.toNat
  | .poll _ | .timeUp =>
    match s.reader with
    | .reading _ limit | .asleep limit => some limit
    | _ => none
  | _ => none

/-- A reader learns that the stream has ended: a read for at least one byte comes back with none, or
    one to the end comes back. -/
inductive FindsEnd (s : Session) : Request → Reply × Returned → Prop
  | answered {r : ReaderRequest} {limit : Nat} {returned : Returned} (hreads : s.reads r = some limit)
    (hsome : limit ≠ 0) : FindsEnd s (.reader r) (.got [], returned)
  | toEnd {bytes : List UInt8} {returned : Returned} :
    FindsEnd s (.reader .readToEnd) (.got bytes, returned)
  | roused {r : Request} {reply : Reply} {returned : Returned}
    (hreturned : (.reader, .got []) ∈ returned) : FindsEnd s r (reply, returned)

/-- In a run every read comes back with nothing, or is refused to the handle. -/
def ReadsNothing (s : Session) : List Request → Prop
  | [] => True
  | r :: rs =>
    (∀ q limit, r = .reader q → s.reads q = some limit →
      (s.advance r).answer.1 = .got [] ∨ ∃ m, (s.advance r).answer.1 = .misuse m) ∧
    ReadsNothing (s.advance r).state rs

/-- After the close no read sleeps. -/
theorem AtRest.reader_awake (h : s.AtRest) (hclosed : s.channel.writerClosed = true) (limit : Nat) :
    s.reader ≠ .asleep limit := by
  intro hasleep
  have hdata := h.guarded.channel.data
  rw [hasleep] at hdata
  have hopen := (h.guarded.channel.empty (hdata.sleeps_of_thread h.rested.data)).2
  rw [hclosed] at hopen
  cases hopen

/-- What one attempt takes out of a session's ring. -/
def Takes (s : Session) (limit : Nat) (o : Answer) : Prop :=
  o.answer = .got (s.channel.tryRead limit).answer ∧
    o.state.channel.store = (s.channel.tryRead limit).state.store

theorem blockReading_takes (limit : Nat) (hclosed : s.channel.writerClosed = true) :
    s.Takes limit (s.blockReading limit (blockingRead limit s.channel)) := by
  obtain ⟨hanswer, hstore⟩ := blockingRead_closed limit hclosed
  rw [Takes]
  simp only [blockReading, Outcome.andThen_answer, Outcome.andThen_state, hanswer]
  exact ⟨rfl, hstore⟩

theorem endTimedReading_takes (limit : Nat) (hclosed : s.channel.writerClosed = true) :
    s.Takes limit (s.endTimedReading (timedRead limit s.channel)) := by
  obtain ⟨hanswer, hstore⟩ := timedRead_closed limit hclosed
  rw [Takes]
  simp only [endTimedReading, Outcome.andThen_answer, Outcome.andThen_state, hanswer]
  exact ⟨rfl, hstore⟩

theorem pollReading_takes (w : Waker) (key : WaitKey) (limit : Nat)
    (hclosed : s.channel.writerClosed = true) : s.Takes limit (s.pollReading w key limit) := by
  obtain ⟨hanswer, hstore⟩ := pollRead_closed w limit (s := (s.channel, key)) hclosed
  rw [Takes]
  simp only [pollReading, Outcome.andThen_answer, Outcome.andThen_state, hanswer]
  exact ⟨rfl, hstore⟩

theorem blockingReader_takes (hclosed : s.channel.writerClosed = true)
    {r : ReaderRequest} {limit : Nat} (hreads : s.reads r = some limit) :
    (∃ m, s.blockingReader r = s.refuse m) ∨ s.Takes limit (s.blockingReader r) := by
  cases r with
  | tryRead limit =>
    cases hreads
    exact Or.inr ⟨rfl, rfl⟩
  | read limit w unpolled =>
    cases unpolled with
    | true => cases hreads
    | false =>
      cases hreads
      exact Or.inr (blockReading_takes limit hclosed)
  | readOnce limit =>
    cases hreads
    exact Or.inr (blockReading_takes limit hclosed)
  | timedRead limit =>
    cases hreads
    exact Or.inr (endTimedReading_takes limit hclosed)
  | readToEnd =>
    cases hreads
    right
    rw [blockingReader, if_pos hclosed]
    exact ⟨rfl, rfl⟩
  | pollRead limit w => exact Or.inl ⟨.mode, rfl⟩
  | poll w => exact Or.inl ⟨.mode, rfl⟩
  | timeUp => exact Or.inl ⟨.mode, rfl⟩
  | cancel => cases hreads
  | toPolled => cases hreads
  | toBlocking => cases hreads
  | info => cases hreads
  | debug => cases hreads
  | drop => cases hreads

theorem polledReader_takes {key : WaitKey} (hclosed : s.channel.writerClosed = true)
    {r : ReaderRequest} {limit : Nat} (hreads : s.reads r = some limit) :
    (∃ m, s.polledReader key r = s.refuse m) ∨ s.Takes limit (s.polledReader key r) := by
  cases r with
  | tryRead limit =>
    cases hreads
    exact Or.inr ⟨rfl, rfl⟩
  | read limit w unpolled =>
    cases unpolled with
    | true => cases hreads
    | false =>
      cases hreads
      exact Or.inr (pollReading_takes w key limit hclosed)
  | pollRead limit w =>
    cases hreads
    obtain ⟨hanswer, hstore⟩ := pollRead_closed w limit (s := (s.channel, key)) hclosed
    right
    rw [Takes]
    simp only [polledReader, Outcome.andThen_answer, Outcome.andThen_state, hanswer]
    exact ⟨rfl, hstore⟩
  | readOnce limit => exact Or.inl ⟨.mode, rfl⟩
  | timedRead limit => exact Or.inl ⟨.mode, rfl⟩
  | readToEnd => exact Or.inl ⟨.mode, rfl⟩
  | poll w => exact Or.inl ⟨.mode, rfl⟩
  | timeUp => exact Or.inl ⟨.mode, rfl⟩
  | cancel => cases hreads
  | toPolled => cases hreads
  | toBlocking => cases hreads
  | info => cases hreads
  | debug => cases hreads
  | drop => cases hreads

/-- After the close every read that its handle can do comes back with what one attempt takes. -/
theorem readerRequest_takes (h : s.AtRest) (hclosed : s.channel.writerClosed = true)
    {r : ReaderRequest} {limit : Nat} (hreads : s.reads r = some limit) :
    (∃ m, s.readerRequest r = s.refuse m) ∨ s.Takes limit (s.readerRequest r) := by
  rw [readerRequest]
  cases hreader : s.reader with
  | blocking => exact blockingReader_takes hclosed hreads
  | polled key => exact polledReader_takes hclosed hreads
  | reading key limit' =>
    cases r with
    | poll w =>
      simp only [reads, hreader, Option.some.injEq] at hreads
      subst hreads
      exact Or.inr (pollReading_takes w key limit' hclosed)
    | cancel => cases hreads
    | drop => cases hreads
    | _ => exact Or.inl ⟨.busy, rfl⟩
  | asleep limit' => exact absurd hreader (h.reader_awake hclosed limit')
  | gone => exact Or.inl ⟨.gone, rfl⟩

/-- An attempt that takes nothing although it may, or all there is, leaves the ring empty. -/
theorem empty_of_takes {limit : Nat} {o : Answer} (hsized : s.channel.store.Sized)
    (h : s.Takes limit o)
    (hall : o.answer = .got [] ∧ limit ≠ 0 ∨ s.channel.store.len.toNat ≤ limit) :
    o.state.channel.store.Empty := by
  obtain ⟨hanswer, hstore⟩ := h
  have hlength := Channel.tryRead_length hsized limit
  obtain ⟨_, hcount⟩ := (s.channel.tryRead_transfers limit).count hsized
  rw [List.length_nil] at hcount
  rw [Store.Empty, hstore]
  rcases hall with ⟨hnone, hsome⟩ | hall
  · rw [hanswer, Reply.got.injEq] at hnone
    rw [hnone, List.length_nil] at hlength hcount
    omega
  · omega

/-- Settling leaves an empty ring empty if its writer is spent. -/
theorem settle_empty (hsized : s.channel.store.Sized) (hspent : s.writer.Spent)
    (hempty : s.channel.store.Empty) : s.settle.state.channel.store.Empty := by
  obtain ⟨put, hput, hmoved⟩ := s.settle_goes.stream
  obtain ⟨_, hcount⟩ := hmoved.count hsized
  have hnone : put = [] := by
    rw [settled_spent hspent, (settle_spent hspent).2, hspent.committed] at hput
    exact hput.trans hspent.committed
  rw [Store.Empty] at hempty ⊢
  rw [hempty, hnone, List.length_nil] at hcount
  omega

theorem settleReader_some {reply : Reply} (h : s.settleReader.answer = some reply) :
    (∃ limit, s.reader = .asleep limit) ∧ s.channel.dataReady.roused ≠ [] := by
  rw [settleReader] at h
  split at h
  · rename_i limit hasleep
    split at h
    · cases h
    · rename_i hroused
      rw [List.isEmpty_iff] at hroused
      exact ⟨⟨limit, hasleep⟩, hroused⟩
  · cases h

theorem settle_reader_mem {reply : Reply} (h : (Side.reader, reply) ∈ s.settle.answer) :
    s.settleReader.answer = some reply := by
  simp only [settle, Outcome.andThen_answer, Outcome.map_answer, List.mem_append, List.mem_map,
    Option.mem_toList] at h
  rcases h with ⟨x, _, hx⟩ | ⟨x, hsome, hx⟩
  · cases hx
  · cases hx
    exact hsome

/-- A read that the close rouses slept over an empty ring. -/
theorem roused_empty (h : s.AtRest) {r : Request}
    (hclosed : (s.advance r).state.channel.writerClosed = true) {reply : Reply}
    (hreturned : (Side.reader, reply) ∈ (s.advance r).answer.2) :
    (s.request r).state.channel.store.Empty := by
  obtain ⟨⟨limit, hasleep⟩, hroused⟩ := settleReader_some (settle_reader_mem hreturned)
  obtain ⟨hguarded, _⟩ := request_guarded h.guarded h.rested r
  have hclosed' : (s.request r).state.channel.writerClosed = true :=
    (settle_writerClosed hguarded).symm.trans hclosed
  cases r with
  | writer r =>
    have ha := writerRequest_answers h.guarded h.rested r
    have hslept : s.reader = .asleep limit := ha.reader.symm.trans hasleep
    have hdata := h.guarded.channel.data
    rw [hslept] at hdata
    obtain ⟨hempty, hopen⟩ := h.guarded.channel.empty (hdata.sleeps_of_thread h.rested.data)
    rcases writerRequest_closes s r with hsame | hidles
    · rw [hsame.symm.trans hclosed'] at hopen
      cases hopen
    · show (s.writerRequest r).state.channel.store.Empty
      rw [hidles.store]
      exact hempty
  | reader r => exact absurd (readerRequest_answers h.guarded h.rested r).rested hroused
  | unknown => exact absurd h.rested.data hroused

/-- What a read leaves behind that came back after the close. -/
theorem readerRequest_empty (h : s.AtRest) {r : ReaderRequest}
    (hclosed : (s.readerRequest r).state.channel.writerClosed = true) {limit : Nat}
    {bytes : List UInt8} (hreads : s.reads r = some limit)
    (hanswer : (s.readerRequest r).answer = .got bytes)
    (hall : bytes = [] ∧ limit ≠ 0 ∨ s.channel.store.len.toNat ≤ limit) :
    (s.readerRequest r).state.channel.store.Empty := by
  have hflag := (readerRequest_answers h.guarded h.rested r).spares.flag
  rcases readerRequest_takes h (hflag.symm.trans hclosed) hreads with ⟨m, hrefused⟩ | htakes
  · rw [hrefused] at hanswer
    cases hanswer
  · apply empty_of_takes h.guarded.channel.sized htakes
    rcases hall with ⟨hnone, hsome⟩ | hall
    · exact Or.inl ⟨hnone ▸ hanswer, hsome⟩
    · exact Or.inr hall

/-- **Where a reader finds the end of a closed stream, the ring is empty.** -/
theorem FindsEnd.empty {r : Request} (hfinds : s.FindsEnd r (s.advance r).answer) (h : s.AtRest)
    (hheeds : s.Heeds r) (hclosed : (s.advance r).state.channel.writerClosed = true) :
    (s.advance r).state.channel.store.Empty := by
  obtain ⟨hguarded, _⟩ := request_guarded h.guarded h.rested r
  have hclosed' : (s.request r).state.channel.writerClosed = true :=
    (settle_writerClosed hguarded).symm.trans hclosed
  have hspent := (request_closed h hheeds).1 hclosed'
  apply settle_empty hguarded.channel.sized hspent
  generalize hanswer : (s.advance r).answer = answer at hfinds
  cases hfinds with
  | answered hreads hsome =>
    have hgot := congrArg Prod.fst hanswer
    exact readerRequest_empty h hclosed' hreads hgot (Or.inl ⟨rfl, hsome⟩)
  | toEnd =>
    have hgot := congrArg Prod.fst hanswer
    exact readerRequest_empty h hclosed' rfl hgot (Or.inr (Nat.le_refl _))
  | roused hreturned =>
    apply roused_empty h hclosed
    rw [hanswer]
    exact hreturned

/-! ### Runs -/

theorem after_append (before after : List Request) :
    ∀ s : Session, s.after (before ++ after) = (s.after before).after after := by
  induction before with
  | nil =>
    intro s
    rfl
  | cons r rs ih =>
    intro s
    exact ih (s.advance r).state

theorem sealed_append (before after : List Request) :
    ∀ s : Session, s.Sealed (before ++ after) ↔ s.Sealed before ∧ (s.after before).Sealed after := by
  induction before with
  | nil =>
    intro s
    exact ⟨fun h => ⟨trivial, h⟩, fun h => h.2⟩
  | cons r rs ih =>
    intro s
    show s.Heeds r ∧ (s.advance r).state.Sealed (rs ++ after) ↔ (s.Heeds r ∧ _) ∧ _
    rw [ih (s.advance r).state, and_assoc]
    rfl

/-- If nothing is committed after a run, the ledger after it lists the same bytes. -/
theorem committed_append (before after : List Request) : ∀ s : Session,
    committedBytes ((s.after before).ledger after) = committedBytes (s.after before).writer.underWay →
      committedBytes (s.ledger (before ++ after)) = committedBytes (s.ledger before) := by
  induction before with
  | nil =>
    intro s h
    exact h
  | cons r rs ih =>
    intro s h
    have hrest := ih (s.advance r).state h
    show committedBytes (s.endedIn r ++ (s.advance r).state.ledger (rs ++ after))
      = committedBytes (s.endedIn r ++ (s.advance r).state.ledger rs)
    rw [committedBytes, committedBytes, List.flatMap_append, List.flatMap_append]
    rw [committedBytes, committedBytes] at hrest
    rw [hrest]

theorem after_atRest (rs : List Request) : ∀ {s : Session}, s.AtRest → s.Sealed rs →
    (s.after rs).AtRest := by
  induction rs with
  | nil =>
    intro s h _
    exact h
  | cons r rs ih =>
    intro s h hsealed
    exact ih (advance_atRest h hsealed.1).1 hsealed.2

/-- **After the close a run commits nothing.** -/
theorem run_commits_nothing (rs : List Request) : ∀ {s : Session}, s.AtRest →
    s.channel.writerClosed = true → s.Sealed rs → committedBytes (s.ledger rs) = [] := by
  induction rs with
  | nil =>
    intro s h hclosed _
    exact (h.spent hclosed).committed
  | cons r rs ih =>
    intro s h hclosed hsealed
    obtain ⟨hatRest, hstays⟩ := advance_atRest h hsealed.1
    have hstep := advance_commits_nothing h hclosed hsealed.1
    have hrest := ih hatRest (hstays hclosed) hsealed.2
    show committedBytes (s.endedIn r ++ (s.advance r).state.ledger rs) = []
    rw [committedBytes, List.flatMap_append]
    rw [committedBytes] at hstep hrest
    rw [hstep, hrest]
    rfl

/-- **In a run from an empty ring with a closed writer reads come back, with nothing.** -/
theorem run_reads_nothing (rs : List Request) : ∀ {s : Session}, s.AtRest →
    s.channel.writerClosed = true → s.channel.store.Empty → s.Sealed rs →
      s.received rs = [] ∧ s.ReadsNothing rs := by
  induction rs with
  | nil =>
    intro s _ _ _ _
    exact ⟨rfl, trivial⟩
  | cons r rs ih =>
    intro s h hclosed hempty hsealed
    obtain ⟨hatRest, hstays⟩ := advance_atRest h hsealed.1
    obtain ⟨hnone, hempty'⟩ := advance_drained h hclosed hempty hsealed.1
    obtain ⟨hreceived, hreads⟩ := ih hatRest (hstays hclosed) hempty' hsealed.2
    refine ⟨?_, ?_, hreads⟩
    · rw [received, hnone, hreceived]
      rfl
    · rintro q limit rfl hlimit
      rcases readerRequest_takes h hclosed hlimit with ⟨m, hrefused⟩ | ⟨hanswer, _⟩
      · right
        refine ⟨m, ?_⟩
        show (s.readerRequest q).answer = _
        rw [hrefused]
        rfl
      · left
        have hnothing : (s.readerRequest q).answer.handed = [] :=
          (List.append_eq_nil_iff.mp hnone).1
        show (s.readerRequest q).answer = _
        rw [hanswer] at hnothing ⊢
        exact congrArg Reply.got hnothing

/-- As many bytes are committed in a run as are received in it or unread after it. -/
theorem run_counts (rs : List Request) : ∀ {s : Session}, s.channel.store.Sized →
    (committedBytes (s.ledger rs)).length + s.channel.store.len.toNat
      = (s.received rs).length + (s.after rs).channel.store.len.toNat
        + (committedBytes s.writer.underWay).length := by
  induction rs with
  | nil =>
    intro s _
    simp only [ledger, received, after, List.length_nil]
    omega
  | cons r rs ih =>
    intro s hsized
    obtain ⟨put, hput, hmoved⟩ := (s.advance_goes r).stream
    obtain ⟨hsized', hcount⟩ := hmoved.count hsized
    have hrest := ih hsized'
    have hbytes := congrArg List.length hput
    simp only [committedBytes, List.flatMap_append, List.length_append] at hbytes
    simp only [ledger, received, after, committedBytes, List.flatMap_append, List.length_append]
      at hrest hcount ⊢
    omega

/-- **The end of a stream is final** if no blocking handle of a closed writer is asked to write.
    After the close nothing is committed; once a read has found the end, later reads come back
    with nothing, and what was read is what was ever committed: as many bytes, and the same bytes
    as long as cursors tell positions apart. -/
theorem end_is_final {capacity : Nat} (hpos : 0 < capacity) (hword : capacity < UInt64.size)
    (observer : Observer) (polled : Bool) (before after : List Request)
    (hsealed : (new capacity observer polled).Sealed (before ++ after))
    (hclosed : ((new capacity observer polled).after before).channel.writerClosed = true) :
    let s := new capacity observer polled
    committedBytes (s.ledger (before ++ after)) = committedBytes (s.ledger before) ∧
      ∀ start r, before = start ++ [r] →
        (s.after start).FindsEnd r ((s.after start).advance r).answer →
        (s.after before).received after = [] ∧ (s.after before).ReadsNothing after ∧
          (s.received before).length = (committedBytes (s.ledger before)).length ∧
          ((committedBytes (s.ledger before)).length < UInt64.size →
            s.received before = committedBytes (s.ledger before)) := by
  intro s
  have hnew : s.AtRest := new_atRest hpos hword observer polled
  obtain ⟨hbefore, hafter⟩ := (sealed_append before after s).mp hsealed
  have hatRest := after_atRest before hnew hbefore
  constructor
  · apply committed_append
    rw [run_commits_nothing after hatRest hclosed hafter]
    exact (hatRest.spent hclosed).committed.symm
  · rintro start r rfl hfinds
    have hstart := (sealed_append start [r] s).mp hbefore
    have hstate : s.after (start ++ [r]) = ((s.after start).advance r).state :=
      after_append start [r] s
    have hempty : (s.after (start ++ [r])).channel.store.Empty := by
      rw [hstate] at hclosed ⊢
      exact hfinds.empty (after_atRest start hnew hstart.1) hstart.2.1 hclosed
    obtain ⟨hreceived, hreads⟩ := run_reads_nothing after hatRest hclosed hempty hafter
    refine ⟨hreceived, hreads, ?_, ?_⟩
    · have hcounts := run_counts (start ++ [r]) hnew.guarded.channel.sized
      have hnone : s.channel.store.len.toNat = 0 ∧ committedBytes s.writer.underWay = [] := by
        cases polled with
        | false => exact ⟨congrArg UInt64.toNat (UInt64.sub_self 0), rfl⟩
        | true => exact ⟨congrArg UInt64.toNat (UInt64.sub_self 0), rfl⟩
      rw [hnone.1, hnone.2, hempty] at hcounts
      exact hcounts.symm
    · intro hshort
      obtain ⟨hcarries, _⟩ := run_remembers (start ++ [r]) (new_remembers hpos hword observer polled)
      obtain ⟨hstream, _, hlen⟩ := hcarries.exact hshort
      have hunread : (s.after (start ++ [r])).channel.store.unread = [] :=
        List.length_eq_zero_iff.mp (hlen.symm.trans hempty)
      rw [hunread, List.append_nil] at hstream
      exact hstream

/-- Three bytes are read after the close, in two goes; then the reader's handle is converted, and the
    polled handle of the writer refuses to write, before and after a conversion there and back. -/
theorem end_is_final_converted :
    let start : List Request :=
      [.writer (.write [1, 2, 3] 7 false), .reader (.pollRead 2 8), .writer .close,
        .reader (.pollRead 2 8)]
    let after : List Request :=
      [.writer (.tryWrite [9]), .reader .toBlocking, .reader (.readOnce 2), .writer .toBlocking,
        .writer .flush, .writer .toPolled, .writer (.pollWrite [9] 7), .writer .drop,
        .reader .readToEnd]
    let before := start ++ [.reader (.pollRead 1 8)]
    let ended := (new 4 .tracing true).after before
    (new 4 .tracing true).Sealed (before ++ after) ∧ ended.channel.writerClosed = true ∧
      ended.received after = [] ∧ ended.ReadsNothing after ∧
      (new 4 .tracing true).received before = [1, 2, 3] ∧
      committedBytes ((new 4 .tracing true).ledger (before ++ after)) = [1, 2, 3] := by
  intro start after before ended
  have hsealed : (new 4 .tracing true).Sealed (before ++ after) := by decide
  have hclosed : ((new 4 .tracing true).after before).channel.writerClosed = true := by decide
  obtain ⟨hnothing, hend⟩ :=
    end_is_final (by decide) (by decide) .tracing true before after hsealed hclosed
  have hanswer : (((new 4 .tracing true).after start).advance (.reader (.pollRead 1 8))).answer
      = (.got [], []) := by decide
  have hfinds : ((new 4 .tracing true).after start).FindsEnd (.reader (.pollRead 1 8))
      (((new 4 .tracing true).after start).advance (.reader (.pollRead 1 8))).answer := by
    rw [hanswer]
    exact .answered rfl Nat.one_ne_zero
  obtain ⟨hreceived, hreads, _, hall⟩ := hend start _ rfl hfinds
  have hbytes : (new 4 .tracing true).received before = [1, 2, 3] := by decide
  have hshort : (committedBytes ((new 4 .tracing true).ledger before)).length < UInt64.size := by
    decide
  refine ⟨hsealed, hclosed, hreceived, hreads, hbytes, ?_⟩
  rw [hnothing, ← hall hshort]
  exact hbytes

/-- **A blocking handle does not look whether its end was closed.**  A polled writer is closed and
    the reader finds the end; the writer is converted, and a byte that it writes is committed
    and read. -/
theorem end_not_final_blocking :
    let s := new 4 .tracing true
    let before : List Request := [.writer .close, .reader (.pollRead 4 8)]
    let after : List Request := [.writer .toBlocking, .writer (.tryWrite [1]), .reader (.pollRead 4 8)]
    (s.after before).channel.writerClosed = true ∧
      (s.after [.writer .close]).FindsEnd (.reader (.pollRead 4 8))
        ((s.after [.writer .close]).advance (.reader (.pollRead 4 8))).answer ∧
      committedBytes (s.ledger before) = [] ∧
      committedBytes (s.ledger (before ++ after)) = [1] ∧
      (s.after before).received after = [1] := by
  intro s before after
  have hanswer : ((s.after [.writer .close]).advance (.reader (.pollRead 4 8))).answer
      = (.got [], []) := by decide
  refine ⟨by decide, ?_, by decide, by decide, by decide⟩
  rw [hanswer]
  exact .answered rfl (by decide)

end Session

end Conduit.Ring

/-
  Conduit/Proofs/Ring/Writing.lean
  ================================
  **The ways to write a buffer come to the same.**

  Whatever the reader does, the same bytes are in the ring after each of its operations and
  the write ends the same way, whichever way it is made.

  Each way is followed beside a machine that has none: the `Flow` of a write is what the
  reader's end sees, how many bytes are committed and how the write stands, and whenever the
  reader has done something the rest of the buffer is pushed.  On its way through its
  answers and wake-ups a write may lag behind that machine, but never by more than one push.
  A write at rest does not lag: it waits in a full ring, where a push does nothing.
-/
import Conduit.Proofs.Ring.PushPull
import Conduit.Proofs.Ring.Ways

namespace Conduit.Ring

open Signal (Slim WaitKey)
open Channel (forReader)

/-! ### Full rings -/

namespace Session

variable {s : Session}

/-- Nobody waits for data in a full ring. -/
theorem awake_of_full (h : s.Guarded) (hdata : s.channel.dataReady.roused = [])
    (hfull : s.channel.store.Full) (limit : Nat) : s.reader ≠ .asleep limit := by
  intro hasleep
  have hattends := h.channel.data
  rw [hasleep] at hattends
  exact h.channel.sized.not_full_empty
    ⟨hfull, (h.channel.empty (hattends.sleeps_of_thread hdata)).1⟩

/-- Nor does a read that goes on in a full ring sleep again. -/
theorem settleReader_awake (h : s.Guarded) (hfull : s.channel.store.Full) (limit : Nat) :
    s.settleReader.state.reader ≠ .asleep limit := by
  cases hreader : s.reader with
  | asleep limit' =>
    by_cases hroused : s.channel.dataReady.roused = []
    · exact absurd hreader (awake_of_full h hroused hfull limit')
    · have hchannel := h.channel
      rw [hreader] at hchannel
      obtain ⟨hkept, hrested, _⟩ := resumeRead_guarded limit' hchannel hroused
      have hpull := resumeRead_pulls limit' hchannel hroused
      rw [settleReader_roused hreader hroused, Outcome.map_state]
      revert hkept hrested hpull
      generalize resumeRead limit' s.channel = o
      obtain ⟨bytes | _, c, effects⟩ := o
      · intro _ _ _ hasleep
        cases hasleep
      · intro hkept hrested hpull _
        have hnone : (pull limit' s.channel.forWriter).1 = none := (congrArg Prod.fst hpull).symm
        have hsame : c.forWriter = s.channel.forWriter :=
          (congrArg Prod.snd hpull).trans (pull_none hnone)
        obtain ⟨data, hdata⟩ := Channel.forWriter_cases hsame
        have hempty := (hkept.empty (hkept.data.sleeps_of_thread hrested)).1
        rw [hdata] at hfull
        exact hkept.sized.not_full_empty ⟨hfull, hempty⟩
  | _ =>
    simp only [settleReader, hreader, Outcome.pure_state]
    intro hasleep
    cases hasleep

end Session

/-! ### Flows -/

/-- A write that is to ask is as good as one that waits. -/
def Standing.overall : Standing → Standing
  | .asking => .waiting
  | standing => standing

theorem Standing.overall_eq {standing : Standing} (h : standing ≠ .asking) :
    standing.overall = standing := by
  cases standing with
  | asking => exact absurd rfl h
  | _ => rfl

/-- How a write stands when nothing more can be pushed. -/
def standingAt (data : List UInt8) (t : Committing) : Standing :=
  if data.length ≤ t.2 then .complete else if t.1.readerClosed then .failed else .waiting

theorem standingAt_complete {data : List UInt8} {t : Committing} (hall : data.length ≤ t.2) :
    standingAt data t = .complete := if_pos hall

theorem standingAt_failed {data : List UInt8} {t : Committing} (hleft : t.2 < data.length)
    (hgone : t.1.readerClosed = true) : standingAt data t = .failed := by
  rw [standingAt, if_neg (Nat.not_le.mpr hleft), if_pos hgone]

theorem standingAt_waiting {data : List UInt8} {t : Committing} (hleft : t.2 < data.length)
    (hopen : t.1.readerClosed = false) : standingAt data t = .waiting := by
  rw [standingAt, if_neg (Nat.not_le.mpr hleft), if_neg (Bool.eq_false_iff.mp hopen)]

/-- What there is to know of a write, however it is made: what the reader's end sees, how many
    bytes are committed, and how it stands. -/
structure Flow where
  side : Session
  committed : Nat
  standing : Standing

namespace Flow

variable {f : Flow} {data : List UInt8}

/-- Commits what fits of the rest of the buffer, if the write is not over. -/
def push (data : List UInt8) (f : Flow) : Flow :=
  if f.standing = .waiting then
    let t := Ring.push data (f.side.channel, f.committed)
    ⟨{ f.side with channel := t.1 }, t.2, standingAt data t⟩
  else f

/-- The reader takes a turn. -/
def listen (f : Flow) (turn : Session → Session) : Flow := { f with side := (turn f.side).forReader }

theorem push_waiting (h : f.standing = .waiting) :
    f.push data =
      ⟨{ f.side with channel := (Ring.push data (f.side.channel, f.committed)).1 },
        (Ring.push data (f.side.channel, f.committed)).2,
        standingAt data (Ring.push data (f.side.channel, f.committed))⟩ := if_pos h

theorem push_over (h : f.standing ≠ .waiting) : f.push data = f := if_neg h

theorem push_twice (h : f.side.channel.store.Sized) :
    (f.push data).push data = f.push data := by
  by_cases hwaits : f.standing = .waiting
  · rw [push_waiting hwaits]
    by_cases hstill : standingAt data (Ring.push data (f.side.channel, f.committed)) = .waiting
    · rw [push_waiting hstill, Ring.push_twice data (s := (f.side.channel, f.committed)) h]
    · rw [push_over hstill]
  · rw [push_over hwaits, push_over hwaits]

/-- Where a push leaves a write waiting there is no room. -/
theorem push_full (h : f.side.channel.store.Sized) (hwaits : f.standing = .waiting)
    (hstill : (f.push data).standing = .waiting) : (f.push data).side.channel.store.Full := by
  obtain ⟨_, hclosed | hall | hfull⟩ :=
    push_rests data (s := (f.side.channel, f.committed)) h
  · rw [push_waiting hwaits] at hstill
    simp only [standingAt, hclosed, if_true] at hstill
    split at hstill
    · cases hstill
    · cases hstill
  · rw [push_waiting hwaits] at hstill
    simp only [standingAt_complete hall] at hstill
    cases hstill
  · rw [push_waiting hwaits]
    exact hfull

end Flow

/-- The flow of a write whose answers say this. -/
def flowOf (s : Session) (a : Account) : Flow :=
  ⟨s.forReader, a.reported + s.writer.inHand, a.standing.overall⟩

/-- A write that has pushed the rest of its buffer has the flow that was pushed. -/
theorem flow_pushed {data : List UInt8} {s s' : Session} {a a' : Account}
    (hwaits : a.standing.overall = .waiting)
    (hseen : (s'.channel.forReader, a'.reported + s'.writer.inHand)
      = push data (s.channel.forReader, a.reported + s.writer.inHand))
    (hreader : s'.reader = s.reader)
    (hstanding : a'.standing.overall
      = standingAt data (s'.channel, a'.reported + s'.writer.inHand)) :
    flowOf s' a' = (flowOf s a).push data := by
  have hpush : (flowOf s a).push data = _ := Flow.push_waiting hwaits
  rw [show Ring.push data ((flowOf s a).side.channel, (flowOf s a).committed)
    = (s'.channel.forReader, a'.reported + s'.writer.inHand) from hseen.symm] at hpush
  rw [hpush, flowOf, hstanding, Session.forReader, hreader]
  rfl

/-! ### The writer's end -/

/-- The writer's end of a write that is to ask. -/
def WriteWay.Asks (way : WriteWay) (data : List UInt8) (e : WriterEnd) (reported : Nat) : Prop :=
  match way with
  | .call => reported = 0 ∧ e = .blocking
  | .parts => reported ≤ data.length ∧ e = .blocking
  | .future _ _ => reported = 0 ∧ ((∃ key, e = .polled key) ∨
      ∃ key written, e = .writing key data written ∧ written ≤ data.length)
  | .polls _ _ => ∃ key, e = .polled key

/-- The writer's end of a write that waits. -/
def WriteWay.Waits (way : WriteWay) (data : List UInt8) (e : WriterEnd) (reported : Nat) : Prop :=
  match way with
  | .call => reported = 0 ∧ ∃ written, e = .asleep .whole data written ∧ written < data.length
  | .parts => reported < data.length ∧ e = .asleep .once (data.drop reported) 0
  | .future _ _ => reported = 0 ∧
      ∃ k written, e = .writing ⟨some k⟩ data written ∧ written < data.length
  | .polls _ _ => reported < data.length ∧ ∃ k, e = .polled ⟨some k⟩

/-- The writer's end is in the shape that the account of the write tells of. -/
def Fits (way : WriteWay) (data : List UInt8) (e : WriterEnd) (a : Account) : Prop :=
  match a.standing with
  | .asking => way.Asks data e a.reported
  | .waiting => way.Waits data e a.reported
  | .complete | .failed => e.isIdle = true

theorem Fits.waits {way : WriteWay} {data : List UInt8} {e : WriterEnd} {a : Account}
    (h : Fits way data e a) (hwaiting : a.standing = .waiting) :
    way.Waits data e a.reported := by
  rw [Fits, hwaiting] at h
  exact h

theorem WriterEnd.idle_inHand {e : WriterEnd} (h : e.isIdle = true) : e.inHand = 0 := by
  cases e with
  | blocking => rfl
  | polled key => rfl
  | _ => cases h

/-- A write that waits has bytes left. -/
theorem WriteWay.Waits.left {way : WriteWay} {data : List UInt8} {e : WriterEnd} {reported : Nat}
    (h : way.Waits data e reported) : reported + e.inHand < data.length := by
  cases way with
  | call =>
    obtain ⟨rfl, written, rfl, hleft⟩ := h
    rwa [Nat.zero_add]
  | parts =>
    obtain ⟨hleft, rfl⟩ := h
    exact hleft
  | future pace w =>
    obtain ⟨rfl, k, written, rfl, hleft⟩ := h
    rwa [Nat.zero_add]
  | polls pace w =>
    obtain ⟨hleft, k, rfl⟩ := h
    exact hleft

/-- An answer to the writer, or a call of it that goes on, leaves the flow that is pushed.  A write
    that waits then sleeps in its signal, and one that is to ask again has come further. -/
structure Pushes (way : WriteWay) (data : List UInt8) (s : Session) (a : Account) (s' : Session)
    (a' : Account) : Prop where
  flow : flowOf s' a' = (flowOf s a).push data
  fits : Fits way data s'.writer a'
  sleeps : a'.standing = .waiting → Sleeps s'.channel.spaceReady
  more : a'.standing = .asking → a.reported < a'.reported ∧ a'.reported < data.length

namespace Pushes

variable {way : WriteWay} {data : List UInt8} {s s' : Session} {a : Account} {n : Nat}

/-- All bytes are committed. -/
theorem complete (hwaits : a.standing.overall = .waiting)
    (hseen : (s'.channel.forReader, n)
      = push data (s.channel.forReader, a.reported + s.writer.inHand))
    (hreader : s'.reader = s.reader) (hidle : s'.writer.isIdle = true) (hall : data.length ≤ n) :
    Pushes way data s a s' ⟨n, .complete⟩ := by
  have hnone := WriterEnd.idle_inHand hidle
  constructor
  · refine flow_pushed hwaits (hnone ▸ hseen) hreader ?_
    rw [hnone]
    exact (standingAt_complete hall).symm
  · exact hidle
  · intro hwaiting
    cases hwaiting
  · intro hasking
    cases hasking

/-- The reader is gone. -/
theorem failed (hwaits : a.standing.overall = .waiting)
    (hseen : (s'.channel.forReader, n)
      = push data (s.channel.forReader, a.reported + s.writer.inHand))
    (hreader : s'.reader = s.reader) (hidle : s'.writer.isIdle = true) (hleft : n < data.length)
    (hgone : s'.channel.readerClosed = true) : Pushes way data s a s' ⟨n, .failed⟩ := by
  have hnone := WriterEnd.idle_inHand hidle
  constructor
  · refine flow_pushed hwaits (hnone ▸ hseen) hreader ?_
    rw [hnone]
    exact (standingAt_failed hleft hgone).symm
  · exact hidle
  · intro hwaiting
    cases hwaiting
  · intro hasking
    cases hasking

/-- There is no room. -/
theorem waiting (hwaits : a.standing.overall = .waiting)
    (hseen : (s'.channel.forReader, n + s'.writer.inHand)
      = push data (s.channel.forReader, a.reported + s.writer.inHand))
    (hreader : s'.reader = s.reader) (hend : way.Waits data s'.writer n)
    (hopen : s'.channel.readerClosed = false) (hsleeps : Sleeps s'.channel.spaceReady) :
    Pushes way data s a s' ⟨n, .waiting⟩ := by
  constructor
  · exact flow_pushed hwaits hseen hreader (standingAt_waiting hend.left hopen).symm
  · exact hend
  · intro _
    exact hsleeps
  · intro hasking
    cases hasking

/-- Some bytes are committed, and more are to be asked for. -/
theorem asking (hwaits : a.standing.overall = .waiting)
    (hseen : (s'.channel.forReader, n)
      = push data (s.channel.forReader, a.reported + s.writer.inHand))
    (hreader : s'.reader = s.reader) (hend : way.Asks data s'.writer n)
    (hidle : s'.writer.isIdle = true) (hmore : a.reported < n) (hleft : n < data.length)
    (hopen : s'.channel.readerClosed = false) : Pushes way data s a s' ⟨n, .asking⟩ := by
  have hnone := WriterEnd.idle_inHand hidle
  constructor
  · refine flow_pushed hwaits (hnone ▸ hseen) hreader ?_
    rw [hnone]
    exact (standingAt_waiting hleft hopen).symm
  · exact hend
  · intro hwaiting
    cases hwaiting
  · intro _
    exact ⟨hmore, hleft⟩

/-- A count is reported. -/
theorem counted (hwaits : a.standing.overall = .waiting) (hnone : s.writer.inHand = 0)
    (hseen : (s'.channel.forReader, a.reported + n)
      = push data (s.channel.forReader, a.reported + s.writer.inHand))
    (hreader : s'.reader = s.reader) (hend : way.Asks data s'.writer (a.reported + n))
    (hidle : s'.writer.isIdle = true) (hsome : data.length ≤ a.reported + n ∨ 0 < n) :
    Pushes way data s a s' (a.hear data.length (.count n)) := by
  show Pushes way data s a s'
    ⟨a.reported + n, if data.length ≤ a.reported + n then .complete else .asking⟩
  by_cases hdone : data.length ≤ a.reported + n
  · rw [if_pos hdone]
    exact complete hwaits hseen hreader hidle hdone
  · rw [if_neg hdone]
    have hmore : a.reported + s.writer.inHand < a.reported + n := by omega
    exact asking hwaits hseen hreader hend hidle (by omega) (by omega) (push_open hseen hmore)

end Pushes

/-! ### Blocking ways -/

theorem isOver_whole {written total : Nat} :
    WriteMode.whole.isOver written total = true ↔ total ≤ written := by
  simp only [WriteMode.isOver, Bool.or_eq_true, Bool.and_eq_true, beq_iff_eq, decide_eq_true_eq,
    reduceCtorEq, false_and, or_false]

theorem isOver_once {written total : Nat} :
    WriteMode.once.isOver written total = true ↔ total ≤ written ∨ 0 < written := by
  simp only [WriteMode.isOver, Bool.or_eq_true, Bool.and_eq_true, beq_iff_eq, decide_eq_true_eq,
    true_and]

theorem left_of_whole {written total : Nat} (h : WriteMode.whole.isOver written total = false) :
    written < total := by
  rw [← Bool.not_eq_true, isOver_whole] at h
  exact Nat.lt_of_not_le h

/-- A write in one go that is not over has not committed anything. -/
theorem left_of_once {written total : Nat} (h : WriteMode.once.isOver written total = false) :
    written = 0 ∧ 0 < total := by
  rw [← Bool.not_eq_true, isOver_once] at h
  omega

/-- How a blocking way uses its calls: the whole buffer in one, or what one go can commit. -/
def WriteWay.Blocks (way : WriteWay) (mode : WriteMode) (reported written : Nat) : Prop :=
  way = .call ∧ mode = .whole ∧ reported = 0 ∨ way = .parts ∧ mode = .once ∧ written = 0

variable {way : WriteWay} {data : List UInt8} {s : Session} {a : Account}

/-- A blocking call that returns or sleeps after one push. -/
theorem blockWriting_pushes {mode : WriteMode} {i : Nat}
    {o : Outcome (Blocking (Except RingClosed Nat)) Committing}
    (hblocks : way.Blocks mode a.reported i) (hwaits : a.standing.overall = .waiting)
    (hi : s.writer.inHand = i) (hle : a.reported + i ≤ data.length)
    (hseen : beside forReader o.state = push (data.drop a.reported) (s.channel.forReader, i))
    (htells : o.answer.Tells mode (data.drop a.reported) o.state)
    (hguarded : Channel.Guarded (o.answer.occupant .writer) s.reader.occupant o.state.1)
    (hrested : o.state.1.spaceReady.roused = []) :
    Pushes way data s a (s.blockWriting mode (data.drop a.reported) o).state
      (a.hear data.length (s.blockWriting mode (data.drop a.reported) o).answer) := by
  have hpush : (o.state.1.forReader, a.reported + o.state.2)
      = push data (s.channel.forReader, a.reported + s.writer.inHand) := by
    rw [hi, push_drop, ← hseen]
    rfl
  have hbound : a.reported + o.state.2 ≤ data.length := by
    have hle' := push_le data (s := (s.channel.forReader, a.reported + s.writer.inHand)) (hi ▸ hle)
    rw [← hpush] at hle'
    exact hle'
  clear hseen
  obtain ⟨(e | n) | _, ⟨c, j⟩, effects⟩ := o <;> dsimp only at htells hguarded hrested hpush hbound
  · obtain ⟨rfl, hover, hgone⟩ := htells
    rcases hblocks with ⟨rfl, rfl, hzero⟩ | ⟨rfl, rfl, hzero⟩
    · have hleft := left_of_whole hover
      rw [List.length_drop] at hleft
      exact Pushes.failed hwaits hpush rfl rfl (show a.reported + j < data.length by omega) hgone
    · obtain ⟨rfl, hleft⟩ := left_of_once hover
      rw [List.length_drop] at hleft
      exact Pushes.failed hwaits hpush rfl rfl (show a.reported + 0 < data.length by omega) hgone
  · obtain ⟨rfl, hover⟩ := htells
    rcases hblocks with ⟨rfl, rfl, hzero⟩ | ⟨rfl, rfl, hzero⟩
    · have hall := isOver_whole.mp hover
      rw [List.length_drop] at hall
      have htotal : data.length = a.reported + n := by omega
      exact Pushes.complete hwaits (htotal ▸ hpush) rfl rfl (Nat.le_refl _)
    · have hall := isOver_once.mp hover
      rw [List.length_drop] at hall
      exact Pushes.counted hwaits (hi.trans hzero) hpush rfl ⟨hbound, rfl⟩ rfl (by omega)
  · have hsleeps : Sleeps c.spaceReady := hguarded.space.sleeps_of_thread hrested
    have hover : mode.isOver j (data.drop a.reported).length = false := htells
    refine Pushes.waiting hwaits hpush rfl ?_ (hguarded.full hsleeps).2 hsleeps
    rcases hblocks with ⟨rfl, rfl, hzero⟩ | ⟨rfl, rfl, hzero⟩
    · have hleft := left_of_whole hover
      rw [hzero] at hleft ⊢
      exact ⟨rfl, j, rfl, hleft⟩
    · obtain ⟨rfl, hleft⟩ := left_of_once hover
      rw [List.length_drop] at hleft
      exact ⟨by omega, rfl⟩

/-- A call that sleeps is one of a blocking way, and waits. -/
theorem Fits.asleep {mode : WriteMode} {rest : List UInt8} {i : Nat}
    (h : Fits way data (.asleep mode rest i) a) :
    a.standing = .waiting ∧ rest = data.drop a.reported ∧ way.Blocks mode a.reported i ∧
      a.reported + i < data.length := by
  obtain ⟨reported, standing⟩ := a
  cases standing with
  | waiting =>
    have hleft := WriteWay.Waits.left h
    cases way with
    | call =>
      obtain ⟨hzero, written, hend, _⟩ := h
      cases hend
      obtain rfl : reported = 0 := hzero
      exact ⟨rfl, rfl, Or.inl ⟨rfl, rfl, rfl⟩, hleft⟩
    | parts =>
      obtain ⟨_, hend⟩ := h
      cases hend
      exact ⟨rfl, rfl, Or.inr ⟨rfl, rfl, rfl⟩, hleft⟩
    | future pace w =>
      obtain ⟨_, k, written, hend, _⟩ := h
      cases hend
    | polls pace w =>
      obtain ⟨_, k, hend⟩ := h
      cases hend
  | asking =>
    cases way with
    | call => cases h.2
    | parts => cases h.2
    | future pace w =>
      obtain ⟨_, ⟨key, hend⟩ | ⟨key, written, hend, _⟩⟩ := h
      · cases hend
      · cases hend
    | polls pace w =>
      obtain ⟨key, hend⟩ := h
      cases hend
  | complete => cases h
  | failed => cases h

/-- A write that goes on after its thread was roused does one push. -/
theorem settleWriter_pushes (h : s.Guarded) (hfits : Fits way data s.writer a) :
    s.settleWriter = .pure none s ∨
      Pushes way data s a s.settleWriter.state
        (s.settleWriter.answer.toList.foldl (Account.hear data.length) a) := by
  cases hwriter : s.writer with
  | asleep mode rest i =>
    have hchannel := h.channel
    rw [hwriter] at hchannel hfits
    by_cases hroused : s.channel.spaceReady.roused = []
    · left
      simp only [Session.settleWriter, hwriter, hroused, List.isEmpty_nil, if_true]
    · right
      obtain ⟨hwaiting, rfl, hblocks, hleft⟩ := hfits.asleep
      have hfirst : mode = .once → i = 0 := by
        intro hmode
        rcases hblocks with ⟨_, hwhole, _⟩ | ⟨_, _, hzero⟩
        · rw [hmode] at hwhole
          cases hwhole
        · exact hzero
      obtain ⟨hkept, hrested⟩ :=
        resumeWrite_guarded mode (data.drop a.reported) (s := (s.channel, i)) hchannel hroused
      obtain ⟨hseen, htells⟩ := resumeWrite_pushes mode (data.drop a.reported)
        (s := (s.channel, i)) hchannel hroused hfirst
      have hpushes := blockWriting_pushes (s := s) hblocks
        (show a.standing.overall = .waiting by rw [hwaiting]; rfl) (by rw [hwriter]; rfl)
        (Nat.le_of_lt hleft) hseen htells hkept hrested
      simp only [Session.settleWriter, hwriter, List.isEmpty_iff, hroused, if_false,
        Outcome.map_state, Outcome.map_answer]
      rw [hear_resumed (show a.hear data.length .started = a by rw [Account.hear, ← hwaiting])]
      exact hpushes
  | _ =>
    left
    simp only [Session.settleWriter, hwriter]

/-! ### Polled ways -/

/-- A guarded writer that sleeps found no room, and the reader there. -/
theorem Channel.Guarded.open_of_task {writer reader : Occupant} {c : Channel} {k : UInt64}
    {w : Waker} (h : c.Guarded writer reader) (htasks : c.spaceReady.tasks = [(k, w)]) :
    Sleeps c.spaceReady ∧ c.readerClosed = false := by
  have hsleeps := sleeps_of_tasks htasks
  exact ⟨hsleeps, (h.full hsleeps).2⟩

/-- A poll of a write of the whole buffer does one push. -/
theorem pollWriting_pushes (pace : Pace) (w : Waker) {key : WaitKey} {written : Nat}
    (h : s.Guarded) (hopen : s.channel.writerClosed = false)
    (hoccupant : s.writer.occupant = occupant key) (hwaits : a.standing.overall = .waiting)
    (hzero : a.reported = 0) (hi : s.writer.inHand = written) (hle : written ≤ data.length) :
    Pushes (.future pace w) data s a (s.pollWriting w key data written).state
      (a.hear data.length (s.pollWriting w key data written).answer) := by
  have hchannel := h.channel
  rw [hoccupant] at hchannel
  obtain ⟨hkept, hpending⟩ :=
    pollWriteAll_guarded w data (s := ((s.channel, key), written)) hchannel
  obtain ⟨hseen, htells⟩ := pollWriteAll_pushes w data (s := ((s.channel, key), written))
    hchannel hopen
  obtain ⟨reported, standing⟩ := a
  obtain rfl : reported = 0 := hzero
  have hbound := push_le data (s := (s.channel.forReader, written)) hle
  rw [show push data (s.channel.forReader, written) = _ from hseen.symm] at hbound
  rw [show Writing.seen ((s.channel, key), written) = (s.channel.forReader, 0 + s.writer.inHand) by
    rw [hi, Nat.zero_add]; rfl] at hseen
  simp only [Session.pollWriting]
  revert hkept hpending hseen htells hbound
  generalize pollWriteAll w data ((s.channel, key), written) = o
  intro hkept hpending hseen htells hbound
  obtain ⟨(e | _) | _, ⟨⟨c, key'⟩, j⟩, effects⟩ := o
  · obtain ⟨he, hleft, hgone⟩ := htells
    obtain rfl : e = ⟨j⟩ := he
    have hpush : (c.forReader, 0 + j) = push data (s.channel.forReader, 0 + s.writer.inHand) := by
      rw [Nat.zero_add]
      exact hseen
    exact Pushes.failed hwaits hpush rfl rfl
      (show 0 + j < data.length from (Nat.zero_add j).symm ▸ hleft) hgone
  · have hall : data.length ≤ j := htells
    have htotal : j = data.length := Nat.le_antisymm hbound hall
    have hpush : (c.forReader, data.length)
        = push data (s.channel.forReader, 0 + s.writer.inHand) := by
      rw [← htotal]
      exact hseen
    exact Pushes.complete hwaits hpush rfl rfl (Nat.le_refl _)
  · obtain ⟨k, rfl, htasks⟩ := hpending rfl
    obtain ⟨hsleeps, hthere⟩ := hkept.open_of_task htasks
    have hpush : (c.forReader, 0 + j) = push data (s.channel.forReader, 0 + s.writer.inHand) := by
      rw [Nat.zero_add]
      exact hseen
    exact Pushes.waiting hwaits hpush rfl ⟨rfl, k, j, rfl, htells⟩ hthere hsleeps

/-- A poll of a partial write does one push. -/
theorem pollWrite_request_pushes (pace : Pace) (w : Waker) {key : WaitKey}
    (h : s.Guarded) (hopen : s.channel.writerClosed = false) (hwriter : s.writer = .polled key)
    (hwaits : a.standing.overall = .waiting) :
    Pushes (.polls pace w) data s a
      (s.polledWriter key (.pollWrite (data.drop a.reported) w)).state
      (a.hear data.length (s.polledWriter key (.pollWrite (data.drop a.reported) w)).answer) := by
  have hchannel := h.channel
  rw [hwriter] at hchannel
  have hnone : s.writer.inHand = 0 := by
    rw [hwriter]
    rfl
  obtain ⟨hkept, hleaves⟩ := pollWrite_guarded w (data.drop a.reported) (s := (s.channel, key))
    hchannel
  simp only [Session.polledWriter]
  by_cases hleft : a.reported < data.length
  · obtain ⟨hpush, hclosed⟩ := pollWrite_pushes w hleft (s := (s.channel, key)) hchannel hopen
    have hsome : data.drop a.reported ≠ [] := by
      rw [Ne, List.drop_eq_nil_iff]
      omega
    have hpos := fun n => pollWrite_pos w hsome (s.channel, key) (n := n)
    rw [show (s.channel.forReader, a.reported)
      = (s.channel.forReader, a.reported + s.writer.inHand) by rw [hnone, Nat.add_zero]] at hpush
    revert hkept hleaves hpush hclosed hpos
    generalize pollWrite w (data.drop a.reported) (s.channel, key) = o
    intro hkept hleaves hpush hclosed hpos
    obtain ⟨(e | n) | _, ⟨c, key'⟩, effects⟩ := o
    · obtain ⟨rfl, hgone⟩ := hclosed e rfl
      have hclosed := push_readerClosed data
        (s.channel.forReader, a.reported + s.writer.inHand)
      rw [← hpush] at hclosed
      exact Pushes.failed hwaits hpush rfl rfl hleft (hclosed.trans hgone)
    · exact Pushes.counted hwaits hnone hpush rfl ⟨key', rfl⟩ rfl (Or.inr (hpos n rfl))
    · obtain ⟨k, hk, htasks⟩ := hleaves
      obtain rfl : key' = ⟨some k⟩ := hk
      obtain ⟨hsleeps, hthere⟩ := hkept.open_of_task htasks
      exact Pushes.waiting hwaits hpush rfl ⟨hleft, k, rfl⟩ hthere hsleeps
  · have hall : data.length ≤ a.reported := Nat.le_of_not_lt hleft
    have hsame : pollWrite w (data.drop a.reported) (s.channel, key)
        = .pure (.ready (.ok 0)) (s.channel, key) := by
      rw [List.drop_eq_nil_of_le hall, pollWrite, if_neg (Bool.eq_false_iff.mp hopen),
        if_pos List.isEmpty_nil]
    rw [hsame]
    refine Pushes.counted hwaits hnone ?_ rfl ⟨key, rfl⟩ rfl (Or.inl hall)
    rw [hnone, push_idle (s := (s.channel.forReader, a.reported + 0)) h.channel.sized (Or.inl hall)]
    rfl

/-- **Each request of a write does one push**, whichever way the write goes. -/
theorem next_pushes (h : s.Guarded) (hopen : s.channel.writerClosed = false)
    (hasking : a.standing = .asking) (hfits : Fits way data s.writer a) :
    Pushes way data s a (s.writerRequest (way.next data s.writer a.reported)).state
      (a.hear data.length (s.writerRequest (way.next data s.writer a.reported)).answer) := by
  have hwaits : a.standing.overall = .waiting := by
    rw [hasking]
    rfl
  have hasks : way.Asks data s.writer a.reported := by
    rw [Fits, hasking] at hfits
    exact hfits
  have hchannel := h.channel
  cases way with
  | call =>
    obtain ⟨hzero, hwriter⟩ := hasks
    rw [hwriter] at hchannel
    obtain ⟨hkept, hrested⟩ := blockingWrite_guarded .whole data (s := (s.channel, 0)) hchannel
    obtain ⟨hseen, htells⟩ := blockingWrite_pushes .whole data (s := (s.channel, 0)) hchannel
      (fun _ => rfl)
    have hnone : s.writer.inHand = 0 := by
      rw [hwriter]
      rfl
    have hpushes : Pushes .call data s a _ _ := blockWriting_pushes
      (Or.inl ⟨rfl, rfl, hzero⟩) hwaits hnone (by rw [hzero]; exact Nat.zero_le _)
      (by rw [hzero]; exact hseen) (by rw [hzero]; exact htells) hkept hrested
    rw [hzero] at hpushes
    simp only [WriteWay.next, Session.writerRequest, hwriter]
    exact hpushes
  | parts =>
    obtain ⟨hle, hwriter⟩ := hasks
    rw [hwriter] at hchannel
    obtain ⟨hkept, hrested⟩ := blockingWrite_guarded .once (data.drop a.reported)
      (s := (s.channel, 0)) hchannel
    obtain ⟨hseen, htells⟩ := blockingWrite_pushes .once (data.drop a.reported)
      (s := (s.channel, 0)) hchannel (fun _ => rfl)
    have hnone : s.writer.inHand = 0 := by
      rw [hwriter]
      rfl
    have hpushes : Pushes .parts data s a _ _ := blockWriting_pushes
      (Or.inr ⟨rfl, rfl, rfl⟩) hwaits hnone hle hseen htells hkept hrested
    simp only [WriteWay.next, Session.writerRequest, hwriter]
    exact hpushes
  | future pace w =>
    obtain ⟨hzero, ⟨key, hwriter⟩ | ⟨key, written, hwriter, hle⟩⟩ := hasks
    · have hpushes := pollWriting_pushes pace w h hopen (show s.writer.occupant = occupant key by
        rw [hwriter]; rfl) hwaits hzero (by rw [hwriter]; rfl) (Nat.zero_le data.length)
      simp only [WriteWay.next, Session.writerRequest, hwriter]
      exact hpushes
    · have hpushes := pollWriting_pushes pace w h hopen (show s.writer.occupant = occupant key by
        rw [hwriter]; rfl) hwaits hzero (by rw [hwriter]; rfl) hle
      simp only [WriteWay.next, Session.writerRequest, hwriter]
      exact hpushes
  | polls pace w =>
    obtain ⟨key, hwriter⟩ := hasks
    have hpushes : Pushes (.polls pace w) data s a _ _ :=
      pollWrite_request_pushes pace w h hopen hwriter hwaits
    simp only [WriteWay.next, Session.writerRequest, hwriter] at hpushes ⊢
    exact hpushes

/-! ### The reader's turns -/

/-- A read that goes on is a turn of the reader. -/
theorem flow_settleReader (s : Session) (a : Account) :
    flowOf s.settleReader.state a = (flowOf s a).listen fun t => t.settleReader.state := by
  have halike := (Session.settleReader_alike (s := s) (t := s.forReader) rfl).state
  rw [flowOf, Session.settleReader_writer, halike]
  rfl

/-- A request of the reader is a turn of it. -/
theorem flow_readerRequest (h : s.Guarded) (rested : s.Rested) (a : Account) (r : ReaderRequest) :
    flowOf (s.readerRequest r).state a
      = (flowOf s a).listen fun t => (t.readerRequest r).state := by
  have halike := (Session.readerRequest_alike (s := s) (t := s.forReader) rfl r).state
  rw [flowOf, (Session.readerRequest_answers h rested r).writer, halike]
  rfl

theorem Flow.push_writerClosed (data : List UInt8) (f : Flow) :
    (f.push data).side.channel.writerClosed = f.side.channel.writerClosed := by
  rw [push]
  split
  · exact Ring.push_writerClosed data (f.side.channel, f.committed)
  · rfl

theorem Pushes.unclosed {s' : Session} {a' : Account} (h : Pushes way data s a s' a')
    (hopen : s.channel.writerClosed = false) : s'.channel.writerClosed = false := by
  have hflag := Flow.push_writerClosed data (flowOf s a)
  rw [← h.flow] at hflag
  exact hflag.trans hopen

theorem Flow.waiting_of_push {f : Flow} (h : (f.push data).standing = .waiting) :
    f.standing = .waiting := by
  by_contra hover
  rw [push_over hover] at h
  exact hover h

theorem Pushes.waited {s' : Session} {a' : Account} (h : Pushes way data s a s' a')
    (hstill : a'.standing.overall = .waiting) : a.standing.overall = .waiting := by
  have hwaiting : ((flowOf s a).push data).standing = .waiting := by
    rw [← h.flow]
    exact hstill
  exact Flow.waiting_of_push hwaiting

/-- A write that did a push and is not over has found the ring full. -/
theorem Pushes.full {s' : Session} {a' : Account} (h : Pushes way data s a s' a')
    (hsized : s.channel.store.Sized) (hstill : a'.standing.overall = .waiting) :
    s'.channel.store.Full := by
  have hwaiting : ((flowOf s a).push data).standing = .waiting := by
    rw [← h.flow]
    exact hstill
  have hfull := Flow.push_full (f := flowOf s a) hsized (h.waited hstill) hwaiting
  rw [← h.flow] at hfull
  exact hfull

/-- What becomes of a write when a call that was roused goes on: the rest of its buffer is pushed,
    or is still to be pushed. -/
structure Settles (way : WriteWay) (data : List UInt8) (s : Session) (a : Account) (s' : Session)
    (a' : Account) : Prop where
  fits : Fits way data s'.writer a'
  unclosed : s'.channel.writerClosed = false
  flow : (flowOf s' a').push data = (flowOf s a).push data
  reader : s'.reader = s.reader
  waited : a'.standing.overall = .waiting → a.standing.overall = .waiting
  more : a'.standing = .asking → a' = a ∨ a.reported < a'.reported ∧ a'.reported < data.length

/-- What follows from a request: a read that was roused takes its turn, and then a write that
    blocks is pushed on if there is room for it. -/
theorem settle_settles (h : s.Guarded) (hpoised : s.Poised)
    (hopen : s.channel.writerClosed = false) (hfits : Fits way data s.writer a) :
    Settles way data s.settleReader.state a s.settle.state
      ((resultsOf .writer s.settle.answer).foldl (Account.hear data.length) a) := by
  obtain ⟨hguarded, _, _⟩ := Session.settleReader_guarded h hpoised
  have hopen' := (Session.settleReader_writerClosed h).trans hopen
  have hfits' : Fits way data s.settleReader.state.writer a := by
    rw [Session.settleReader_writer]
    exact hfits
  rw [s.results_settle.2]
  show Settles way data s.settleReader.state a s.settleReader.state.settleWriter.state _
  rcases settleWriter_pushes hguarded hfits' with hsame | hpushes
  · rw [hsame]
    exact ⟨hfits', hopen', rfl, rfl, fun hstill => hstill, fun _ => Or.inl rfl⟩
  · constructor
    · exact hpushes.fits
    · exact hpushes.unclosed hopen'
    · rw [hpushes.flow, Flow.push_twice hguarded.channel.sized]
    · exact Session.settleWriter_reader _
    · exact hpushes.waited
    · intro hasking
      exact Or.inr (hpushes.more hasking)

namespace WriteCourse

variable {c : WriteCourse}

/-- The ring is guarded and at rest, and the writer's end is in the shape that the answers tell. -/
structure Sound (way : WriteWay) (data : List UInt8) (c : WriteCourse) : Prop where
  guarded : c.session.Guarded
  rested : c.session.Rested
  noted : c.session.NotedIn c.seen
  unclosed : c.session.channel.writerClosed = false
  fits : Fits way data c.session.writer c.account

/-- No read sleeps. -/
def Awake (c : WriteCourse) : Prop := ∀ limit, c.session.reader ≠ .asleep limit

/-- The flow of the write. -/
def flow (c : WriteCourse) : Flow := flowOf c.session c.account

theorem Sound.sized (h : c.Sound way data) : c.flow.side.channel.store.Sized :=
  h.guarded.channel.sized

/-- After a request the ring is guarded and at rest again. -/
theorem Sound.request (h : c.Sound way data) (r : Request)
    (hopen : (c.request data r).session.channel.writerClosed = false)
    (hfits : Fits way data (c.request data r).session.writer (c.request data r).account) :
    (c.request data r).Sound way data := by
  obtain ⟨hguarded, hrested, hnoted⟩ := Session.after_noted [r] h.guarded h.rested h.noted
  exact ⟨hguarded, hrested, hnoted, hopen, hfits⟩

/-- While no read sleeps, a request of the writer does one push and nothing else happens. -/
theorem Sound.asks (h : c.Sound way data) (hasking : c.account.standing = .asking)
    (hawake : c.Awake) :
    let c' := c.request data (.writer (way.next data c.session.writer c.account.reported))
    c'.Sound way data ∧ c'.Awake ∧
      Pushes way data c.session c.account c'.session c'.account := by
  intro c'
  have ha := Session.writerRequest_answers h.guarded h.rested
    (way.next data c.session.writer c.account.reported)
  have hpushes := next_pushes h.guarded h.unclosed hasking h.fits
  have hkept : ∀ limit, (c.session.writerRequest
      (way.next data c.session.writer c.account.reported)).state.reader ≠ .asleep limit := by
    rw [ha.reader]
    exact hawake
  have hstill := Session.settle_rested
    ⟨ha.rested, Session.awake_reader_rested (ha.guarded h.guarded).channel.data hkept⟩
  have hsession : c'.session = (c.session.writerRequest
      (way.next data c.session.writer c.account.reported)).state := by
    show (c.session.writerRequest _).state.settle.state = _
    rw [hstill]
    rfl
  have haccount : c'.account = c.account.hear data.length (c.session.writerRequest
      (way.next data c.session.writer c.account.reported)).answer := by
    show (resultsOf .writer (c.session.writerRequest _).state.settle.answer).foldl _ _ = _
    rw [hstill]
    rfl
  rw [← hsession, ← haccount] at hpushes
  refine ⟨h.request _ (hpushes.unclosed h.unclosed) hpushes.fits, ?_, hpushes⟩
  intro limit
  rw [hsession]
  exact hkept limit

/-- What a request of the writer leads to when a read may sleep: the read takes its turn, and then
    a write that blocks goes on. -/
theorem Sound.asks_first (h : c.Sound way data) (hasking : c.account.standing = .asking)
    (hfirst : c.account.reported = 0) :
    let c' := c.request data (.writer (way.next data c.session.writer c.account.reported))
    c'.Sound way data ∧ (c'.account.standing.overall = .waiting → c'.Awake) ∧
      c'.flow.push data
        = ((c.flow.push data).listen fun t => t.settleReader.state).push data ∧
      (c'.account.standing = .asking →
        0 < c'.account.reported ∧ c'.account.reported < data.length) := by
  intro c'
  have ha := Session.writerRequest_answers h.guarded h.rested
    (way.next data c.session.writer c.account.reported)
  have hpushes := next_pushes h.guarded h.unclosed hasking h.fits
  have hguarded := ha.guarded h.guarded
  have hsettles := settle_settles hguarded (fun hroused => absurd ha.rested hroused)
    (hpushes.unclosed h.unclosed) hpushes.fits
  refine ⟨h.request _ hsettles.unclosed hsettles.fits, ?_, ?_, ?_⟩
  · intro hwaiting limit
    have hfull := hpushes.full h.guarded.channel.sized (hsettles.waited hwaiting)
    show (c.session.writerRequest _).state.settle.state.reader ≠ .asleep limit
    rw [hsettles.reader]
    exact Session.settleReader_awake hguarded hfull limit
  · have hflow := hsettles.flow
    rw [flow_settleReader, hpushes.flow] at hflow
    exact hflow
  · intro hasking'
    rcases hsettles.more hasking' with hsame | hmore
    · have hreported : c'.account.reported = (c.account.hear data.length
        (c.session.writerRequest _).answer).reported := congrArg Account.reported hsame
      obtain ⟨hasked, hleft⟩ := hpushes.more (hsame ▸ hasking')
      omega
    · exact ⟨Nat.lt_of_le_of_lt (Nat.zero_le _) hmore.1, hmore.2⟩

/-- A write at rest: it has nothing to ask, and if it waits it sleeps in its signal. -/
structure Rests (c : WriteCourse) : Prop where
  unasked : c.account.standing ≠ .asking
  sleeps : c.account.standing = .waiting → Sleeps c.session.channel.spaceReady

/-- A write at rest does not lag behind its flow. -/
theorem Sound.rests (h : c.Sound way data) (hrests : c.Rests) : c.flow.push data = c.flow := by
  by_cases hwaiting : c.account.standing = .waiting
  · obtain ⟨hfull, hthere⟩ := h.guarded.channel.full (hrests.sleeps hwaiting)
    have hleft := (h.fits.waits hwaiting).left
    have hoverall : c.flow.standing = .waiting := by
      show c.account.standing.overall = .waiting
      rw [hwaiting]
      rfl
    have hpush : push data (c.flow.side.channel, c.flow.committed)
        = (c.flow.side.channel, c.flow.committed) :=
      push_idle (s := (c.flow.side.channel, c.flow.committed)) h.sized (Or.inr hfull)
    have hstanding : standingAt data (c.flow.side.channel, c.flow.committed) = c.flow.standing :=
      (standingAt_waiting hleft hthere).trans hoverall.symm
    rw [Flow.push_waiting hoverall, hpush, hstanding]
  · apply Flow.push_over
    show c.account.standing.overall ≠ .waiting
    rw [Standing.overall_eq hrests.unasked]
    exact hwaiting

/-- A request of the reader is its turn, and then a write that blocks goes on. -/
theorem Sound.awaits (h : c.Sound way data) (hrests : c.Rests) (r : ReaderRequest) :
    let c' := c.request data (.reader r)
    c'.Sound way data ∧ (c'.account.standing.overall = .waiting → c'.Awake) ∧
      c'.flow.push data
        = (c.flow.listen fun t => (t.readerRequest r).state).push data := by
  intro c'
  have ha := Session.readerRequest_answers h.guarded h.rested r
  obtain ⟨hguarded, hpoised⟩ : (c.session.readerRequest r).state.Guarded ∧
      (c.session.readerRequest r).state.Poised :=
    Session.request_guarded h.guarded h.rested (.reader r)
  have hopen : (c.session.readerRequest r).state.channel.writerClosed = false :=
    ha.spares.flag.trans h.unclosed
  have hfits : Fits way data (c.session.readerRequest r).state.writer c.account := by
    rw [ha.writer]
    exact h.fits
  have hsame := Session.settleReader_rested ha.rested
  have hsettles := settle_settles hguarded hpoised hopen hfits
  refine ⟨h.request _ hsettles.unclosed hsettles.fits, ?_, ?_⟩
  · intro hwaiting limit
    have hwaiting' := hsettles.waited hwaiting
    show (c.session.readerRequest r).state.settle.state.reader ≠ .asleep limit
    rw [hsettles.reader, hsame]
    intro hasleep
    -- a read that sleeps has touched nothing, so the writer sleeps in a full ring as before
    have hsleeps : Sleeps (c.session.readerRequest r).state.channel.spaceReady := by
      rw [ha.poised limit hasleep]
      rw [Standing.overall_eq hrests.unasked] at hwaiting'
      exact hrests.sleeps hwaiting'
    exact Session.awake_of_full hguarded ha.rested (hguarded.channel.full hsleeps).1 limit hasleep
  · have hflow := hsettles.flow
    rw [hsame, Outcome.pure_state, flow_readerRequest h.guarded h.rested c.account r] at hflow
    exact hflow

end WriteCourse

/-! ### Carrying on -/

namespace WriteCourse

variable {c : WriteCourse}

theorem Sound.undue_sleeps (h : c.Sound way data) (hwaiting : c.account.standing = .waiting)
    (hundue : way.isDue c.seen.writer = false) : Sleeps c.session.channel.spaceReady := by
  have hwaits := h.fits.waits hwaiting
  have hspace := h.guarded.channel.space
  have hnoted := h.noted.writer
  cases way with
  | call =>
    obtain ⟨_, written, hwriter, _⟩ := hwaits
    rw [hwriter] at hspace
    exact hspace.sleeps_of_thread h.rested.space
  | parts =>
    obtain ⟨_, hwriter⟩ := hwaits
    rw [hwriter] at hspace
    exact hspace.sleeps_of_thread h.rested.space
  | future pace w =>
    obtain ⟨_, k, written, hwriter, _⟩ := hwaits
    exact Pace.undue_sleeps (k := k) hnoted (by rw [hwriter]; rfl) hundue
  | polls pace w =>
    obtain ⟨_, k, hwriter⟩ := hwaits
    exact Pace.undue_sleeps (k := k) hnoted (by rw [hwriter]; rfl) hundue

theorem ask_over {n : Nat} (h : c.account.standing ≠ .asking) : c.ask way data n = c := by
  cases n with
  | zero => rfl
  | succ n => exact if_neg h

/-- Asking comes to an end, since each request that leads to another has committed a byte, and
    leaves the flow that was to be pushed. -/
theorem ask_rests (n : Nat) : ∀ {c : WriteCourse}, c.Sound way data →
    (c.account.standing.overall = .waiting → c.Awake) →
    (c.account.standing = .asking → data.length - c.account.reported < n) →
    (c.ask way data n).Sound way data ∧
      ((c.ask way data n).account.standing.overall = .waiting → (c.ask way data n).Awake) ∧
      (c.ask way data n).account.standing ≠ .asking ∧
      (c.ask way data n).flow.push data = c.flow.push data ∧
      (c.account.standing = .asking → (c.ask way data n).Rests) := by
  induction n with
  | zero =>
    intro c h hawake hbound
    have hunasked : c.account.standing ≠ .asking :=
      fun hasking => absurd (hbound hasking) (Nat.not_lt_zero _)
    exact ⟨h, hawake, hunasked, rfl, fun hasking => absurd hasking hunasked⟩
  | succ n ih =>
    intro c h hawake hbound
    by_cases hasking : c.account.standing = .asking
    · obtain ⟨h', hawake', hpushes⟩ := h.asks hasking (hawake (by rw [hasking]; rfl))
      have hbound' := hbound hasking
      have hask : c.ask way data (n + 1)
          = ask way data n (c.request data
              (.writer (way.next data c.session.writer c.account.reported))) := if_pos hasking
      rw [hask]
      revert h' hawake' hpushes
      generalize c.request data (.writer (way.next data c.session.writer c.account.reported)) = c'
      intro h' hawake' hpushes
      obtain ⟨hsound, hawake'', hunasked, hflow, hrests⟩ := ih h' (fun _ => hawake')
        (fun hasking' => by
          have hmore := hpushes.more hasking'
          omega)
      refine ⟨hsound, hawake'', hunasked, ?_, ?_⟩
      · rw [hflow, show c'.flow = c.flow.push data from hpushes.flow, Flow.push_twice h.sized]
      · intro _
        by_cases hasking' : c'.account.standing = .asking
        · exact hrests hasking'
        · rw [ask_over hasking'] at hunasked ⊢
          exact ⟨hunasked, hpushes.sleeps⟩
    · rw [ask_over hasking]
      exact ⟨h, hawake, hasking, rfl, fun hasking' => absurd hasking' hasking⟩

/-- A polled write that waits is in the shape to ask again. -/
theorem Sound.roused (h : c.Sound way data) (hwaiting : c.account.standing = .waiting)
    (hdue : way.isDue c.seen.writer = true) :
    Sound way data { c with account := ⟨c.account.reported, .asking⟩ } := by
  refine ⟨h.guarded, h.rested, h.noted, h.unclosed, ?_⟩
  have hwaits := h.fits.waits hwaiting
  show way.Asks data c.session.writer c.account.reported
  cases way with
  | call => cases hdue
  | parts => cases hdue
  | future pace w =>
    obtain ⟨hzero, k, written, hwriter, hleft⟩ := hwaits
    exact ⟨hzero, Or.inr ⟨⟨some k⟩, written, hwriter, Nat.le_of_lt hleft⟩⟩
  | polls pace w =>
    obtain ⟨_, k, hwriter⟩ := hwaits
    exact ⟨⟨some k⟩, hwriter⟩

/-- Carrying on brings a write to rest at the flow that was to be pushed. -/
theorem carryOn_rests (h : c.Sound way data)
    (hawake : c.account.standing.overall = .waiting → c.Awake) :
    (c.carryOn way data).Sound way data ∧ (c.carryOn way data).Rests ∧
      (c.carryOn way data).flow = c.flow.push data := by
  have hask (c' : WriteCourse) (h' : c'.Sound way data)
      (hawake' : c'.account.standing.overall = .waiting → c'.Awake)
      (hasking : c'.account.standing = .asking) (hflow : c'.flow = c.flow) :
      let c'' := c'.ask way data (data.length - c'.account.reported + 1)
      c''.Sound way data ∧ c''.Rests ∧ c''.flow = c.flow.push data := by
    intro c''
    obtain ⟨hsound, _, _, hpush, hrests⟩ := ask_rests (data.length - c'.account.reported + 1) h'
      hawake' (fun _ => Nat.lt_succ_self _)
    refine ⟨hsound, hrests hasking, ?_⟩
    rw [← hsound.rests (hrests hasking), hpush, hflow]
  by_cases hdue : c.account.standing = .waiting ∧ way.isDue c.seen.writer
  · rw [carryOn, if_pos hdue]
    have hoverall : c.account.standing.overall = .waiting := by
      rw [hdue.1]
      rfl
    refine hask _ (h.roused hdue.1 hdue.2) (fun _ => hawake hoverall) rfl ?_
    show Flow.mk _ _ .waiting = Flow.mk _ _ c.account.standing.overall
    rw [hoverall]
  · rw [carryOn, if_neg hdue]
    by_cases hasking : c.account.standing = .asking
    · exact hask c h hawake hasking rfl
    · rw [ask_over hasking]
      have hrests : c.Rests := by
        refine ⟨hasking, ?_⟩
        intro hwaiting
        rw [not_and, Bool.not_eq_true] at hdue
        exact h.undue_sleeps hwaiting (hdue hwaiting)
      exact ⟨h, hrests, (h.rests hrests).symm⟩

end WriteCourse

/-! ### Whole courses -/

/-- The flow of a write that starts: what fits is pushed, a read that sleeps takes its turn, and the
    room that it made is used. -/
def Flow.start (data : List UInt8) (side : Session) : Flow :=
  ((Flow.push data ⟨side, 0, .waiting⟩).listen fun t => t.settleReader.state).push data

/-- The flow after a request of the reader. -/
def Flow.step (data : List UInt8) (f : Flow) (r : ReaderRequest) : Flow :=
  (f.listen fun t => (t.readerRequest r).state).push data

def Flow.sights (data : List UInt8) (f : Flow) : List ReaderRequest → List WriteSight
  | [] => [⟨f.committed, f.standing, f.side.channel.store⟩]
  | r :: rs => ⟨f.committed, f.standing, f.side.channel.store⟩ :: sights data (f.step data r) rs

namespace WriteCourse

variable {c : WriteCourse}

/-- A request that only changes the kind of the handle. -/
theorem converted {seen : Watches} (h : s.Guarded) (rested : s.Rested) (noted : s.NotedIn seen)
    (hopen : s.channel.writerClosed = false) {r : WriterRequest}
    (hanswer : (s.writerRequest r).answer = .nothing)
    (hview : (s.writerRequest r).state.channel.forReader = s.channel.forReader)
    (hidle : (s.writerRequest r).state.writer.isIdle = true)
    (hasks : way.Asks data (s.writerRequest r).state.writer 0) :
    let c := request data ⟨s, seen, ⟨0, .asking⟩⟩ (.writer r)
    c.Sound way data ∧ c.account = ⟨0, .asking⟩ ∧ c.flow = ⟨s.forReader, 0, .waiting⟩ := by
  intro c
  have ha := Session.writerRequest_answers h rested r
  have hstill := Session.settle_rested (s := (s.writerRequest r).state)
    ⟨ha.rested, (Channel.dataReady_seen hview).symm ▸ rested.data⟩
  have hsession : c.session = (s.writerRequest r).state := by
    show (s.writerRequest r).state.settle.state = _
    rw [hstill]
    rfl
  have haccount : c.account = ⟨0, .asking⟩ := by
    show ((s.writerRequest r).answer :: resultsOf .writer
      (s.writerRequest r).state.settle.answer).foldl _ _ = _
    rw [hstill, hanswer]
    rfl
  obtain ⟨hguarded, hrested, hnoted⟩ := Session.after_noted [.writer r] h rested noted
  refine ⟨⟨hguarded, hrested, hnoted, ?_, ?_⟩, haccount, ?_⟩
  · rw [hsession]
    exact (Channel.writerClosed_seen hview).trans hopen
  · rw [hsession, haccount]
    exact hasks
  · rw [flow, flowOf, haccount, hsession, WriterEnd.idle_inHand hidle, Session.forReader, hview,
      ha.reader]
    rfl

/-- The handle is of the kind that the way needs, and nothing else has changed. -/
theorem prepare_sound (way : WriteWay) (data : List UInt8) {seen : Watches} (h : s.Guarded)
    (rested : s.Rested) (noted : s.NotedIn seen) (hopen : s.channel.writerClosed = false)
    (hidle : s.writer.isIdle = true) :
    (prepare way data s seen).Sound way data ∧
      (prepare way data s seen).account = ⟨0, .asking⟩ ∧
      (prepare way data s seen).flow = ⟨s.forReader, 0, .waiting⟩ := by
  have hfree (hasks : way.Asks data s.writer 0) :
      let c : WriteCourse := ⟨s, seen, ⟨0, .asking⟩⟩
      c.Sound way data ∧ c.account = ⟨0, .asking⟩ ∧ c.flow = ⟨s.forReader, 0, .waiting⟩ := by
    refine ⟨⟨h, rested, noted, hopen, hasks⟩, rfl, ?_⟩
    show Flow.mk s.forReader (0 + s.writer.inHand) .waiting = _
    rw [WriterEnd.idle_inHand hidle]
  have hblocking (key : WaitKey) (hwriter : s.writer = .polled key)
      (hasks : way.Asks data .blocking 0) :
      let c := request data ⟨s, seen, ⟨0, .asking⟩⟩ (.writer .toBlocking)
      c.Sound way data ∧ c.account = ⟨0, .asking⟩ ∧ c.flow = ⟨s.forReader, 0, .waiting⟩ := by
    apply converted h rested noted hopen
    · rw [Session.writerRequest, hwriter]
      rfl
    · rw [Session.writerRequest, hwriter]
      rfl
    · rw [Session.writerRequest, hwriter]
      rfl
    · rw [Session.writerRequest, hwriter]
      exact hasks
  have hpolled (hwriter : s.writer = .blocking) (hasks : way.Asks data (.polled .fresh) 0) :
      let c := request data ⟨s, seen, ⟨0, .asking⟩⟩ (.writer .toPolled)
      c.Sound way data ∧ c.account = ⟨0, .asking⟩ ∧ c.flow = ⟨s.forReader, 0, .waiting⟩ := by
    apply converted h rested noted hopen
    · rw [Session.writerRequest, hwriter]
      rfl
    · rw [Session.writerRequest, hwriter]
      rfl
    · rw [Session.writerRequest, hwriter]
      rfl
    · rw [Session.writerRequest, hwriter]
      exact hasks
  rw [prepare]
  cases hwriter : s.writer with
  | blocking =>
    rw [hwriter] at hfree
    cases way with
    | call => exact hfree ⟨rfl, rfl⟩
    | parts => exact hfree ⟨Nat.zero_le _, rfl⟩
    | future pace w => exact hpolled hwriter ⟨rfl, Or.inl ⟨.fresh, rfl⟩⟩
    | polls pace w => exact hpolled hwriter ⟨.fresh, rfl⟩
  | polled key =>
    rw [hwriter] at hfree
    cases way with
    | call => exact hblocking key hwriter ⟨rfl, rfl⟩
    | parts => exact hblocking key hwriter ⟨Nat.zero_le _, rfl⟩
    | future pace w => exact hfree ⟨rfl, Or.inl ⟨key, rfl⟩⟩
    | polls pace w => exact hfree ⟨key, rfl⟩
  | _ =>
    rw [hwriter] at hidle
    cases hidle

theorem start_rests (way : WriteWay) (data : List UInt8) {seen : Watches} (h : s.Guarded)
    (rested : s.Rested) (noted : s.NotedIn seen) (hopen : s.channel.writerClosed = false)
    (hidle : s.writer.isIdle = true) :
    (start way data s seen).Sound way data ∧ (start way data s seen).Rests ∧
      (start way data s seen).flow = Flow.start data s.forReader := by
  obtain ⟨hsound, haccount, hflow⟩ := prepare_sound way data h rested noted hopen hidle
  rw [start]
  revert hsound haccount hflow
  generalize prepare way data s seen = c
  intro hsound haccount hflow
  have hasking : c.account.standing = .asking := by
    rw [haccount]
  have hzero : c.account.reported = 0 := by
    rw [haccount]
  obtain ⟨hsound', hawake, hpush, hmore⟩ := hsound.asks_first hasking hzero
  have hcarry : c.carryOn way data
      = (c.request data (.writer (way.next data c.session.writer c.account.reported))).ask way data
          data.length := by
    have hundue : ¬ (c.account.standing = .waiting ∧ way.isDue c.seen.writer) := by
      rintro ⟨hwaiting, _⟩
      rw [hasking] at hwaiting
      cases hwaiting
    have hbound : data.length - c.account.reported = data.length := by
      rw [hzero, Nat.sub_zero]
    rw [carryOn, if_neg hundue, hbound]
    exact if_pos hasking
  obtain ⟨hsound'', hawake', _, hpush', _⟩ := ask_rests data.length hsound' hawake
    (fun hasking' => by
      have hleft := hmore hasking'
      omega)
  rw [hcarry]
  obtain ⟨hrest, hrests, hend⟩ := carryOn_rests hsound'' hawake'
  refine ⟨hrest, hrests, ?_⟩
  rw [hend, hpush', hpush, hflow]
  rfl

/-- A write at rest is at rest again after the reader has done something. -/
theorem step_rests (h : c.Sound way data) (hrests : c.Rests) (r : ReaderRequest) :
    (c.step way data r).Sound way data ∧ (c.step way data r).Rests ∧
      (c.step way data r).flow = c.flow.step data r := by
  obtain ⟨hsound, hawake, hflow⟩ := h.awaits hrests r
  obtain ⟨hsound', hrests', hflow'⟩ := carryOn_rests hsound hawake
  exact ⟨hsound', hrests', hflow'.trans hflow⟩

/-- What is seen of a write is what there is to see in its flow. -/
theorem sights_flow (rs : List ReaderRequest) : ∀ {c : WriteCourse}, c.Sound way data → c.Rests →
    c.sights way data rs = c.flow.sights data rs := by
  have hsight {c : WriteCourse} (hrests : c.Rests) :
      c.sight = ⟨c.flow.committed, c.flow.standing, c.flow.side.channel.store⟩ := by
    show WriteSight.mk _ c.account.standing _ = WriteSight.mk _ c.account.standing.overall _
    rw [Standing.overall_eq hrests.unasked]
    rfl
  induction rs with
  | nil =>
    intro c _ hrests
    rw [sights, Flow.sights, hsight hrests]
  | cons r rs ih =>
    intro c h hrests
    obtain ⟨h', hrests', hflow⟩ := step_rests h hrests r
    rw [sights, Flow.sights, hsight hrests, ih h' hrests', hflow]

end WriteCourse

end Conduit.Ring

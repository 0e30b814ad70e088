/-
  Conduit/Proofs/Ring/Reading.lean
  ================================
  **The ways to read come to the same.**

  Whatever the writer does, a read gets the same bytes at the same of its operations, or
  finds the same end of the stream, whichever way it is made.

  As with writes, each way is followed beside a machine that has none.  Its turn is a pull,
  if the read is not over, and then a sleeping write goes on in the room that the pull made.
  A read at rest does not lag behind: it waits in an empty ring, where a pull gets nothing.
-/
import Conduit.Proofs.Ring.Writing

namespace Conduit.Ring

open Signal (Slim WaitKey)
open Channel (forWriter)

/-! ### Flows -/

/-- What there is to know of a read, however it is made: what the writer's end sees, and the bytes
    once the read is over. -/
structure Intake where
  side : Session
  got : Option (List UInt8)

namespace Intake

variable {f : Intake} {limit : Nat}

/-- Takes out what is there, if the read is not over. -/
def pull (limit : Nat) (f : Intake) : Intake :=
  if f.got = none then
    ⟨{ f.side with channel := (Ring.pull limit f.side.channel).2 },
      (Ring.pull limit f.side.channel).1⟩
  else f

/-- The writer takes a turn. -/
def listen (f : Intake) (turn : Session → Session) : Intake :=
  { f with side := (turn f.side).forWriter }

/-- A pull, and what a sleeping write makes of it. -/
def turn (limit : Nat) (f : Intake) : Intake :=
  (f.pull limit).listen fun s => s.settleWriter.state

theorem pull_open (h : f.got = none) :
    f.pull limit = ⟨{ f.side with channel := (Ring.pull limit f.side.channel).2 },
      (Ring.pull limit f.side.channel).1⟩ := if_pos h

theorem pull_over (h : f.got ≠ none) : f.pull limit = f := if_neg h

end Intake

/-- The intake of a read that got this. -/
def intakeOf (s : Session) (got : Option (List UInt8)) : Intake := ⟨s.forWriter, got⟩

/-- A write that goes on is a turn of the writer. -/
theorem intake_settleWriter (s : Session) (got : Option (List UInt8)) :
    intakeOf s.settleWriter.state got
      = (intakeOf s got).listen fun t => t.settleWriter.state := by
  have halike := (Session.settleWriter_alike (s := s) (t := s.forWriter) rfl).state
  rw [intakeOf, halike]
  rfl

/-- A request of the writer is a turn of it. -/
theorem intake_writerRequest (s : Session) (got : Option (List UInt8)) (r : WriterRequest) :
    intakeOf (s.writerRequest r).state got
      = (intakeOf s got).listen fun t => (t.writerRequest r).state := by
  have halike := (Session.writerRequest_alike (s := s) (t := s.forWriter) rfl r).state
  rw [intakeOf, halike]
  rfl

/-! ### The reader's end -/

/-- The reader's end of a read that is to ask. -/
def ReadWay.Asks (way : ReadWay) (limit : Nat) (e : ReaderEnd) : Prop :=
  match way with
  | .call | .once => e = .blocking
  | .future _ _ => (∃ key, e = .polled key) ∨ ∃ key, e = .reading key limit
  | .polls _ _ => ∃ key, e = .polled key

/-- The reader's end of a read that waits. -/
def ReadWay.Waits (way : ReadWay) (limit : Nat) (e : ReaderEnd) : Prop :=
  match way with
  | .call | .once => e = .asleep limit
  | .future _ _ => ∃ k, e = .reading ⟨some k⟩ limit
  | .polls _ _ => ∃ k, e = .polled ⟨some k⟩

/-- The reader's end waits, or is idle when the read is over. -/
def ReadWay.Holds (way : ReadWay) (limit : Nat) (e : ReaderEnd) : Option (List UInt8) → Prop
  | none => way.Waits limit e
  | some _ => e.isIdle = true

variable {way : ReadWay} {limit : Nat} {s s' : Session} {got got' : Option (List UInt8)}

/-- An answer to a read that is not over, or its call that goes on, leaves what was pulled.  A read
    that waits then sleeps in its signal. -/
structure Pulls (way : ReadWay) (limit : Nat) (s s' : Session) (got : Option (List UInt8)) :
    Prop where
  intake : intakeOf s' got = (intakeOf s none).pull limit
  holds : way.Holds limit s'.reader got
  sleeps : got = none → Sleeps s'.channel.dataReady

/-- A read that has pulled leaves the channel that was pulled. -/
theorem intake_pulled (hseen : (got, s'.channel.forWriter) = pull limit s.channel.forWriter)
    (hwriter : s'.writer = s.writer) : intakeOf s' got = (intakeOf s none).pull limit := by
  have hpull : (intakeOf s none).pull limit = _ := Intake.pull_open rfl
  rw [show pull limit (intakeOf s none).side.channel = (got, s'.channel.forWriter) from
    hseen.symm] at hpull
  rw [hpull, intakeOf, Session.forWriter, hwriter]
  rfl

/-- A blocking call that returns or sleeps after one pull. -/
theorem blockReading_pulls {o : Outcome (Blocking (List UInt8)) Channel}
    (hway : way = .call ∨ way = .once)
    (hseen : (o.answer.bytes?, o.state.forWriter) = pull limit s.channel.forWriter)
    (hguarded : Channel.Guarded s.writer.occupant (o.answer.occupant .reader) o.state)
    (hrested : o.state.dataReady.roused = []) :
    Pulls way limit s (s.blockReading limit o).state
      (hearBytes none (s.blockReading limit o).answer) := by
  obtain ⟨bytes | _, c, effects⟩ := o
  · refine ⟨intake_pulled hseen rfl, rfl, ?_⟩
    intro hnone
    cases hnone
  · refine ⟨intake_pulled hseen rfl, ?_, fun _ => hguarded.data.sleeps_of_thread hrested⟩
    rcases hway with rfl | rfl
    · rfl
    · rfl

/-- A poll pulls, and its task sleeps if it gets nothing. -/
theorem poll_pulls (limit : Nat) (w : Waker) {key : WaitKey} (h : s.Guarded)
    (hoccupant : s.reader.occupant = occupant key) :
    let o := pollRead w limit (s.channel, key)
    (o.answer.bytes?, o.state.1.forWriter) = pull limit s.channel.forWriter ∧
      (o.answer = .pending → ∃ k, o.state.2 = ⟨some k⟩ ∧ Sleeps o.state.1.dataReady) := by
  intro o
  have hchannel := h.channel
  rw [hoccupant] at hchannel
  obtain ⟨_, hleaves⟩ := pollRead_guarded w limit (s := (s.channel, key)) hchannel
  refine ⟨pollRead_pulls w limit (s := (s.channel, key)) hchannel, ?_⟩
  intro hpending
  rw [show (pollRead w limit (s.channel, key)).answer = .pending from hpending] at hleaves
  obtain ⟨k, hkey, htasks⟩ := hleaves
  exact ⟨k, hkey, sleeps_of_tasks htasks⟩

/-- A poll of a read under way does one pull. -/
theorem pollReading_pulls (pace : Pace) (w : Waker) {key : WaitKey} (h : s.Guarded)
    (hoccupant : s.reader.occupant = occupant key) :
    Pulls (.future pace w) limit s (s.pollReading w key limit).state
      (hearBytes none (s.pollReading w key limit).answer) := by
  obtain ⟨hseen, hpending⟩ := poll_pulls limit w h hoccupant
  rw [Session.pollReading]
  revert hseen hpending
  generalize pollRead w limit (s.channel, key) = o
  intro hseen hpending
  obtain ⟨bytes | _, ⟨c, key'⟩, effects⟩ := o
  · refine ⟨intake_pulled hseen rfl, rfl, ?_⟩
    intro hnone
    cases hnone
  · obtain ⟨k, hkey, hsleeps⟩ := hpending rfl
    obtain rfl : key' = ⟨some k⟩ := hkey
    exact ⟨intake_pulled hseen rfl, ⟨k, rfl⟩, fun _ => hsleeps⟩

/-- A poll of the handle does one pull. -/
theorem pollRead_request_pulls (pace : Pace) (w : Waker) {key : WaitKey} (h : s.Guarded)
    (hreader : s.reader = .polled key) :
    Pulls (.polls pace w) limit s (s.polledReader key (.pollRead limit w)).state
      (hearBytes none (s.polledReader key (.pollRead limit w)).answer) := by
  have hoccupant : s.reader.occupant = occupant key := by
    rw [hreader]
    rfl
  obtain ⟨hseen, hpending⟩ := poll_pulls limit w h hoccupant
  rw [Session.polledReader]
  revert hseen hpending
  generalize pollRead w limit (s.channel, key) = o
  intro hseen hpending
  obtain ⟨bytes | _, ⟨c, key'⟩, effects⟩ := o
  · refine ⟨intake_pulled hseen rfl, rfl, ?_⟩
    intro hnone
    cases hnone
  · obtain ⟨k, hkey, hsleeps⟩ := hpending rfl
    obtain rfl : key' = ⟨some k⟩ := hkey
    exact ⟨intake_pulled hseen rfl, ⟨k, rfl⟩, fun _ => hsleeps⟩

/-- **Each request of a read does one pull**, whichever way the read goes. -/
theorem ReadWay.next_pulls (h : s.Guarded) (hasks : way.Asks limit s.reader) :
    Pulls way limit s (s.readerRequest (way.next limit s.reader)).state
      (hearBytes none (s.readerRequest (way.next limit s.reader)).answer) := by
  have hchannel := h.channel
  have hblocking (hway : way = .call ∨ way = .once) (hreader : s.reader = .blocking) :
      Pulls way limit s (s.blockReading limit (blockingRead limit s.channel)).state
        (hearBytes none (s.blockReading limit (blockingRead limit s.channel)).answer) := by
    rw [hreader] at hchannel
    obtain ⟨hkept, hrested, _⟩ := blockingRead_guarded limit hchannel
    exact blockReading_pulls hway (blockingRead_pulls limit hchannel) hkept hrested
  cases way with
  | call =>
    have hpulls := hblocking (Or.inl rfl) hasks
    simp only [next, Session.readerRequest, show s.reader = .blocking from hasks]
    exact hpulls
  | once =>
    have hpulls := hblocking (Or.inr rfl) hasks
    simp only [next, Session.readerRequest, show s.reader = .blocking from hasks]
    exact hpulls
  | future pace w =>
    rcases hasks with ⟨key, hreader⟩ | ⟨key, hreader⟩
    · have hpulls : Pulls (.future pace w) limit s _ _ := pollReading_pulls pace w h
        (show s.reader.occupant = occupant key by rw [hreader]; rfl)
      simp only [next, Session.readerRequest, hreader]
      exact hpulls
    · have hpulls : Pulls (.future pace w) limit s _ _ := pollReading_pulls pace w h
        (show s.reader.occupant = occupant key by rw [hreader]; rfl)
      simp only [next, Session.readerRequest, hreader]
      exact hpulls
  | polls pace w =>
    obtain ⟨key, hreader⟩ := hasks
    have hpulls : Pulls (.polls pace w) limit s _ _ := pollRead_request_pulls pace w h hreader
    simp only [next, Session.readerRequest, hreader]
    exact hpulls

/-- A read that goes on after its thread was roused does one pull. -/
theorem settleReader_pulls (h : s.Guarded) (hholds : way.Holds limit s.reader got) :
    s.settleReader = .pure none s ∨ got = none ∧
      Pulls way limit s s.settleReader.state (s.settleReader.answer.toList.foldl hearBytes none) := by
  cases hreader : s.reader with
  | asleep limit' =>
    have hchannel := h.channel
    rw [hreader] at hchannel hholds
    by_cases hroused : s.channel.dataReady.roused = []
    · exact Or.inl (Session.settleReader_rested hroused)
    · right
      cases got with
      | some bytes => cases hholds
      | none =>
        have hway : (way = .call ∨ way = .once) ∧ limit' = limit := by
          cases way with
          | call =>
            cases hholds
            exact ⟨Or.inl rfl, rfl⟩
          | once =>
            cases hholds
            exact ⟨Or.inr rfl, rfl⟩
          | future pace w =>
            obtain ⟨k, hend⟩ := hholds
            cases hend
          | polls pace w =>
            obtain ⟨k, hend⟩ := hholds
            cases hend
        obtain ⟨hway, rfl⟩ := hway
        obtain ⟨hkept, hrested, _⟩ := resumeRead_guarded limit' hchannel hroused
        have hpulls := blockReading_pulls (s := s) hway (resumeRead_pulls limit' hchannel hroused)
          hkept hrested
        refine ⟨rfl, ?_⟩
        simp only [Session.settleReader, hreader, List.isEmpty_iff, hroused, if_false,
          Outcome.map_state, Outcome.map_answer]
        rw [hear_resumed (show hearBytes none .started = none from rfl)]
        exact hpulls
  | _ =>
    left
    simp only [Session.settleReader, hreader]

/-- What a write that sleeps makes of the room after a pull.  If nothing was pulled it sleeps on. -/
theorem Pulls.settled (h : Pulls way limit s s' got) (hspace : s.channel.spaceReady.roused = []) :
    intakeOf s'.settleWriter.state got = (intakeOf s none).turn limit ∧
      way.Holds limit s'.settleWriter.state.reader got ∧
      (got = none → limit ≠ 0 ∧ Sleeps s'.settleWriter.state.channel.dataReady) := by
  refine ⟨?_, ?_, ?_⟩
  · rw [intake_settleWriter, h.intake]
    rfl
  · rw [Session.settleWriter_reader]
    exact h.holds
  · intro hnone
    have hpull : (intakeOf s none).pull limit = _ := Intake.pull_open rfl
    rw [← h.intake] at hpull
    have hgot : (pull limit s.channel.forWriter).1 = none :=
      (congrArg Intake.got hpull).symm.trans hnone
    have hchannel : s'.channel.forWriter = s.channel.forWriter :=
      (congrArg (fun f => f.side.channel) hpull).trans (pull_none hgot)
    have hstill := Session.settleWriter_rested (s := s')
      ((Channel.spaceReady_seen hchannel).symm ▸ hspace)
    refine ⟨?_, ?_⟩
    · rintro rfl
      cases hgot
    · rw [hstill]
      exact h.sleeps hnone

namespace ReadCourse

variable {c : ReadCourse}

/-- The ring is guarded and at rest, and the reader's end is as the answers tell. -/
structure Sound (way : ReadWay) (limit : Nat) (c : ReadCourse) : Prop where
  guarded : c.session.Guarded
  rested : c.session.Rested
  noted : c.session.NotedIn c.seen
  holds : way.Holds limit c.session.reader c.got
  wants : c.got = none → limit ≠ 0

/-- A read at rest: if it waits it sleeps in its signal. -/
def Rests (c : ReadCourse) : Prop := c.got = none → Sleeps c.session.channel.dataReady

/-- The intake of the read. -/
def intake (c : ReadCourse) : Intake := intakeOf c.session c.got

/-- A read at rest does not lag behind its intake. -/
theorem Sound.rests (h : c.Sound way limit) (hrests : c.Rests) :
    c.intake.turn limit = c.intake := by
  have hpull : c.intake.pull limit = c.intake := by
    cases hgot : c.got with
    | some bytes =>
      apply Intake.pull_over
      show c.got ≠ none
      rw [hgot]
      exact Option.some_ne_none bytes
    | none =>
      obtain ⟨hempty, hopen⟩ := h.guarded.channel.empty (hrests hgot)
      have hnone : pull limit c.intake.side.channel = (none, c.intake.side.channel) :=
        pull_waits (c := c.intake.side.channel) h.guarded.channel.sized (h.wants hgot) hempty hopen
      rw [Intake.pull_open (show c.intake.got = none from hgot), hnone]
      show Intake.mk _ none = Intake.mk _ c.got
      rw [hgot]
      rfl
  rw [Intake.turn, hpull]
  show (intakeOf c.session c.got).listen _ = intakeOf c.session c.got
  rw [← intake_settleWriter, Session.settleWriter_rested h.rested.space]
  rfl

/-- A request of the reader does one pull, and then a write that sleeps goes on. -/
theorem asks (guarded : c.session.Guarded) (rested : c.session.Rested)
    (noted : c.session.NotedIn c.seen) (hasks : way.Asks limit c.session.reader)
    (hgot : c.got = none) :
    let c' := c.request (.reader (way.next limit c.session.reader))
    c'.Sound way limit ∧ c'.Rests ∧ c'.intake = c.intake.turn limit := by
  intro c'
  have ha := Session.readerRequest_answers guarded rested (way.next limit c.session.reader)
  have hpulls := ReadWay.next_pulls guarded hasks
  have hstill := Session.settleReader_rested ha.rested
  have hsession : c'.session
      = (c.session.readerRequest (way.next limit c.session.reader)).state.settleWriter.state := by
    show (c.session.readerRequest _).state.settleReader.state.settleWriter.state = _
    rw [hstill]
    rfl
  have haccount : c'.got = hearBytes none
      (c.session.readerRequest (way.next limit c.session.reader)).answer := by
    show ((c.session.readerRequest _).answer
      :: resultsOf .reader (c.session.readerRequest _).state.settle.answer).foldl hearBytes c.got = _
    rw [(Session.results_settle _).1, hstill, hgot]
    rfl
  obtain ⟨hintake, hholds, hsleeps⟩ := hpulls.settled rested.space
  rw [← hsession, ← haccount] at hintake hholds hsleeps
  obtain ⟨hguarded, hrested, hnoted⟩ := Session.after_noted
    [.reader (way.next limit c.session.reader)] guarded rested noted
  refine ⟨⟨hguarded, hrested, hnoted, hholds, fun hnone => (hsleeps hnone).1⟩,
    fun hnone => (hsleeps hnone).2, ?_⟩
  rw [show c.intake = intakeOf c.session none by rw [intake, hgot]]
  exact hintake

/-- A request of the writer is its turn, and then a read that blocks goes on. -/
theorem Sound.awaits (h : c.Sound way limit) (r : WriterRequest) :
    let c' := c.request (.writer r)
    c'.Sound way limit ∧ c'.intake.turn limit
      = (c.intake.listen fun t => (t.writerRequest r).state).turn limit := by
  intro c'
  have ha := Session.writerRequest_answers h.guarded h.rested r
  have hguarded := ha.guarded h.guarded
  have hholds : way.Holds limit (c.session.writerRequest r).state.reader c.got := by
    rw [ha.reader]
    exact h.holds
  have hsession : c'.session
      = (c.session.writerRequest r).state.settleReader.state.settleWriter.state := rfl
  have haccount : c'.got
      = (c.session.writerRequest r).state.settleReader.answer.toList.foldl hearBytes c.got := by
    rw [← (Session.results_settle _).1]
    rfl
  obtain ⟨hguarded', hrested', hnoted'⟩ :=
    Session.after_noted [.writer r] h.guarded h.rested h.noted
  have hlisten : c.intake.listen (fun t => (t.writerRequest r).state)
      = intakeOf (c.session.writerRequest r).state c.got :=
    (intake_writerRequest c.session c.got r).symm
  rw [hlisten]
  rcases settleReader_pulls hguarded hholds with hsame | ⟨hgot, hpulls⟩
  · have hstill := Session.settleWriter_rested ha.rested
    rw [hsame, Outcome.pure_state, hstill, Outcome.pure_state] at hsession
    rw [hsame] at haccount
    refine ⟨⟨hguarded', hrested', hnoted', ?_, ?_⟩, ?_⟩
    · rw [hsession, haccount]
      exact hholds
    · rw [haccount]
      exact h.wants
    · show Intake.turn limit (intakeOf c'.session c'.got) = _
      rw [hsession, haccount]
      rfl
  · obtain ⟨hintake, hholds', hsleeps⟩ := hpulls.settled ha.rested
    rw [hgot] at haccount
    rw [← hsession, ← haccount] at hintake hholds' hsleeps
    have hsound : c'.Sound way limit :=
      ⟨hguarded', hrested', hnoted', hholds', fun hnone => (hsleeps hnone).1⟩
    refine ⟨hsound, ?_⟩
    rw [hgot, ← hintake]
    exact hsound.rests fun hnone => (hsleeps hnone).2

theorem Sound.undue_sleeps (h : c.Sound way limit) (hgot : c.got = none)
    (hundue : way.isDue c.seen.reader = false) : Sleeps c.session.channel.dataReady := by
  have hwaits : way.Waits limit c.session.reader := by
    have hholds := h.holds
    rw [hgot] at hholds
    exact hholds
  have hdata := h.guarded.channel.data
  have hnoted := h.noted.reader
  cases way with
  | call =>
    rw [show c.session.reader = .asleep limit from hwaits] at hdata
    exact hdata.sleeps_of_thread h.rested.data
  | once =>
    rw [show c.session.reader = .asleep limit from hwaits] at hdata
    exact hdata.sleeps_of_thread h.rested.data
  | future pace w =>
    obtain ⟨k, hreader⟩ := hwaits
    exact Pace.undue_sleeps (k := k) hnoted (by rw [hreader]; rfl) hundue
  | polls pace w =>
    obtain ⟨k, hreader⟩ := hwaits
    exact Pace.undue_sleeps (k := k) hnoted (by rw [hreader]; rfl) hundue

/-- A polled read that waits is in the shape to ask again. -/
theorem Sound.roused (h : c.Sound way limit) (hgot : c.got = none)
    (hdue : way.isDue c.seen.reader = true) : way.Asks limit c.session.reader := by
  have hwaits : way.Waits limit c.session.reader := by
    have hholds := h.holds
    rw [hgot] at hholds
    exact hholds
  cases way with
  | call => cases hdue
  | once => cases hdue
  | future pace w =>
    obtain ⟨k, hreader⟩ := hwaits
    exact Or.inr ⟨⟨some k⟩, hreader⟩
  | polls pace w =>
    obtain ⟨k, hreader⟩ := hwaits
    exact ⟨⟨some k⟩, hreader⟩

/-- Carrying on brings a read to rest after its turn. -/
theorem carryOn_rests (h : c.Sound way limit) :
    (c.carryOn way limit).Sound way limit ∧ (c.carryOn way limit).Rests ∧
      (c.carryOn way limit).intake = c.intake.turn limit := by
  rw [carryOn]
  by_cases hdue : c.got = none ∧ way.isDue c.seen.reader
  · rw [if_pos hdue]
    exact asks h.guarded h.rested h.noted (h.roused hdue.1 hdue.2) hdue.1
  · rw [if_neg hdue]
    have hrests : c.Rests := by
      intro hgot
      rw [not_and, Bool.not_eq_true] at hdue
      exact h.undue_sleeps hgot (hdue hgot)
    exact ⟨h, hrests, (h.rests hrests).symm⟩

end ReadCourse

/-! ### Whole courses -/

/-- The intake after a request of the writer. -/
def Intake.step (limit : Nat) (f : Intake) (r : WriterRequest) : Intake :=
  (f.listen fun t => (t.writerRequest r).state).turn limit

def Intake.sights (limit : Nat) (f : Intake) : List WriterRequest → List ReadSight
  | [] => [⟨f.got, f.side.channel.store⟩]
  | r :: rs => ⟨f.got, f.side.channel.store⟩ :: sights limit (f.step limit r) rs

namespace ReadCourse

variable {c : ReadCourse}

/-- A course that is ready to make the first request of its read. -/
structure Ready (way : ReadWay) (limit : Nat) (side : Session) (c : ReadCourse) : Prop where
  guarded : c.session.Guarded
  rested : c.session.Rested
  noted : c.session.NotedIn c.seen
  asks : way.Asks limit c.session.reader
  unread : c.got = none
  view : c.session.forWriter = side

/-- A request that only changes the kind of the handle. -/
theorem converted {seen : Watches} (h : s.Guarded) (rested : s.Rested) (noted : s.NotedIn seen)
    {r : ReaderRequest} (hanswer : (s.readerRequest r).answer = .nothing)
    (hview : (s.readerRequest r).state.channel.forWriter = s.channel.forWriter)
    (hasks : way.Asks limit (s.readerRequest r).state.reader) :
    Ready way limit s.forWriter (request ⟨s, seen, none⟩ (.reader r)) := by
  have ha := Session.readerRequest_answers h rested r
  have hstill := Session.settle_rested (s := (s.readerRequest r).state)
    ⟨(Channel.spaceReady_seen hview).symm ▸ rested.space, ha.rested⟩
  have hsession : (request ⟨s, seen, none⟩ (.reader r)).session = (s.readerRequest r).state := by
    show (s.readerRequest r).state.settle.state = _
    rw [hstill]
    rfl
  obtain ⟨hguarded, hrested, hnoted⟩ := Session.after_noted [.reader r] h rested noted
  refine ⟨hguarded, hrested, hnoted, ?_, ?_, ?_⟩
  · rw [hsession]
    exact hasks
  · show ((s.readerRequest r).answer
      :: resultsOf .reader (s.readerRequest r).state.settle.answer).foldl hearBytes none = none
    rw [hstill, hanswer]
    rfl
  · rw [hsession, Session.forWriter, hview, ha.writer]
    rfl

/-- The handle is of the kind that the way needs, and nothing else has changed. -/
theorem prepare_ready (way : ReadWay) (limit : Nat) {seen : Watches} (h : s.Guarded) (rested : s.Rested)
    (noted : s.NotedIn seen) (hidle : s.reader.isIdle = true) :
    Ready way limit s.forWriter (prepare way s seen) := by
  have hfree (hasks : way.Asks limit s.reader) : Ready way limit s.forWriter ⟨s, seen, none⟩ :=
    ⟨h, rested, noted, hasks, rfl, rfl⟩
  have hblocking (key : WaitKey) (hreader : s.reader = .polled key)
      (hasks : way.Asks limit .blocking) :
      Ready way limit s.forWriter (request ⟨s, seen, none⟩ (.reader .toBlocking)) := by
    apply converted h rested noted
    · rw [Session.readerRequest, hreader]
      rfl
    · rw [Session.readerRequest, hreader]
      rfl
    · rw [Session.readerRequest, hreader]
      exact hasks
  have hpolled (hreader : s.reader = .blocking) (hasks : way.Asks limit (.polled .fresh)) :
      Ready way limit s.forWriter (request ⟨s, seen, none⟩ (.reader .toPolled)) := by
    apply converted h rested noted
    · rw [Session.readerRequest, hreader]
      rfl
    · rw [Session.readerRequest, hreader]
      rfl
    · rw [Session.readerRequest, hreader]
      exact hasks
  rw [prepare]
  cases hreader : s.reader with
  | blocking =>
    rw [hreader] at hfree
    cases way with
    | call => exact hfree rfl
    | once => exact hfree rfl
    | future pace w => exact hpolled hreader (Or.inl ⟨.fresh, rfl⟩)
    | polls pace w => exact hpolled hreader ⟨.fresh, rfl⟩
  | polled key =>
    rw [hreader] at hfree
    cases way with
    | call => exact hblocking key hreader rfl
    | once => exact hblocking key hreader rfl
    | future pace w => exact hfree (Or.inl ⟨key, rfl⟩)
    | polls pace w => exact hfree ⟨key, rfl⟩
  | _ =>
    rw [hreader] at hidle
    cases hidle

theorem start_rests (way : ReadWay) (limit : Nat) {seen : Watches} (h : s.Guarded) (rested : s.Rested)
    (noted : s.NotedIn seen) (hidle : s.reader.isIdle = true) :
    (start way limit s seen).Sound way limit ∧ (start way limit s seen).Rests ∧
      (start way limit s seen).intake = Intake.turn limit ⟨s.forWriter, none⟩ := by
  have hready := prepare_ready way limit h rested noted hidle
  obtain ⟨hsound, hrests, hintake⟩ :=
    asks hready.guarded hready.rested hready.noted hready.asks hready.unread
  obtain ⟨hsound', hrests', hintake'⟩ := carryOn_rests hsound
  refine ⟨hsound', hrests', ?_⟩
  rw [start, hintake', hsound.rests hrests, hintake]
  rw [show (prepare way s seen).intake = ⟨s.forWriter, none⟩ by
    rw [intake, intakeOf, hready.view, hready.unread]]

/-- A read at rest is at rest again after the writer has done something. -/
theorem step_rests (h : c.Sound way limit) (r : WriterRequest) :
    (c.step way limit r).Sound way limit ∧ (c.step way limit r).Rests ∧
      (c.step way limit r).intake = c.intake.step limit r := by
  obtain ⟨hsound, hintake⟩ := h.awaits r
  obtain ⟨hsound', hrests', hintake'⟩ := carryOn_rests hsound
  exact ⟨hsound', hrests', hintake'.trans hintake⟩

/-- What is seen of a read is what there is to see in its intake. -/
theorem sights_intake (rs : List WriterRequest) : ∀ {c : ReadCourse}, c.Sound way limit →
    c.sights way limit rs = c.intake.sights limit rs := by
  induction rs with
  | nil =>
    intro c _
    rfl
  | cons r rs ih =>
    intro c h
    obtain ⟨h', _, hintake⟩ := step_rests h r
    rw [sights, Intake.sights, ih h', hintake]
    rfl

end ReadCourse

/-! ### Agreement -/

/-- In a new ring nothing is registered, so nothing is to be noted. -/
theorem Session.new_noted (capacity : Nat) (observer : Observer) (polled : Bool) :
    (Session.new capacity observer polled).NotedIn ⟨none, none⟩ := by
  constructor
  · intro k hk
    cases polled
    · cases hk
    · cases hk
  · intro k hk
    cases polled
    · cases hk
    · cases hk

/-- **All ways to write come to the same, and all ways to read.**  In every ring whose writer is not
    closed, and whose handle is idle, the same numbers of bytes are committed and the same bytes are
    in the ring at first and after each request of the reader, and the write ends the same way,
    whichever way it is made.  In every ring whose reader's handle is idle, a read gets the same
    bytes, or finds the end of the stream, at the same request of the writer. -/
theorem Session.paths_agree {capacity : Nat} (hpos : 0 < capacity) (hword : capacity < UInt64.size)
    (observer : Observer) (polled : Bool) (before : List Request) :
    let s := (Session.new capacity observer polled).after before
    let seen := (Session.new capacity observer polled).watching before ⟨none, none⟩
    (s.writer.isIdle = true → s.channel.writerClosed = false →
      ∀ (a b : WriteWay) (data : List UInt8) (rs : List ReaderRequest),
        (WriteCourse.start a data s seen).sights a data rs
          = (WriteCourse.start b data s seen).sights b data rs) ∧
    (s.reader.isIdle = true →
      ∀ (a b : ReadWay) (limit : Nat) (rs : List WriterRequest),
        (ReadCourse.start a limit s seen).sights a limit rs
          = (ReadCourse.start b limit s seen).sights b limit rs) := by
  intro s seen
  obtain ⟨hguarded, hrested⟩ := Session.new_guarded hpos hword observer polled
  obtain ⟨hguarded', hrested', hnoted'⟩ := Session.after_noted before hguarded hrested
    (Session.new_noted capacity observer polled)
  refine ⟨?_, ?_⟩
  · intro hidle hopen a b data rs
    obtain ⟨hsound, hrests, hflow⟩ :=
      WriteCourse.start_rests a data hguarded' hrested' hnoted' hopen hidle
    obtain ⟨hsound', hrests', hflow'⟩ :=
      WriteCourse.start_rests b data hguarded' hrested' hnoted' hopen hidle
    rw [WriteCourse.sights_flow rs hsound hrests, WriteCourse.sights_flow rs hsound' hrests', hflow,
      hflow']
  · intro hidle a b limit rs
    obtain ⟨hsound, _, hintake⟩ :=
      ReadCourse.start_rests a limit hguarded' hrested' hnoted' hidle
    obtain ⟨hsound', _, hintake'⟩ :=
      ReadCourse.start_rests b limit hguarded' hrested' hnoted' hidle
    rw [ReadCourse.sights_intake rs hsound, ReadCourse.sights_intake rs hsound', hintake, hintake']

/-- A buffer is longer than the ring, and the reader leaves before all of it is committed; the first
    bytes for a read arrive when it already waits. -/
theorem Session.paths_agree_waiting :
    let before := [.writer (.tryWrite [9]), .reader (.tryRead 1)]
    let s := (Session.new 2 .counting true).after before
    let seen := (Session.new 2 .counting true).watching before ⟨none, none⟩
    let writes := fun way : WriteWay =>
      (WriteCourse.start way [1, 2, 3, 4, 5] s seen).sights way [1, 2, 3, 4, 5] [.tryRead 1, .drop]
    let reads := fun way : ReadWay =>
      (ReadCourse.start way 3 s seen).sights way 3 [.tryWrite [1, 2], .drop]
    (writes (.polls .whenWoken 7) = writes .call ∧
      (writes .call).map (fun seen => (seen.committed, seen.standing))
        = [(2, .waiting), (3, .waiting), (3, .failed)]) ∧
    reads (.future .whenWoken 7) = reads .call ∧
      (reads .call).map ReadSight.got = [none, some [1, 2], some [1, 2]] := by
  intro before s seen writes reads
  obtain ⟨hwrites, hreads⟩ := Session.paths_agree (show 0 < 2 by decide) (by decide) .counting true
    before
  refine ⟨⟨hwrites (by decide) (by decide) (.polls .whenWoken 7) .call [1, 2, 3, 4, 5] _, ?_⟩,
    hreads (by decide) (.future .whenWoken 7) .call 3 _, ?_⟩
  · decide
  · decide

end Conduit.Ring

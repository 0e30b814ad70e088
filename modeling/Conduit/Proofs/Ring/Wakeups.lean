/-
  Conduit/Proofs/Ring/Wakeups.lean
  ================================
  **No wake-up is lost, and nobody sleeps without need.**

  Between requests, after every roused call has gone on, a blocked writer means a full ring
  with an open reader and a blocked reader an empty ring with an open writer.  For polled
  ends a run is watched from the outside: a poll that is pending is noted with its waker,
  and the note hears whether the waker is called from then on.  A registered end whose
  waker was not called still has to wait; so whatever the other end does to change that
  calls the waker.

  Two facts carry the runs.  The guards say that whoever sleeps has to.  `Noted` says that
  whoever is registered sleeps in its signal under the waker that was noted, or the note
  has heard the call.
-/
import Conduit.Proofs.Ring.Ends
import Conduit.Proofs.Watch

namespace Conduit.Ring

open Signal (Slim WaitKey)

/-- What is noted of the latest pending poll of each end. -/
structure Watches where
  writer : Option Watch
  reader : Option Watch
deriving DecidableEq, Repr

/-- Both notes hear of effects. -/
def Watches.hear (effects : List Effect) (seen : Watches) : Watches :=
  ⟨seen.writer.map (Watch.hear effects), seen.reader.map (Watch.hear effects)⟩

namespace Session

/-- What is noted when a request is answered: a poll that is pending is noted anew. -/
def noting (s : Session) (r : Request) (seen : Watches) : Watches :=
  let later := seen.hear (s.request r).effects
  match r, (s.request r).answer with
  | .writer r, .pending => { later with writer := r.waker?.map fun w => ⟨w, false⟩ }
  | .reader r, .pending => { later with reader := r.waker?.map fun w => ⟨w, false⟩ }
  | _, _ => later

/-- What is noted after a run. -/
def watching (s : Session) : List Request → Watches → Watches
  | [], seen => seen
  | r :: rs, seen =>
    watching (s.advance r).state rs ((s.noting r seen).hear (s.request r).state.settle.effects)

/-- The writer has to wait: no byte fits, and somebody is there to make room. -/
def WriterWaits (s : Session) : Prop :=
  s.channel.store.Full ∧ s.channel.readerClosed = false

/-- The reader has to wait: no byte is unread, and somebody is there to write one. -/
def ReaderWaits (s : Session) : Prop :=
  s.channel.store.Empty ∧ s.channel.writerClosed = false

instance (s : Session) : Decidable s.WriterWaits := inferInstanceAs (Decidable (_ ∧ _))

instance (s : Session) : Decidable s.ReaderWaits := inferInstanceAs (Decidable (_ ∧ _))

/-- Nobody sleeps without need, and the waker of a pending poll is called as soon as the poll need
    not wait any longer. -/
structure Alert (s : Session) (seen : Watches) : Prop where
  writer_blocked : ∀ mode data written, s.writer = .asleep mode data written →
    s.WriterWaits ∧ s.reader ≠ .gone
  reader_blocked : ∀ limit, s.reader = .asleep limit → s.ReaderWaits ∧ s.writer ≠ .gone
  one_blocked : ∀ mode data written limit,
    ¬ (s.writer = .asleep mode data written ∧ s.reader = .asleep limit)
  writer_noted : s.writer.key.isRegistered = true →
    ∃ x, seen.writer = some x ∧ (x.woken = false → s.WriterWaits)
  reader_noted : s.reader.key.isRegistered = true →
    ∃ x, seen.reader = some x ∧ (x.woken = false → s.ReaderWaits)
  writer_woken : ∀ x, s.writer.key.isRegistered = true → seen.writer = some x → x.woken = false →
    ∀ r, ¬ (s.request (.reader r)).state.WriterWaits →
      .woken x.waker ∈ (s.request (.reader r)).effects
  reader_woken : ∀ x, s.reader.key.isRegistered = true → seen.reader = some x → x.woken = false →
    ∀ r, ¬ (s.request (.writer r)).state.ReaderWaits →
      .woken x.waker ∈ (s.request (.writer r)).effects

/-! ### Settling -/

variable {s : Session}

/-- While a writer is roused, no read sleeps. -/
def Poised (s : Session) : Prop :=
  s.channel.spaceReady.roused ≠ [] → ∀ limit, s.reader ≠ .asleep limit

theorem awake_writer_rested {e : WriterEnd} {signal : Slim} (h : Attends e.occupant signal)
    (hawake : ∀ mode data written, e ≠ .asleep mode data written) : signal.roused = [] := by
  cases e with
  | asleep mode data written => exact absurd rfl (hawake mode data written)
  | blocking => exact h.nobody_rested
  | polled key => exact h.key_rested
  | writing key data written => exact h.key_rested
  | gone => exact h.nobody_rested

theorem awake_reader_rested {e : ReaderEnd} {signal : Slim} (h : Attends e.occupant signal)
    (hawake : ∀ limit, e ≠ .asleep limit) : signal.roused = [] := by
  cases e with
  | asleep limit => exact absurd rfl (hawake limit)
  | blocking => exact h.nobody_rested
  | polled key => exact h.key_rested
  | reading key limit => exact h.key_rested
  | gone => exact h.nobody_rested

theorem WriterAnswers.guarded {r : WriterRequest} {o : Answer} (h : s.Guarded)
    (ha : WriterAnswers s r o) : o.state.Guarded where
  channel := by
    rw [ha.reader]
    exact ha.channel
  writerGone := ha.gone
  readerGone hgone := by
    rw [ha.spares.flag]
    exact h.readerGone (ha.reader ▸ hgone)

theorem ReaderAnswers.guarded {r : ReaderRequest} {o : Answer} (h : s.Guarded)
    (ha : ReaderAnswers s r o) : o.state.Guarded where
  channel := by
    rw [ha.writer]
    exact ha.channel
  writerGone hgone := by
    rw [ha.spares.flag]
    exact h.writerGone (ha.writer ▸ hgone)
  readerGone := ha.gone

/-- A read that was not roused does not go on. -/
theorem settleReader_rested (hdata : s.channel.dataReady.roused = []) :
    s.settleReader = .pure none s := by
  rw [settleReader]
  split
  · rw [hdata, List.isEmpty_nil, if_pos rfl]
  · rfl

theorem settleWriter_rested (hspace : s.channel.spaceReady.roused = []) :
    s.settleWriter = .pure none s := by
  rw [settleWriter]
  split
  · rw [hspace, List.isEmpty_nil, if_pos rfl]
  · rfl

/-- A read that was roused goes on. -/
theorem settleReader_roused {limit : Nat} (hreader : s.reader = .asleep limit)
    (hroused : s.channel.dataReady.roused ≠ []) :
    s.settleReader = (s.blockReading limit (resumeRead limit s.channel)).map fun r =>
      if r = .started then none else some r := by
  simp only [settleReader, hreader, List.isEmpty_iff, hroused, if_false]

theorem settleWriter_roused {mode : WriteMode} {data : List UInt8} {written : Nat}
    (hwriter : s.writer = .asleep mode data written)
    (hroused : s.channel.spaceReady.roused ≠ []) :
    s.settleWriter
      = (s.blockWriting mode data (resumeWrite mode data (s.channel, written))).map fun r =>
        if r = .started then none else some r := by
  simp only [settleWriter, hwriter, List.isEmpty_iff, hroused, if_false]

/-- What becomes of a sleeping read is the answer to no particular request. -/
theorem settleReader_cases (h : s.Guarded) :
    s.settleReader = .pure none s ∧
        ((∀ limit, s.reader ≠ .asleep limit) ∨ s.channel.dataReady.roused = []) ∨
      ∃ limit o, s.reader = .asleep limit ∧ ReaderAnswers s (.readOnce limit) o ∧
        s.settleReader.state = o.state ∧ s.settleReader.effects = o.effects := by
  cases hreader : s.reader with
  | asleep limit =>
    have hchannel := h.channel
    rw [hreader] at hchannel
    by_cases hroused : s.channel.dataReady.roused = []
    · left
      exact ⟨settleReader_rested hroused, Or.inr hroused⟩
    · right
      obtain ⟨hkept, hrested, hpoised⟩ := resumeRead_guarded limit hchannel hroused
      refine ⟨limit, s.blockReading limit (resumeRead limit s.channel), rfl,
        blockReading_answers hkept hrested hpoised (resumeRead_spares limit s.channel), ?_, ?_⟩
      · rw [settleReader_roused hreader hroused, Outcome.map_state]
      · rw [settleReader_roused hreader hroused, Outcome.map_effects]
  | _ =>
    left
    refine ⟨?_, Or.inl ?_⟩
    · simp only [settleReader, hreader]
    · intro limit hasleep
      cases hasleep

theorem settleWriter_cases (h : s.Guarded) :
    s.settleWriter = .pure none s ∧
        ((∀ mode data written, s.writer ≠ .asleep mode data written) ∨
          s.channel.spaceReady.roused = []) ∨
      ∃ mode data written o, s.writer = .asleep mode data written ∧
        s.channel.spaceReady.roused ≠ [] ∧ WriterAnswers s (.writeOnce data) o ∧
        s.settleWriter.state = o.state ∧ s.settleWriter.effects = o.effects := by
  cases hwriter : s.writer with
  | asleep mode data written =>
    have hchannel := h.channel
    rw [hwriter] at hchannel
    by_cases hroused : s.channel.spaceReady.roused = []
    · left
      exact ⟨settleWriter_rested hroused, Or.inr hroused⟩
    · right
      obtain ⟨hkept, hrested⟩ :=
        resumeWrite_guarded mode data (s := (s.channel, written)) hchannel hroused
      refine ⟨mode, data, written, s.blockWriting mode data (resumeWrite mode data
        (s.channel, written)), rfl, hroused, blockWriting_answers hkept hrested
        (resumeWrite_spares mode data (s.channel, written)), ?_, ?_⟩
      · rw [settleWriter_roused hwriter hroused, Outcome.map_state]
      · rw [settleWriter_roused hwriter hroused, Outcome.map_effects]
  | _ =>
    left
    refine ⟨?_, Or.inl ?_⟩
    · simp only [settleWriter, hwriter]
    · intro mode data written hasleep
      cases hasleep

theorem settleReader_guarded (h : s.Guarded) (hpoised : s.Poised) :
    s.settleReader.state.Guarded ∧ s.settleReader.state.channel.dataReady.roused = [] ∧
      s.settleReader.state.Poised := by
  rcases settleReader_cases h with ⟨hsame, hrested⟩ | ⟨limit, o, hreader, ha, hstate, _⟩
  · rw [hsame]
    refine ⟨h, ?_, hpoised⟩
    rcases hrested with hawake | hrested
    · exact awake_reader_rested h.channel.data hawake
    · exact hrested
  · rw [hstate]
    refine ⟨ha.guarded h, ha.rested, ?_⟩
    intro hroused limit' hasleep
    apply hroused
    rw [ha.poised limit' hasleep]
    by_contra hroused'
    exact hpoised hroused' limit hreader

/-- The write that goes on finds no sleeping read, so it rouses nobody. -/
theorem settleWriter_guarded (h : s.Guarded) (hdata : s.channel.dataReady.roused = [])
    (hpoised : s.Poised) :
    s.settleWriter.state.Guarded ∧ s.settleWriter.state.Rested := by
  rcases settleWriter_cases h with
    ⟨hsame, hrested⟩ | ⟨mode, data, written, o, hwriter, hroused, ha, hstate, _⟩
  · rw [hsame]
    refine ⟨h, ?_, hdata⟩
    rcases hrested with hawake | hrested
    · exact awake_writer_rested h.channel.space hawake
    · exact hrested
  · rw [hstate]
    exact ⟨ha.guarded h, ha.rested, awake_reader_rested ha.channel.data (hpoised hroused)⟩

theorem settle_guarded (h : s.Guarded) (hpoised : s.Poised) :
    s.settle.state.Guarded ∧ s.settle.state.Rested := by
  obtain ⟨hguarded, hdata, hpoised'⟩ := settleReader_guarded h hpoised
  exact settleWriter_guarded hguarded hdata hpoised'

/-- A request leaves the ring guarded and poised. -/
theorem request_guarded (h : s.Guarded) (rested : s.Rested) (r : Request) :
    (s.request r).state.Guarded ∧ (s.request r).state.Poised := by
  cases r with
  | writer r =>
    have ha := writerRequest_answers h rested r
    exact ⟨ha.guarded h, fun hroused => absurd ha.rested hroused⟩
  | reader r =>
    have ha := readerRequest_answers h rested r
    refine ⟨ha.guarded h, ?_⟩
    intro hroused limit hasleep
    apply hroused
    show (s.readerRequest r).state.channel.spaceReady.roused = []
    rw [ha.poised limit hasleep]
    exact rested.space
  | unknown => exact ⟨h, fun hroused => absurd rested.space hroused⟩

theorem advance_guarded (h : s.Guarded) (rested : s.Rested) (r : Request) :
    (s.advance r).state.Guarded ∧ (s.advance r).state.Rested := by
  obtain ⟨hguarded, hpoised⟩ := request_guarded h rested r
  exact settle_guarded hguarded hpoised

/-! ### Notes -/

/-- Whoever is registered is noted, and sleeps under the waker noted for it or has heard it. -/
def Noted (key : WaitKey) (signal : Slim) (note : Option Watch) : Prop :=
  ∀ k, key = ⟨some k⟩ →
    ∃ x, note = some x ∧ (x.woken = true ∨ (k, x.waker) ∈ signal.tasks)

/-- A note stays true if whoever leaves the signal is woken. -/
theorem Noted.hear {key : WaitKey} {signal signal' : Slim} {note : Option Watch}
    {effects : List Effect} (h : Noted key signal note)
    (heeds : ∀ t ∈ signal.tasks, t ∈ signal'.tasks ∨ .woken t.2 ∈ effects) :
    Noted key signal' (note.map (Watch.hear effects)) := by
  intro k hk
  obtain ⟨x, hx, hstate⟩ := h k hk
  refine ⟨x.hear effects, by rw [hx]; rfl, ?_⟩
  rcases hstate with hwoken | hmem
  · exact Or.inl (Watch.hear_of_woken hwoken effects)
  · rcases heeds _ hmem with hstill | hcalled
    · exact Or.inr hstill
    · exact Or.inl (Watch.hear_of_mem hcalled)

theorem Noted.still {key : WaitKey} {signal : Slim} {note : Option Watch}
    (h : Noted key signal note) (effects : List Effect) :
    Noted key signal (note.map (Watch.hear effects)) :=
  h.hear fun _ ht => Or.inl ht

/-- Both ends are noted. -/
structure NotedIn (s : Session) (seen : Watches) : Prop where
  writer : Noted s.writer.key s.channel.spaceReady seen.writer
  reader : Noted s.reader.key s.channel.dataReady seen.reader

theorem noting_writer {seen : Watches} (h : s.Guarded) (rested : s.Rested)
    (noted : s.NotedIn seen) (r : WriterRequest) :
    (s.request (.writer r)).state.NotedIn (s.noting (.writer r) seen) := by
  have ha := writerRequest_answers h rested r
  have hreader : Noted (s.writerRequest r).state.reader.key
      (s.writerRequest r).state.channel.dataReady
      (seen.reader.map (Watch.hear (s.writerRequest r).effects)) := by
    rw [ha.reader]
    exact noted.reader.hear ha.spares.heeds
  by_cases hpending : (s.writerRequest r).answer = .pending
  · have hseen : s.noting (.writer r) seen
        = { seen.hear (s.writerRequest r).effects with
          writer := r.waker?.map fun w => ⟨w, false⟩ } := by
      simp only [noting, request, hpending]
    rw [hseen]
    refine ⟨?_, hreader⟩
    intro k hk
    rcases ha.noted k hk with ⟨w, _, hwaker, hmem⟩ | ⟨hne, _⟩
    · exact ⟨⟨w, false⟩, by rw [hwaker]; rfl, Or.inr hmem⟩
    · exact absurd hpending hne
  · have hseen : s.noting (.writer r) seen = seen.hear (s.writerRequest r).effects := by
      simp only [noting, request]
      split
      · contradiction
      · rename_i heq _
        cases heq
      · rfl
    rw [hseen]
    refine ⟨?_, hreader⟩
    intro k hk
    rcases ha.noted k hk with ⟨w, hanswer, _⟩ | ⟨_, hkey, hspace⟩
    · exact absurd hanswer hpending
    · have hstill := noted.writer.still (s.writerRequest r).effects k hkey
      rw [← hspace] at hstill
      exact hstill

theorem noting_reader {seen : Watches} (h : s.Guarded) (rested : s.Rested)
    (noted : s.NotedIn seen) (r : ReaderRequest) :
    (s.request (.reader r)).state.NotedIn (s.noting (.reader r) seen) := by
  have ha := readerRequest_answers h rested r
  have hwriter : Noted (s.readerRequest r).state.writer.key
      (s.readerRequest r).state.channel.spaceReady
      (seen.writer.map (Watch.hear (s.readerRequest r).effects)) := by
    rw [ha.writer]
    exact noted.writer.hear ha.spares.heeds
  by_cases hpending : (s.readerRequest r).answer = .pending
  · have hseen : s.noting (.reader r) seen
        = { seen.hear (s.readerRequest r).effects with
          reader := r.waker?.map fun w => ⟨w, false⟩ } := by
      simp only [noting, request, hpending]
    rw [hseen]
    refine ⟨hwriter, ?_⟩
    intro k hk
    rcases ha.noted k hk with ⟨w, _, hwaker, hmem⟩ | ⟨hne, _⟩
    · exact ⟨⟨w, false⟩, by rw [hwaker]; rfl, Or.inr hmem⟩
    · exact absurd hpending hne
  · have hseen : s.noting (.reader r) seen = seen.hear (s.readerRequest r).effects := by
      simp only [noting, request]
      split
      · rename_i heq _
        cases heq
      · contradiction
      · rfl
    rw [hseen]
    refine ⟨hwriter, ?_⟩
    intro k hk
    rcases ha.noted k hk with ⟨w, hanswer, _⟩ | ⟨_, hkey, hdata⟩
    · exact absurd hanswer hpending
    · have hstill := noted.reader.still (s.readerRequest r).effects k hkey
      rw [← hdata] at hstill
      exact hstill

theorem noting_noted {seen : Watches} (h : s.Guarded) (rested : s.Rested)
    (noted : s.NotedIn seen) (r : Request) :
    (s.request r).state.NotedIn (s.noting r seen) := by
  cases r with
  | writer r => exact noting_writer h rested noted r
  | reader r => exact noting_reader h rested noted r
  | unknown => exact ⟨noted.writer.still [], noted.reader.still []⟩

theorem Watches.hear_append (effects effects' : List Effect) (seen : Watches) :
    seen.hear (effects ++ effects') = (seen.hear effects).hear effects' := by
  simp only [Watches.hear, Option.map_map]
  congr 2
  · funext x
    exact Watch.hear_append effects effects' x
  · funext x
    exact Watch.hear_append effects effects' x

/-- An end that blocks is not registered before and not after it goes on. -/
theorem settleReader_noted {seen : Watches} (h : s.Guarded) (noted : s.NotedIn seen) :
    s.settleReader.state.NotedIn (seen.hear s.settleReader.effects) := by
  rcases settleReader_cases h with ⟨hsame, _⟩ | ⟨limit, o, hreader, ha, hstate, heffects⟩
  · rw [hsame]
    exact ⟨noted.writer.still [], noted.reader.still []⟩
  · rw [hstate, heffects]
    constructor
    · rw [ha.writer]
      exact noted.writer.hear ha.spares.heeds
    · intro k hk
      rcases ha.noted k hk with ⟨w, _, hwaker, _⟩ | ⟨_, hkey, _⟩
      · cases hwaker
      · rw [hreader] at hkey
        cases hkey

theorem settleWriter_noted {seen : Watches} (h : s.Guarded) (noted : s.NotedIn seen) :
    s.settleWriter.state.NotedIn (seen.hear s.settleWriter.effects) := by
  rcases settleWriter_cases h with
    ⟨hsame, _⟩ | ⟨mode, data, written, o, hwriter, _, ha, hstate, heffects⟩
  · rw [hsame]
    exact ⟨noted.writer.still [], noted.reader.still []⟩
  · rw [hstate, heffects]
    constructor
    · intro k hk
      rcases ha.noted k hk with ⟨w, _, hwaker, _⟩ | ⟨_, hkey, _⟩
      · cases hwaker
      · rw [hwriter] at hkey
        cases hkey
    · rw [ha.reader]
      exact noted.reader.hear ha.spares.heeds

theorem settle_noted {seen : Watches} (h : s.Guarded) (hpoised : s.Poised)
    (noted : s.NotedIn seen) : s.settle.state.NotedIn (seen.hear s.settle.effects) := by
  have hreader := settleReader_noted h noted
  have hwriter := settleWriter_noted (settleReader_guarded h hpoised).1 hreader
  rw [← Watches.hear_append] at hwriter
  exact hwriter

/-! ### Runs -/

theorem after_noted (rs : List Request) : ∀ {s : Session} {seen : Watches}, s.Guarded → s.Rested →
    s.NotedIn seen → (s.after rs).Guarded ∧ (s.after rs).Rested ∧
      (s.after rs).NotedIn (s.watching rs seen) := by
  induction rs with
  | nil =>
    intro s seen h rested noted
    exact ⟨h, rested, noted⟩
  | cons r rs ih =>
    intro s seen h rested noted
    obtain ⟨hguarded, hrested⟩ := advance_guarded h rested r
    obtain ⟨hguarded', hpoised⟩ := request_guarded h rested r
    have hnoted := settle_noted hguarded' hpoised (noting_noted h rested noted r)
    exact ih hguarded hrested hnoted

theorem key_eq_of_registered {key : WaitKey} (h : key.isRegistered = true) :
    ∃ k, key = ⟨some k⟩ := by
  obtain ⟨_ | k⟩ := key
  · cases h
  · exact ⟨k, rfl⟩

theorem sleeps_of_mem {signal : Slim} {t : UInt64 × Waker} (h : t ∈ signal.tasks) :
    Sleeps signal := Or.inl (List.ne_nil_of_mem h)

/-- A guarded ring at rest whose pending polls are noted is alert. -/
theorem alert_of_noted {seen : Watches} (h : s.Guarded) (rested : s.Rested)
    (noted : s.NotedIn seen) : s.Alert seen := by
  have hwriter (mode : WriteMode) (data : List UInt8) (written : Nat)
      (hasleep : s.writer = .asleep mode data written) : s.WriterWaits := by
    have hspace := h.channel.space
    rw [hasleep] at hspace
    exact h.channel.full (hspace.sleeps_of_thread rested.space)
  have hreader (limit : Nat) (hasleep : s.reader = .asleep limit) : s.ReaderWaits := by
    have hdata := h.channel.data
    rw [hasleep] at hdata
    exact h.channel.empty (hdata.sleeps_of_thread rested.data)
  constructor
  · intro mode data written hasleep
    refine ⟨hwriter mode data written hasleep, ?_⟩
    intro hgone
    have hopen := (hwriter mode data written hasleep).2
    rw [h.readerGone hgone] at hopen
    cases hopen
  · intro limit hasleep
    refine ⟨hreader limit hasleep, ?_⟩
    intro hgone
    have hopen := (hreader limit hasleep).2
    rw [h.writerGone hgone] at hopen
    cases hopen
  · rintro mode data written limit ⟨hwrites, hreads⟩
    exact h.channel.sized.not_full_empty
      ⟨(hwriter mode data written hwrites).1, (hreader limit hreads).1⟩
  · intro hregistered
    obtain ⟨k, hk⟩ := key_eq_of_registered hregistered
    obtain ⟨x, hx, hstate⟩ := noted.writer k hk
    refine ⟨x, hx, ?_⟩
    intro hunwoken
    rcases hstate with hwoken | hmem
    · rw [hwoken] at hunwoken
      cases hunwoken
    · exact h.channel.full (sleeps_of_mem hmem)
  · intro hregistered
    obtain ⟨k, hk⟩ := key_eq_of_registered hregistered
    obtain ⟨x, hx, hstate⟩ := noted.reader k hk
    refine ⟨x, hx, ?_⟩
    intro hunwoken
    rcases hstate with hwoken | hmem
    · rw [hwoken] at hunwoken
      cases hunwoken
    · exact h.channel.empty (sleeps_of_mem hmem)
  · intro x hregistered hx hunwoken r hfree
    obtain ⟨k, hk⟩ := key_eq_of_registered hregistered
    obtain ⟨x', hx', hstate⟩ := noted.writer k hk
    obtain rfl : x' = x := Option.some.inj (hx'.symm.trans hx)
    have ha := readerRequest_answers h rested r
    rcases hstate with hwoken | hmem
    · rw [hwoken] at hunwoken
      cases hunwoken
    · rcases ha.spares.heeds _ hmem with hstill | hcalled
      · exact absurd (ha.channel.full (sleeps_of_mem hstill)) hfree
      · exact hcalled
  · intro x hregistered hx hunwoken r hfree
    obtain ⟨k, hk⟩ := key_eq_of_registered hregistered
    obtain ⟨x', hx', hstate⟩ := noted.reader k hk
    obtain rfl : x' = x := Option.some.inj (hx'.symm.trans hx)
    have ha := writerRequest_answers h rested r
    rcases hstate with hwoken | hmem
    · rw [hwoken] at hunwoken
      cases hunwoken
    · rcases ha.spares.heeds _ hmem with hstill | hcalled
      · exact absurd (ha.channel.empty (sleeps_of_mem hstill)) hfree
      · exact hcalled

/-- **No wake-up is lost in a ring**, whatever its capacity and whatever is asked of its ends in
    whatever order. -/
theorem no_wakeup_lost {capacity : Nat} (hpos : 0 < capacity) (hword : capacity < UInt64.size)
    (observer : Observer) (polled : Bool) (rs : List Request) :
    ((new capacity observer polled).after rs).Alert
      ((new capacity observer polled).watching rs ⟨none, none⟩) := by
  obtain ⟨hguarded, hrested⟩ := new_guarded hpos hword observer polled
  have hnoted : (new capacity observer polled).NotedIn ⟨none, none⟩ := by
    constructor
    · intro k hk
      cases polled <;> cases hk
    · intro k hk
      cases polled <;> cases hk
  obtain ⟨hguarded', hrested', hnoted'⟩ := after_noted rs hguarded hrested hnoted
  exact alert_of_noted hguarded' hrested' hnoted'

/-- A polled write of three bytes into two places waits, and the first read wakes it. -/
theorem no_wakeup_lost_full :
    let s := (new 2 .counting true).after [.writer (.write [1, 2, 3] 7 false)]
    s.writer.key.isRegistered = true ∧ s.WriterWaits ∧
      .woken 7 ∈ (s.request (.reader (.tryRead 1))).effects := by
  intro s
  have halert : s.Alert _ := no_wakeup_lost (by decide) (by decide) .counting true _
  obtain ⟨x, hx, hwaits⟩ := halert.writer_noted (by decide)
  obtain rfl : (⟨7, false⟩ : Watch) = x := Option.some.inj hx
  exact ⟨by decide, hwaits rfl, halert.writer_woken _ (by decide) hx rfl (.tryRead 1) (by decide)⟩

end Session

end Conduit.Ring

/-
  Conduit/Proofs/Ring/Relays.lean
  ===============================
  **Every loop of a ring ends, and so do the calls that wake one another.**

  `LoopsEnd` goes through the loops that the ends of a ring can be in: polls of a handle,
  blocking calls, and calls that were roused.  Each ends in every state that is guarded,
  so in every state that a run leads to and in those on the way there.

  After a request a call that was roused goes on (`Relay`), and what it moves may rouse the
  call of the other end.  A read that goes on may rouse a write; a write that goes on finds
  no sleeping read.  So two calls go on at most, in an order that the ring leaves no choice
  about, and then each of them has returned or sleeps again.
-/
import Conduit.Proofs.Ring.Passes
import Conduit.Proofs.Signal.Relays

namespace Conduit.Ring

open Signal (Queue Slim Spin WaitKey)
open Outcome (Finishes Never Passes)
open Channel (Guarded)

/-! ### Threads that are resumed -/

/-- A thread that was roused is let through and does nothing else. -/
theorem Attends.resume_pure {s : Slim} {t : Thread} (h : Attends (.thread t) s)
    (hroused : s.roused ≠ []) : s.resume = .pure (some t) s.resume.state := by
  cases h with
  | asleep hp => exact absurd rfl hroused
  | @roused word next observer _ p hp =>
    obtain ⟨word', _, hresume⟩ := resume_alone t next observer hp
    rw [hresume, Outcome.pure_state]

/-- Whoever sleeps in a signal in which nobody is roused is asleep there. -/
theorem Attends.asleep_alone {signal : Slim} {t : Thread} (h : Attends (.thread t) signal)
    (rested : signal.roused = []) : signal.asleep = [t] := by
  cases h with
  | asleep hp => rfl
  | roused hp => exact absurd rested (List.cons_ne_nil _ _)

variable {writer reader : Occupant}

theorem resumeRead_ends (limit : Nat) {c : Channel}
    (h : Guarded writer (.thread (threadOf .reader)) c) (hroused : c.dataReady.roused ≠ []) :
    Ends (blockingReadPass limit) Never (Idle Channel.dataReady) (resumeRead limit c)
      (c.onData c.dataReady.resume).state := by
  obtain ⟨_, hdata⟩ := h.data.resume hroused
  have hfree := h.onData hdata fun hsleeps => absurd hsleeps hdata.not_sleeps_nobody
  have hgoes : resumeRead limit c = blockingRead limit (c.onData c.dataReady.resume).state := by
    rw [resumeRead, h.data.resume_pure hroused]
    rfl
  rw [hgoes]
  exact blockingRead_ends limit hfree

theorem resumeWrite_finishes (mode : WriteMode) (data : List UInt8) {s : Committing}
    (h : Guarded (.thread (threadOf .writer)) reader s.1) (hroused : s.1.spaceReady.roused ≠ []) :
    Finishes (blockingWritePass mode data) (Advances data) Lingers (resumeWrite mode data s)
      ((s.1.onSpace s.1.spaceReady.resume).state, s.2) := by
  obtain ⟨_, hspace⟩ := h.space.resume hroused
  have hfree := h.onSpace hspace fun hsleeps => absurd hsleeps hspace.not_sleeps_nobody
  have hgoes : resumeWrite mode data s
      = blockingWrite mode data ((s.1.onSpace s.1.spaceReady.resume).state, s.2) := by
    rw [resumeWrite, h.space.resume_pure hroused]
    rfl
  rw [hgoes]
  exact blockingWrite_finishes mode data hfree

namespace Session

variable {s : Session}

/-! ### The loops of both ends -/

/-- Every loop that an end of the ring may enter comes to an end. -/
structure LoopsEnd (s : Session) : Prop where
  polled_read : s.isAsleep .reader = false → ∀ w limit,
    Ends (readPass w limit) Never (IdlePoll Channel.dataReady)
      (pollRead w limit (s.channel, s.keyOf .reader)) (s.channel, s.keyOf .reader)
  polled_write : s.isAsleep .writer = false → ∀ w src,
    Ends (writePass w src) Never (IdlePoll Channel.spaceReady)
      (pollWrite w src (s.channel, s.keyOf .writer)) (s.channel, s.keyOf .writer)
  whole_write : s.isAsleep .writer = false → ∀ w data written,
    Finishes (writeAllTurn w data) (fun s s' => Advances data s.committing s'.committing)
      (fun s s' => Lingers s.committing s'.committing)
      (pollWriteAll w data ((s.channel, s.keyOf .writer), written))
      ((s.channel, s.keyOf .writer), written)
  write : s.writer = .blocking → ∀ mode data,
    Finishes (blockingWritePass mode data) (Advances data) Lingers
      (blockingWrite mode data (s.channel, 0)) (s.channel, 0)
  read : s.reader = .blocking → ∀ limit,
    Ends (blockingReadPass limit) Never (Idle Channel.dataReady)
      (blockingRead limit s.channel) s.channel
  timed_read : s.reader = .blocking → ∀ limit,
    Ends (timedReadPass limit) Never (Idle Channel.dataReady)
      (timedRead limit s.channel) s.channel
  resumed_write : ∀ mode data written, s.writer = .asleep mode data written →
    s.channel.spaceReady.roused ≠ [] →
    Finishes (blockingWritePass mode data) (Advances data) Lingers
      (resumeWrite mode data (s.channel, written))
      ((s.channel.onSpace s.channel.spaceReady.resume).state, written)
  resumed_read : ∀ limit, s.reader = .asleep limit → s.channel.dataReady.roused ≠ [] →
    Ends (blockingReadPass limit) Never (Idle Channel.dataReady) (resumeRead limit s.channel)
      (s.channel.onData s.channel.dataReady.resume).state
  timed_out_read : ∀ limit, s.reader = .asleep limit → s.channel.dataReady.roused = [] →
    (s.channel.dataReady.timeUp (threadOf .reader)).answer = false

theorem occupant_of_awake_writer (h : s.isAsleep .writer = false) :
    s.writer.occupant = occupant (s.keyOf .writer) := by
  obtain ⟨c, writer, reader⟩ := s
  cases writer with
  | asleep mode data written => cases h
  | _ => rfl

theorem occupant_of_awake_reader (h : s.isAsleep .reader = false) :
    s.reader.occupant = occupant (s.keyOf .reader) := by
  obtain ⟨c, writer, reader⟩ := s
  cases reader with
  | asleep limit => cases h
  | _ => rfl

theorem Guarded.loopsEnd (h : s.Guarded) : s.LoopsEnd := by
  have hchannel := h.channel
  constructor
  · intro hawake w limit
    rw [occupant_of_awake_reader hawake] at hchannel
    exact pollRead_ends w limit hchannel
  · intro hawake w src
    rw [occupant_of_awake_writer hawake] at hchannel
    exact pollWrite_ends w src hchannel
  · intro hawake w data written
    rw [occupant_of_awake_writer hawake] at hchannel
    exact pollWriteAll_finishes w data (s := ((s.channel, s.keyOf .writer), written)) hchannel
  · intro hwriter mode data
    rw [hwriter] at hchannel
    exact blockingWrite_finishes mode data (s := (s.channel, 0)) hchannel
  · intro hreader limit
    rw [hreader] at hchannel
    exact blockingRead_ends limit hchannel
  · intro hreader limit
    rw [hreader] at hchannel
    exact timedRead_ends limit hchannel
  · intro mode data written hwriter hroused
    rw [hwriter] at hchannel
    exact resumeWrite_finishes mode data (s := (s.channel, written)) hchannel hroused
  · intro limit hreader hroused
    rw [hreader] at hchannel
    exact resumeRead_ends limit hchannel hroused
  · intro limit hreader hrested
    rw [hreader] at hchannel
    exact hchannel.data.timeUp_vain hrested

/-! ### Calls that wake one another -/

/-- A call that was roused goes on, until it returns or sleeps again. -/
inductive Relay : Session → Session → Prop
  | read {s : Session} {limit : Nat} (asleep : s.reader = .asleep limit)
    (roused : s.channel.dataReady.roused ≠ []) : Relay s s.settleReader.state
  | write {s : Session} {mode : WriteMode} {data : List UInt8} {written : Nat}
    (asleep : s.writer = .asleep mode data written)
    (roused : s.channel.spaceReady.roused ≠ []) : Relay s s.settleWriter.state

/-- So many calls go on, one after another. -/
inductive Relays : Nat → Session → Session → Prop
  | nil (s : Session) : Relays 0 s s
  | cons {s s' s'' : Session} {n : Nat} (head : Relay s s') (tail : Relays n s' s'') :
    Relays (n + 1) s s''

/-- Whatever a request rouses comes to rest: two calls go on at most, whichever goes first, and
    nothing stops them before the state that the request is said to lead to.  There nobody is
    roused, and whoever was blocked has returned or is asleep in the signal of its side. -/
structure Settles (s : Session) (r : Request) : Prop where
  ends : ∀ n t, Relays n (s.request r).state t →
    n ≤ 2 ∧ (t = (s.advance r).state ∨ ∃ t', Relay t t')
  reached : ∃ n, Relays n (s.request r).state (s.advance r).state
  rested : ∀ t, ¬ Relay (s.advance r).state t
  asleep : ∀ side, (s.advance r).state.isAsleep side = true →
    ((s.advance r).state.channel.awaited side).asleep = [threadOf side] ∧
      ((s.advance r).state.channel.awaited side).roused = []
  returned : ∀ side, (s.request r).state.isAsleep side = true →
    (s.advance r).state.isAsleep side = false →
    ∃ reply, (side, reply) ∈ (s.advance r).answer.2

/-- Where nobody is roused no call goes on. -/
theorem Rested.not_relay (rested : s.Rested) (t : Session) : ¬ Relay s t := by
  intro hrelay
  cases hrelay with
  | read _ hroused => exact hroused rested.data
  | write _ hroused => exact hroused rested.space

/-- A write that was roused goes on while no read is roused, and rouses nobody. -/
theorem relays_of_quiet_reader (h : s.Guarded) (hpoised : s.Poised)
    (hdata : s.channel.dataReady.roused = []) {n : Nat} {t : Session} (hrelays : Relays n s t) :
    n ≤ 1 ∧ (t = s.settleWriter.state ∨ ∃ t', Relay t t') := by
  obtain ⟨_, hrested⟩ := settleWriter_guarded h hdata hpoised
  cases hrelays with
  | nil =>
    refine ⟨Nat.zero_le 1, ?_⟩
    by_cases hspace : s.channel.spaceReady.roused = []
    · rw [settleWriter_rested hspace]
      exact Or.inl rfl
    · obtain ⟨mode, data, written, hasleep⟩ := h.roused_writer hspace
      exact Or.inr ⟨_, .write hasleep hspace⟩
  | cons hhead htail =>
    cases hhead with
    | read _ hroused => exact absurd hdata hroused
    | write _ _ =>
      cases htail with
      | nil => exact ⟨Nat.le_refl 1, Or.inl rfl⟩
      | cons hmore _ => exact absurd hmore (hrested.not_relay _)

/-- A read that was roused goes first. -/
theorem relays_of_poised (h : s.Guarded) (hpoised : s.Poised) {n : Nat} {t : Session}
    (hrelays : Relays n s t) : n ≤ 2 ∧ (t = s.settle.state ∨ ∃ t', Relay t t') := by
  obtain ⟨hguarded, hdata, hpoised'⟩ := settleReader_guarded h hpoised
  by_cases hroused : s.channel.dataReady.roused = []
  · obtain ⟨hfew, hstops⟩ := relays_of_quiet_reader h hpoised hroused hrelays
    have hsame : s.settle.state = s.settleWriter.state := by
      simp only [settle, Outcome.andThen_state, Outcome.map_state, settleReader_rested hroused,
        Outcome.pure_state]
    rw [hsame]
    exact ⟨Nat.le_succ_of_le hfew, hstops⟩
  · obtain ⟨limit, hreader⟩ := h.roused_reader hroused
    cases hrelays with
    | nil => exact ⟨Nat.zero_le 2, Or.inr ⟨_, .read hreader hroused⟩⟩
    | cons hhead htail =>
      cases hhead with
      | read _ _ =>
        obtain ⟨hfew, hstops⟩ := relays_of_quiet_reader hguarded hpoised' hdata htail
        exact ⟨Nat.succ_le_succ hfew, hstops⟩
      | write _ hspace => exact absurd hreader (hpoised hspace limit)

/-- The calls go on to where the ring settles. -/
theorem exists_relays (h : s.Guarded) (hpoised : s.Poised) :
    ∃ n, Relays n s s.settle.state := by
  have hwriter {s : Session} (h : s.Guarded) : ∃ n, Relays n s s.settleWriter.state := by
    by_cases hspace : s.channel.spaceReady.roused = []
    · rw [settleWriter_rested hspace]
      exact ⟨0, .nil s⟩
    · obtain ⟨mode, data, written, hasleep⟩ := h.roused_writer hspace
      exact ⟨1, .cons (.write hasleep hspace) (.nil _)⟩
  obtain ⟨n, hrest⟩ := hwriter (settleReader_guarded h hpoised).1
  by_cases hroused : s.channel.dataReady.roused = []
  · refine ⟨n, ?_⟩
    rw [settleReader_rested hroused] at hrest
    simp only [settle, Outcome.andThen_state, Outcome.map_state, settleReader_rested hroused]
    exact hrest
  · obtain ⟨limit, hreader⟩ := h.roused_reader hroused
    exact ⟨n + 1, .cons (.read hreader hroused) hrest⟩

/-- A call that was blocked and is so no longer has returned. -/
theorem settleReader_returns (hasleep : s.isAsleep .reader = true)
    (hawake : s.settleReader.state.isAsleep .reader = false) :
    ∃ reply, s.settleReader.answer = some reply := by
  by_cases hroused : s.channel.dataReady.roused = []
  · rw [settleReader_rested hroused, Outcome.pure_state, hasleep] at hawake
    cases hawake
  · cases hreader : s.reader with
    | asleep limit =>
      rw [settleReader_roused hreader hroused] at hawake ⊢
      revert hawake
      generalize resumeRead limit s.channel = o
      obtain ⟨bytes | _, c, effects⟩ := o
      · intro _
        exact ⟨.got bytes, rfl⟩
      · intro hawake
        cases hawake
    | _ =>
      simp only [isAsleep, hreader] at hasleep
      cases hasleep

theorem settleWriter_returns (hasleep : s.isAsleep .writer = true)
    (hawake : s.settleWriter.state.isAsleep .writer = false) :
    ∃ reply, s.settleWriter.answer = some reply := by
  by_cases hroused : s.channel.spaceReady.roused = []
  · rw [settleWriter_rested hroused, Outcome.pure_state, hasleep] at hawake
    cases hawake
  · cases hwriter : s.writer with
    | asleep mode data written =>
      rw [settleWriter_roused hwriter hroused] at hawake ⊢
      revert hawake
      generalize resumeWrite mode data (s.channel, written) = o
      obtain ⟨r | _, st, effects⟩ := o
      · intro _
        refine ⟨writeReply mode r, ?_⟩
        cases mode <;> cases r <;> rfl
      · intro hawake
        cases hawake
    | _ =>
      simp only [isAsleep, hwriter] at hasleep
      cases hasleep

theorem settle_returns (side : Side) (hasleep : s.isAsleep side = true)
    (hawake : s.settle.state.isAsleep side = false) :
    ∃ reply, (side, reply) ∈ s.settle.answer := by
  simp only [settle, Outcome.andThen_state, Outcome.andThen_answer, Outcome.map_state,
    Outcome.map_answer] at hawake ⊢
  cases side with
  | writer =>
    have hsame : s.settleReader.state.isAsleep .writer = s.isAsleep .writer := by
      simp only [isAsleep, settleReader_writer]
    obtain ⟨reply, hreply⟩ := settleWriter_returns (hsame.trans hasleep) hawake
    refine ⟨reply, List.mem_append_left _ ?_⟩
    rw [hreply]
    exact List.mem_singleton.mpr rfl
  | reader =>
    have hsame : s.settleReader.state.settleWriter.state.isAsleep .reader
        = s.settleReader.state.isAsleep .reader := by
      simp only [isAsleep, settleWriter_reader]
    obtain ⟨reply, hreply⟩ := settleReader_returns hasleep (hsame.symm.trans hawake)
    refine ⟨reply, List.mem_append_right _ ?_⟩
    rw [hreply]
    exact List.mem_singleton.mpr rfl

theorem settles_of_guarded (h : s.Guarded) (rested : s.Rested) (r : Request) : s.Settles r := by
  obtain ⟨hguarded, hpoised⟩ := request_guarded h rested r
  obtain ⟨hguarded', hrested'⟩ := advance_guarded h rested r
  constructor
  · intro n t hrelays
    exact relays_of_poised hguarded hpoised hrelays
  · exact exists_relays hguarded hpoised
  · exact hrested'.not_relay
  · intro side hasleep
    have hattends := hguarded'.attends side
    cases side with
    | writer =>
      have hoccupant := isAsleep_writer hasleep
      simp only [occupantOf, hoccupant] at hattends
      exact ⟨hattends.asleep_alone hrested'.space, hrested'.space⟩
    | reader =>
      have hoccupant := isAsleep_reader hasleep
      simp only [occupantOf, hoccupant] at hattends
      exact ⟨hattends.asleep_alone hrested'.data, hrested'.data⟩
  · intro side hasleep hawake
    exact settle_returns side hasleep hawake

/-! ### Every loop ends -/

/-- **The loops of the rings and of the signals end**, in every state that a run leads to, in those
    that a request passes through, and for every buffer.  A pass that goes round in vain has
    consumed a release, so no more than two do; a queued wait of the signal that counts permits
    makes two passes at most; and threads that wake one another come to rest, each of them returned
    or asleep. -/
theorem retry_loops_end {capacity : Nat} (hpos : 0 < capacity) (hword : capacity < UInt64.size)
    (observer : Observer) (polled : Bool) (rs : List Request) (asked : List Signal.Request) :
    (let s := (new capacity observer polled).after rs;
      s.LoopsEnd ∧ ∀ r, (s.request r).state.LoopsEnd ∧
        (s.request r).state.settleReader.state.LoopsEnd ∧ s.Settles r) ∧
    (let s := (Signal.Session.new observer : Signal.Session Spin Spin.Wait).after asked;
      (∀ w t, ∃ i got, Passes (Spin.pollPass w t) Never (Spin.Rearms t) 0 i s.signal got
        (Spin.poll w (.queued t) s.signal).state ∧ i ≤ 1 ∧
        (Spin.poll w (.queued t) s.signal).answer
          = if got then (true, .done) else (false, .queued t)) ∧
      ∀ r, s.ThreadsRest (fun _ => []) r) ∧
    (let s := (Signal.Session.new observer : Signal.Session Queue Queue.Wait).after asked;
      ∀ r, s.ThreadsRest Queue.asleep r) ∧
    (let s := (Signal.Session.new observer : Signal.Session Slim Slim.Wait).after asked;
      ∀ r, s.ThreadsRest Slim.asleep r ∧ ∃ n ts, n ≤ (s.request r).state.signal.unrest ∧
        Slim.Resumes n (s.request r).state.signal ts (s.step r).state.signal ∧
        ts.Perm (s.step r).answer.2) := by
  refine ⟨?_, ?_, ?_, ?_⟩
  · intro s
    obtain ⟨hnew, hresting⟩ := new_guarded hpos hword observer polled
    obtain ⟨hguarded, hrested⟩ := after_guarded rs hnew hresting
    refine ⟨hguarded.loopsEnd, fun r => ?_⟩
    obtain ⟨hrequest, hpoised⟩ := request_guarded hguarded hrested r
    have hreader := (settleReader_guarded hrequest hpoised).1
    exact ⟨hrequest.loopsEnd, hreader.loopsEnd, settles_of_guarded hguarded hrested r⟩
  · intro s
    refine ⟨fun w t => Spin.poll_passes w t s.signal, ?_⟩
    exact Signal.Session.spin_threadsRest (Signal.Session.after_unblocked asked rfl)
  · intro s
    obtain ⟨⟨orphans, hfits⟩, hrested, _⟩ := Signal.Session.after_fits
      (Signal.Session.new_fits observer) (Signal.LawfulSignal.new_rested observer)
      (Signal.Session.roomy_of_sparse (fun _ : Queue => trivial) _ asked)
    exact Signal.Session.queue_threadsRest hfits hrested
  · intro s
    obtain ⟨hlisted, hrested⟩ :=
      Signal.Session.after_listed asked (Signal.Session.new_listed observer) rfl
    exact Signal.Session.slim_threadsRest hlisted hrested

/-- A write rouses a sleeping read, which makes room for the rest of the write; and a thread that
    takes the signal in a single word wakes the next, since a release is left over. -/
theorem retry_loops_end_chained :
    (let s := (new 2 .counting false).after [.reader (.readOnce 2)];
      let r := Request.writer (.write [1, 2, 3, 4] 0 false);
      s.Settles r ∧ (s.request r).state.LoopsEnd ∧
        (s.request r).state.isAsleep .writer = true ∧
        (s.advance r).answer.2 = [(.writer, .done), (.reader, .got [1, 2])]) ∧
    (let s := (Signal.Session.new .counting : Signal.Session Slim Slim.Wait).after
        [.wait "a", .poll "a" 1, .block "t", .block "u", .set, .set, .set];
      s.ThreadsRest Slim.asleep (.poll "a" 1) ∧ s.blocked = ["t", "u"] ∧
        (s.step (.poll "a" 1)).state.blocked = []) := by
  have hroom : 0 < 2 := by decide
  obtain ⟨hring, _, _, hslim⟩ := retry_loops_end hroom (by decide) .counting false
    [.reader (.readOnce 2)] [.wait "a", .poll "a" 1, .block "t", .block "u", .set, .set, .set]
  obtain ⟨hloops, _, hsettles⟩ := hring.2 (.writer (.write [1, 2, 3, 4] 0 false))
  constructor
  · exact ⟨hsettles, hloops, by decide, by decide⟩
  · exact ⟨(hslim (.poll "a" 1)).1, by decide, by decide⟩

end Session

end Conduit.Ring

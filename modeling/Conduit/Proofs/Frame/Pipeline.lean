/-
  Conduit/Proofs/Frame/Pipeline.lean
  ==================================
  **The decoder of a ring reports what the parser makes of the stream.**

  A pipeline is a station and the handle of the writer that feeds its ring.  Writer and
  decoder take turns in any order, and a turn of the decoder may be a whole poll or one read
  of it; a write that sleeps goes on as soon as the decoder has made room.

  The decoder `Follows` the writer: of the bytes that are committed it has taken some, and
  what it has reported is what the parser makes of those.  Every turn keeps this, so it holds
  of every run; when the writer is closed the next poll takes the bytes that are left, and
  what the decoder has reported is what the parser makes of them all.
-/
import Conduit.Proofs.Frame.Decoder

namespace Conduit.Frame

open Conduit.Ring (Channel Commit Transfers WriterEnd WriterRequest committedBytes)

/-- A station and the handle of the writer that feeds its ring. -/
structure Pipeline where
  station : Station
  writer : WriterEnd

namespace Pipeline

/-! ### Turns -/

/-- A pipeline with an empty ring, a decoder that has not begun and a fresh handle. -/
def new (capacity : Nat) (observer : Observer) (polled : Bool) (replies : Replies)
    (bodies : Pool Buffer) (pending : List (UInt32 × Completer)) : Pipeline :=
  ⟨⟨.new capacity observer, replies, bodies, pending, some ⟨.fresh, .header []⟩⟩,
    if polled then .polled .fresh else .blocking⟩

/-- The ring with its ends; the decoder has the handle of the reader's until it ends. -/
def ring (p : Pipeline) : Ring.Session where
  channel := p.station.channel
  writer := p.writer
  reader :=
    match p.station.decoder with
    | some d => .polled d.key
    | none => .gone

def onRing {α : Type} (p : Pipeline) (o : Outcome α Ring.Session) : Outcome α Pipeline :=
  o.lift fun s => ⟨{ p.station with channel := s.channel }, s.writer⟩

/-- A request to the writer, a poll of the decoder, or a single read of a poll. -/
inductive Turn
  | writer (r : WriterRequest)
  | poll
  | read
deriving DecidableEq, Repr

/-- The writes that end in a turn, and what the decoder reports in it. -/
abbrev Shown := List Commit × List Report

/-- A turn, before a roused write goes on. -/
def turn (p : Pipeline) : Turn → Outcome Shown Pipeline
  | .writer r =>
    (p.onRing (p.ring.writerRequest r)).map fun reply => (p.ring.ended (.writer r) reply, [])
  | .poll => p.station.poll.andThen fun r s => .pure ([], r.2) ⟨s, p.writer⟩
  | .read =>
    (Station.pass (p.station, [])).andThen fun _ st => .pure ([], st.2) ⟨st.1, p.writer⟩

def advance (p : Pipeline) (t : Turn) : Outcome Shown Pipeline :=
  (p.turn t).andThen fun shown q =>
    (q.onRing q.ring.settle).map fun returned => (shown.1 ++ q.ring.settled returned, shown.2)

/-- The pipeline after a run. -/
def after (p : Pipeline) : List Turn → Pipeline
  | [] => p
  | t :: ts => after (p.advance t).state ts

/-- The writes that ended in a run. -/
def written (p : Pipeline) : List Turn → List Commit
  | [] => []
  | t :: ts => (p.advance t).answer.1 ++ written (p.advance t).state ts

/-- What the decoder reported in a run. -/
def told (p : Pipeline) : List Turn → List Report
  | [] => []
  | t :: ts => (p.advance t).answer.2 ++ told (p.advance t).state ts

/-- The bytes that were committed in a run, those of the write under way among them. -/
def sent (p : Pipeline) (ts : List Turn) : List UInt8 :=
  committedBytes (p.written ts ++ (p.after ts).writer.underWay)

/-- A turn does not ask a blocking handle of a closed writer to write. -/
def Heeds (p : Pipeline) : Turn → Prop
  | .writer r => p.ring.Heeds (.writer r)
  | .poll | .read => True

/-- No turn of a run asks a blocking handle of a closed writer to write. -/
def Sealed (p : Pipeline) : List Turn → Prop
  | [] => True
  | t :: ts => p.Heeds t ∧ Sealed (p.advance t).state ts

instance (p : Pipeline) (t : Turn) : Decidable (p.Heeds t) :=
  match t with
  | .writer r => inferInstanceAs (Decidable (p.ring.Heeds (.writer r)))
  | .poll | .read => inferInstanceAs (Decidable True)

instance decidableSealed : ∀ (p : Pipeline) (ts : List Turn), Decidable (p.Sealed ts)
  | _, [] => inferInstanceAs (Decidable True)
  | p, t :: ts =>
    have := decidableSealed (p.advance t).state ts
    inferInstanceAs (Decidable (_ ∧ _))

/-! ### What a turn keeps -/

/-- Of the bytes that are committed the decoder has taken `got`, and it has reported of them what the
    parser does. -/
structure Follows (s : Station) (sent got : List UInt8) (told : List Report) (p : Pipeline) :
    Prop where
  ready : p.station.Ready
  stream : Ring.Session.Remembers sent got p.ring
  spent : p.station.channel.writerClosed = true → p.writer.Spent
  desk : p.station.SameDesk (s.heed told)
  future : s.InStep got told p.station ∨ s.Over got told p.station

variable {s : Station} {sent got : List UInt8} {told : List Report} {p q : Pipeline}

/-- No read sleeps in a pipeline. -/
theorem settleReader_none (p : Pipeline) : p.ring.settleReader = .pure none p.ring := by
  obtain ⟨⟨channel, replies, bodies, pending, _ | d⟩, writer⟩ := p
  · rfl
  · rfl

theorem settle_handed (p : Pipeline) : Ring.Session.handed p.ring.settle.answer = [] := by
  have hnone := p.ring.settleReader.state.settleWriter_handed
  simp only [Ring.Session.settle, Outcome.andThen_answer, Outcome.map_answer]
  rw [Ring.Session.handed_returned hnone, settleReader_none]
  rfl

/-- A roused write goes on, and the decoder is where it was. -/
theorem Follows.settle (h : Follows s sent got told p) :
    Follows s (sent ++ committedBytes (p.ring.settled p.ring.settle.answer)) got told
      (p.onRing p.ring.settle).state := by
  by_cases hclosed : p.station.channel.writerClosed = true
  · -- a closed writer has no call that could go on
    have hspent := h.spent hclosed
    have hstate : p.ring.settle.state = p.ring := by
      rw [(Ring.Session.settle_spent (s := p.ring) hspent).1, settleReader_none]
      rfl
    have hsame : (p.onRing p.ring.settle).state = p := by
      rw [onRing, Outcome.lift_state, hstate]
      rfl
    rw [hsame, Ring.Session.settled_spent (s := p.ring) hspent]
    show Follows s (sent ++ []) got told p
    rw [List.append_nil]
    exact h
  · have hflag : p.ring.settle.state.channel.writerClosed = p.station.channel.writerClosed := by
      have hwriter := Ring.Session.settleWriter_writerClosed p.ring.settleReader.state
      rw [settleReader_none] at hwriter
      simp only [Ring.Session.settle, settleReader_none]
      exact hwriter
    have hgoes := p.ring.settle_goes
    rw [settle_handed] at hgoes
    have hstream := hgoes.remembers h.stream
    rw [List.append_nil] at hstream
    refine ⟨⟨h.ready.bodies, h.ready.underway⟩, hstream, ?_, ⟨h.desk.replies, h.desk.pending⟩, ?_⟩
    · intro hclosed'
      exact absurd (hflag.symm.trans hclosed') hclosed
    · rcases h.future with hon | hover
      · exact Or.inl hon
      · exact absurd hover.closed hclosed

/-- A request to the writer leaves the decoder where it was. -/
theorem Follows.write (h : Follows s sent got told p) {r : WriterRequest}
    (hheeds : p.Heeds (.writer r)) :
    Follows s (sent ++ committedBytes (p.turn (.writer r)).answer.1) got told
      (p.turn (.writer r)).state := by
  have hstream := (p.ring.writerRequest_goes r).remembers h.stream
  rw [Ring.Session.writerRequest_handed, List.append_nil] at hstream
  obtain ⟨hspent, hstays⟩ := Ring.Session.writerRequest_closed (s := p.ring) h.spent hheeds
  refine ⟨⟨h.ready.bodies, h.ready.underway⟩, hstream, hspent, ⟨h.desk.replies, h.desk.pending⟩,
    ?_⟩
  rcases h.future with hon | hover
  · exact Or.inl hon
  · right
    have hidles := Ring.Session.writerRequest_idles (s := p.ring) hover.closed
      (h.spent hover.closed) hheeds
    refine ⟨hover.last, hover.ended, hstays hover.closed, ?_⟩
    show (p.ring.writerRequest r).state.channel.store.Empty
    rw [hidles.store]
    exact hover.empty

/-- The decoder reads on. -/
theorem Follows.read (h : Follows s sent got told p) (hon : s.InStep got told p.station)
    {took : List UInt8} {told' : List Report} (hreads : p.station.Reads took told' q.station)
    (hwriter : q.writer = p.writer) : Follows s sent (got ++ took) (told ++ told') q := by
  refine ⟨hreads.ready, ?_, ?_, ?_, ?_⟩
  · have hgoes : Ring.Session.Goes [] took p.ring q.ring :=
      Ring.Session.Goes.read (congrArg WriterEnd.underWay hwriter) hreads.moved
    have hstream := hgoes.remembers h.stream
    rw [committedBytes, List.flatMap_nil, List.append_nil] at hstream
    exact hstream
  · intro hclosed
    rw [hwriter]
    exact h.spent (hreads.flag.symm.trans hclosed)
  · rw [Station.heed_append]
    exact hreads.desk.trans (Station.heed_desk told' h.desk)
  · rcases hreads.future with hon' | hover
    · exact Or.inl (hon.trans hon')
    · exact Or.inr (hon.finish hover)

/-- A turn of a decoder that has ended. -/
theorem turn_ended (h : p.station.decoder = none) {t : Turn} (ht : ∀ r, t ≠ .writer r) :
    p.turn t = .pure ([], []) p := by
  cases t with
  | writer r => exact absurd rfl (ht r)
  | poll =>
    rw [turn, Station.poll_ended h]
    rfl
  | read =>
    rw [turn, Station.pass_ended h]
    rfl

/-- A turn of the decoder is a poll, or what a read of it does. -/
theorem turn_reads (hready : p.station.Ready) (hsized : p.station.channel.store.Sized) {t : Turn}
    (ht : ∀ r, t ≠ .writer r) :
    ∃ took, p.station.Reads took (p.turn t).answer.2 (p.turn t).state.station ∧
      (p.turn t).state.writer = p.writer ∧ (p.turn t).answer.1 = [] := by
  cases t with
  | writer r => exact absurd rfl (ht r)
  | poll =>
    obtain ⟨took, hreads⟩ := Station.poll_reads hready hsized
    exact ⟨took, hreads, rfl, rfl⟩
  | read =>
    obtain ⟨took, told, hpass⟩ := Station.pass_passes (s := (p.station, [])) hready hsized
    have htold : (p.turn .read).answer.2 = told := hpass.reported
    refine ⟨took, ?_, rfl, rfl⟩
    rw [htold]
    exact hpass.reads

theorem Follows.decode (h : Follows s sent got told p) {t : Turn} (ht : ∀ r, t ≠ .writer r) :
    ∃ took, Follows s (sent ++ committedBytes (p.turn t).answer.1) (got ++ took)
      (told ++ (p.turn t).answer.2) (p.turn t).state := by
  cases hdecoder : p.station.decoder with
  | none =>
    refine ⟨[], ?_⟩
    rw [turn_ended hdecoder ht]
    show Follows s (sent ++ []) (got ++ []) (told ++ []) p
    rw [List.append_nil, List.append_nil, List.append_nil]
    exact h
  | some d =>
    have hon : s.InStep got told p.station := by
      rcases h.future with hon | hover
      · exact hon
      · rw [hover.ended] at hdecoder
        cases hdecoder
    obtain ⟨took, hreads, hwriter, hnone⟩ := turn_reads h.ready h.stream.2.1 ht
    refine ⟨took, ?_⟩
    rw [hnone]
    show Follows s (sent ++ []) _ _ _
    rw [List.append_nil]
    exact h.read hon hreads hwriter

/-- **Whoever's turn it is, the decoder follows the writer.** -/
theorem Follows.advance (h : Follows s sent got told p) {t : Turn} (hheeds : p.Heeds t) :
    ∃ took, Follows s (sent ++ committedBytes (p.advance t).answer.1) (got ++ took)
      (told ++ (p.advance t).answer.2) (p.advance t).state := by
  have hturn : ∃ took, Follows s (sent ++ committedBytes (p.turn t).answer.1) (got ++ took)
      (told ++ (p.turn t).answer.2) (p.turn t).state := by
    cases t with
    | writer r =>
      refine ⟨[], ?_⟩
      show Follows s _ (got ++ []) (told ++ []) _
      rw [List.append_nil, List.append_nil]
      exact h.write hheeds
    | poll => exact h.decode nofun
    | read => exact h.decode nofun
  obtain ⟨took, hfollows⟩ := hturn
  have hsettled := hfollows.settle
  rw [List.append_assoc, committedBytes, committedBytes, ← List.flatMap_append] at hsettled
  exact ⟨took, hsettled⟩

/-- **When the decoder has ended it has reported what the parser makes of all bytes**, and if the
    writer is still open, of whatever stream these bytes begin. -/
theorem Follows.whole (h : Follows s sent got told p) (hended : p.station.decoder = none)
    (hshort : (sent ++ committedBytes p.writer.underWay).length < UInt64.size) :
    s.future (sent ++ committedBytes p.writer.underWay) = told ∧
      (p.station.channel.writerClosed = false →
        ∀ rest, s.future (sent ++ committedBytes p.writer.underWay ++ rest) = told) := by
  obtain ⟨hsent, _, hlen⟩ := h.stream.2.exact hshort
  rcases h.future with hon | hover
  · have hall (rest : List UInt8) :
        s.future (sent ++ committedBytes p.writer.underWay ++ rest) = told := by
      have hnothing : ∀ rest, p.station.future rest = [] := by
        intro rest
        rw [Station.future, hended]
      have hrest := hon (p.ring.channel.store.unread ++ rest)
      rw [← List.append_assoc, hnothing, List.append_nil] at hrest
      exact hsent ▸ hrest
    have hnone := hall []
    rw [List.append_nil] at hnone
    exact ⟨hnone, fun _ => hall⟩
  · constructor
    · have hunread : p.ring.channel.store.unread = [] :=
        List.length_eq_zero_iff.mp (hlen.symm.trans hover.empty)
      rw [hunread, List.append_nil] at hsent
      exact hsent ▸ hover.last
    · intro hopen
      rw [hover.closed] at hopen
      cases hopen

/-! ### Runs -/

theorem after_append (before after : List Turn) :
    ∀ p : Pipeline, p.after (before ++ after) = (p.after before).after after := by
  induction before with
  | nil =>
    intro p
    rfl
  | cons t ts ih =>
    intro p
    exact ih (p.advance t).state

theorem told_append (before after : List Turn) : ∀ p : Pipeline,
    p.told (before ++ after) = p.told before ++ (p.after before).told after := by
  induction before with
  | nil =>
    intro p
    rfl
  | cons t ts ih =>
    intro p
    show (p.advance t).answer.2 ++ (p.advance t).state.told (ts ++ after) = _
    rw [ih, ← List.append_assoc]
    rfl

theorem sealed_append (before after : List Turn) : ∀ p : Pipeline,
    p.Sealed (before ++ after) ↔ p.Sealed before ∧ (p.after before).Sealed after := by
  induction before with
  | nil =>
    intro p
    exact ⟨fun h => ⟨trivial, h⟩, fun h => h.2⟩
  | cons t ts ih =>
    intro p
    show p.Heeds t ∧ (p.advance t).state.Sealed (ts ++ after) ↔ (p.Heeds t ∧ _) ∧ _
    rw [ih (p.advance t).state, and_assoc]
    rfl

/-- What is committed stays committed. -/
theorem advance_sends (p : Pipeline) (t : Turn) :
    committedBytes p.writer.underWay
      <+: committedBytes ((p.advance t).answer.1 ++ (p.advance t).state.writer.underWay) := by
  have hsettled := (p.turn t).state.ring.settle_goes
  have hturn : committedBytes p.writer.underWay
      <+: committedBytes ((p.turn t).answer.1 ++ (p.turn t).state.writer.underWay) := by
    cases t with
    | writer r =>
      obtain ⟨put, hput, _⟩ := (p.ring.writerRequest_goes r).stream
      exact ⟨put, hput⟩
    | poll => exact List.prefix_refl _
    | read => exact List.prefix_refl _
  obtain ⟨put, hput, _⟩ := hsettled.stream
  have hrest : committedBytes (p.turn t).state.writer.underWay
      <+: committedBytes ((p.turn t).state.ring.settled (p.turn t).state.ring.settle.answer
        ++ (p.advance t).state.writer.underWay) := ⟨put, hput⟩
  apply hturn.trans
  show _ <+: committedBytes (((p.turn t).answer.1
    ++ (p.turn t).state.ring.settled (p.turn t).state.ring.settle.answer)
    ++ (p.advance t).state.writer.underWay)
  rw [List.append_assoc]
  simp only [committedBytes, List.flatMap_append] at hrest ⊢
  exact (List.prefix_append_right_inj _).mpr hrest

theorem sent_cons (p : Pipeline) (t : Turn) (ts : List Turn) :
    p.sent (t :: ts) = committedBytes (p.advance t).answer.1 ++ (p.advance t).state.sent ts := by
  simp only [sent, written, after, committedBytes, List.flatMap_append, List.append_assoc]

theorem sent_begins (before after : List Turn) : ∀ p : Pipeline,
    p.sent before <+: p.sent (before ++ after) := by
  induction before with
  | nil =>
    induction after with
    | nil =>
      intro p
      exact List.prefix_refl _
    | cons t ts ih =>
      intro p
      have hstep := p.advance_sends t
      have hrest := ih (p.advance t).state
      rw [List.nil_append, sent_cons]
      apply hstep.trans
      rw [committedBytes, List.flatMap_append]
      exact (List.prefix_append_right_inj _).mpr hrest
  | cons t ts ih =>
    intro p
    rw [List.cons_append, sent_cons, sent_cons]
    exact (List.prefix_append_right_inj _).mpr (ih (p.advance t).state)

/-- A decoder that has ended reports nothing more. -/
theorem told_ended (ts : List Turn) : ∀ {p : Pipeline}, p.station.decoder = none →
    p.told ts = [] := by
  induction ts with
  | nil =>
    intro p _
    rfl
  | cons t ts ih =>
    intro p h
    have hturn : (p.turn t).answer.2 = [] ∧ (p.turn t).state.station.decoder = none := by
      cases t with
      | writer r => exact ⟨rfl, h⟩
      | poll =>
        rw [turn_ended (t := .poll) h nofun]
        exact ⟨rfl, h⟩
      | read =>
        rw [turn_ended (t := .read) h nofun]
        exact ⟨rfl, h⟩
    have hrest : (p.advance t).state.told ts = [] := ih hturn.2
    show (p.turn t).answer.2 ++ (p.advance t).state.told ts = []
    rw [hturn.1, hrest]
    rfl

/-- **In every run the decoder follows the writer.** -/
theorem Follows.run (ts : List Turn) : ∀ {p : Pipeline} {sent got : List UInt8}
    {told : List Report}, Follows s sent got told p → p.Sealed ts →
      ∃ took, Follows s (sent ++ committedBytes (p.written ts)) (got ++ took) (told ++ p.told ts)
        (p.after ts) := by
  induction ts with
  | nil =>
    intro p sent got told h _
    refine ⟨[], ?_⟩
    show Follows s (sent ++ []) (got ++ []) (told ++ []) p
    rw [List.append_nil, List.append_nil, List.append_nil]
    exact h
  | cons t ts ih =>
    intro p sent got told h hsealed
    obtain ⟨took, hstep⟩ := h.advance hsealed.1
    obtain ⟨took', hrun⟩ := ih hstep hsealed.2
    refine ⟨took ++ took', ?_⟩
    rw [List.append_assoc, List.append_assoc, List.append_assoc, committedBytes, committedBytes,
      ← List.flatMap_append] at hrun
    exact hrun

/-! ### Whole streams -/

section Fresh

/-- A pipeline in which nothing has been sent yet. -/
abbrev Fresh (p : Pipeline) : Prop := Follows p.station [] [] [] p

variable {ts : List Turn} (hfresh : p.Fresh) (hsealed : p.Sealed ts)

include hfresh hsealed

theorem run_heeded : (p.after ts).station.SameDesk (p.station.heed (p.told ts)) := by
  obtain ⟨got, hfollows⟩ := hfresh.run ts hsealed
  exact hfollows.desk

/-- After the close the next poll ends the decoder. -/
theorem run_ends (hclosed : (p.after ts).station.channel.writerClosed = true) :
    (p.after ts).station.poll.answer.1 = .ended ∧
      (p.after (ts ++ [.poll])).station.decoder = none := by
  obtain ⟨got, hfollows⟩ := hfresh.run ts hsealed
  obtain ⟨hanswer, hended⟩ := Station.poll_closed hfollows.ready hfollows.stream.2.1 hclosed
  refine ⟨hanswer, ?_⟩
  rw [after_append]
  exact hended

/-- When the decoder has ended it has reported what the parser makes of the bytes that were sent, and
    if the writer is still open, of every stream that they begin. -/
theorem run_reports (hended : (p.after ts).station.decoder = none)
    (hshort : (p.sent ts).length < UInt64.size) :
    p.told ts = p.station.future (p.sent ts) ∧
      ((p.after ts).station.channel.writerClosed = false →
        ∀ stream, p.sent ts <+: stream → p.told ts = p.station.future stream) := by
  obtain ⟨got, hfollows⟩ := hfresh.run ts hsealed
  have hsent : p.sent ts = [] ++ committedBytes (p.written ts)
      ++ committedBytes (p.after ts).writer.underWay := by
    rw [sent, committedBytes, List.flatMap_append]
    rfl
  rw [hsent] at hshort ⊢
  obtain ⟨hall, hopen⟩ := hfollows.whole hended hshort
  refine ⟨hall.symm, ?_⟩
  rintro hflag stream ⟨rest, rfl⟩
  exact (hopen hflag rest).symm

end Fresh

/-- If the decoder has ended before the writer was closed, what else was to be sent makes no
    difference to the run. -/
theorem run_ended_early {first later : List Turn} (hfresh : p.Fresh)
    (hsealed : p.Sealed (first ++ later)) (hended : (p.after first).station.decoder = none)
    (hopen : (p.after first).station.channel.writerClosed = false)
    (hshort : (p.sent (first ++ later)).length < UInt64.size) {stream : List UInt8}
    (hstream : p.sent first <+: stream) :
    p.told (first ++ later) = p.station.future stream := by
  have hshort' := Nat.lt_of_le_of_lt (sent_begins first later p).length_le hshort
  have hbefore := ((sealed_append first later p).mp hsealed).1
  rw [told_append, told_ended later hended, List.append_nil]
  exact (run_reports hfresh hbefore hended hshort').2 hopen stream hstream

theorem new_fresh {capacity : Nat} (hpos : 0 < capacity) (hword : capacity < UInt64.size)
    (observer : Observer) (polled : Bool) (replies : Replies) {bodies : Pool Buffer}
    (hbodies : Plentiful bodies) (pending : List (UInt32 × Completer)) :
    (new capacity observer polled replies bodies pending).Fresh := by
  constructor
  · constructor
    · exact hbodies
    · rintro d ⟨⟩
      exact Nat.zero_lt_succ 3
  · cases polled with
    | false => exact Ring.Session.new_remembers hpos hword observer false
    | true => exact Ring.Session.new_remembers hpos hword observer true
  · intro hclosed
    cases hclosed
  · exact Station.SameDesk.refl _
  · left
    intro rest
    rfl

end Pipeline

end Conduit.Frame

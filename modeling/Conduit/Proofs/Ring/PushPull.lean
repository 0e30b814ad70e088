/-
  Conduit/Proofs/Ring/PushPull.lean
  =================================
  **What a call gets done before it waits.**

  `push` is one attempt to commit the rest of a buffer, and `pull` one attempt to take bytes
  out.  The loops of the calls do no more than that: however many left-over releases make
  them look again, and in however many pieces the bytes go, the other end sees of a
  blocking write, of a polled one and of one that goes on the channel after one `push`,
  and of every read the channel after one `pull`.

  A second `push` right after the first does nothing, since it finds the reader gone, no
  bytes left, or no room.  That is the invariant of the loops: what is still to be pushed
  from where they stand is what was to be pushed from their start.
-/
import Conduit.Proofs.Ring.Closing
import Conduit.Proofs.Ring.Views

namespace Conduit.Ring

open Signal (Slim WaitKey)

variable {reader writer : Occupant}

namespace Channel

variable {c : Channel}

/-- A write that has nothing to commit or no room does nothing. -/
theorem tryWrite_idle (h : c.store.Sized) {src : List UInt8} (hnone : src = [] ∨ c.store.Full) :
    c.tryWrite src = .pure 0 c := by
  have hn : (c.store.tryWrite src).1 = 0 := by
    rw [(h.tryWrite src).1]
    rcases hnone with rfl | hfull
    · exact Nat.zero_min _
    · rw [Store.Full] at hfull
      omega
  rw [tryWrite]
  split
  · rfl
  · rename_i n store hne hcommit
    rw [hcommit] at hn
    exact absurd hn hne

/-- A write goes the same way when nobody looks at the writer's signal. -/
theorem tryWrite_forReader (c : Channel) (src : List UInt8) :
    c.forReader.tryWrite src = (c.tryWrite src).lift forReader := by
  simp only [tryWrite, forReader]
  split
  · rfl
  · rfl

theorem tryRead_forWriter (c : Channel) (limit : Nat) :
    c.forWriter.tryRead limit = (c.tryRead limit).lift forWriter := by
  simp only [tryRead, forWriter]
  split
  · rfl
  · rfl

theorem tryRead_none {limit : Nat} (h : (c.tryRead limit).answer = []) :
    (c.tryRead limit).state = c := by
  revert h
  rw [tryRead]
  split
  · intro _
    rfl
  · rename_i bytes store hne _
    intro h
    exact absurd h hne

end Channel

open Channel (forReader forWriter Guarded)

/-! ### Pushing -/

/-- Commits what fits of the bytes that are left, unless nobody is there to read them. -/
def push (data : List UInt8) (s : Committing) : Committing :=
  if s.1.readerClosed then s
  else ((s.1.tryWrite (data.drop s.2)).state, s.2 + (s.1.tryWrite (data.drop s.2)).answer)

section Push

variable {data : List UInt8} {s : Committing}

theorem push_closed (h : s.1.readerClosed = true) : push data s = s := by
  rw [push, if_pos h]

theorem push_idle (h : s.1.store.Sized) (hnone : data.length ≤ s.2 ∨ s.1.store.Full) :
    push data s = s := by
  rw [push]
  split
  · rfl
  · rw [Channel.tryWrite_idle h (hnone.imp_left List.drop_eq_nil_of_le)]
    rfl

/-- After a push there is nobody to read, nothing left, or no room. -/
theorem push_rests (data : List UInt8) (h : s.1.store.Sized) :
    (push data s).1.store.Sized ∧
      ((push data s).1.readerClosed = true ∨ data.length ≤ (push data s).2 ∨
        (push data s).1.store.Full) := by
  rw [push]
  by_cases hclosed : s.1.readerClosed
  · rw [if_pos hclosed]
    exact ⟨h, Or.inl hclosed⟩
  · rw [if_neg hclosed]
    obtain ⟨hn, hsized, hsize, hlen⟩ := h.tryWrite (data.drop s.2)
    have hfits := h.fits
    rw [List.length_drop] at hn
    simp only [Channel.tryWrite_answer, Channel.tryWrite_store]
    refine ⟨hsized, Or.inr ?_⟩
    by_cases hroom : data.length - s.2 ≤ s.1.store.storage.size - s.1.store.len.toNat
    · left
      omega
    · right
      rw [Store.Full]
      omega

theorem push_twice (data : List UInt8) (h : s.1.store.Sized) :
    push data (push data s) = push data s := by
  obtain ⟨hsized, hclosed | hnone⟩ := push_rests data h
  · exact push_closed hclosed
  · exact push_idle hsized hnone

/-- A push goes the same way when nobody looks at the writer's signal. -/
theorem push_seen (data : List UInt8) (s : Committing) :
    beside forReader (push data s) = push data (beside forReader s) := by
  by_cases hclosed : s.1.readerClosed
  · rw [push_closed hclosed, push_closed (s := beside forReader s) hclosed]
  · have hpush : push data (beside forReader s)
        = ((s.1.forReader.tryWrite (data.drop s.2)).state,
          s.2 + (s.1.forReader.tryWrite (data.drop s.2)).answer) := if_neg hclosed
    rw [push, if_neg hclosed, hpush, Channel.tryWrite_forReader]
    rfl

theorem push_writerClosed (data : List UInt8) (s : Committing) :
    (push data s).1.writerClosed = s.1.writerClosed := by
  rw [push]
  split
  · rfl
  · exact s.1.tryWrite_writerClosed (data.drop s.2)

theorem push_readerClosed (data : List UInt8) (s : Committing) :
    (push data s).1.readerClosed = s.1.readerClosed := by
  rw [push]
  split
  · rfl
  · exact s.1.tryWrite_readerClosed (data.drop s.2)

/-- A push commits no more bytes than there are. -/
theorem push_le (data : List UInt8) {s : Committing} (h : s.2 ≤ data.length) :
    (push data s).2 ≤ data.length := by
  rw [push]
  split
  · exact h
  · have hle := s.1.tryWrite_le (data.drop s.2)
    rw [List.length_drop] at hle
    show s.2 + (s.1.tryWrite (data.drop s.2)).answer ≤ data.length
    omega

/-- The rest of a buffer is pushed as the buffer from there on is. -/
theorem push_drop (data : List UInt8) (c : Channel) (k i : Nat) :
    push data (c, k + i)
      = ((push (data.drop k) (c, i)).1, k + (push (data.drop k) (c, i)).2) := by
  simp only [push, List.drop_drop]
  split
  · rfl
  · rw [Nat.add_assoc]

/-- A push that committed something found the reader there. -/
theorem push_open {data : List UInt8} {s t : Committing} (h : t = push data s) (hmore : s.2 < t.2) :
    t.1.readerClosed = false := by
  rw [h] at hmore ⊢
  rw [push_readerClosed]
  by_contra hgone
  rw [push_closed (Bool.not_eq_false _ ▸ hgone)] at hmore
  omega

end Push

/-! ### Blocking writes -/

/-- What a blocking write tells when it returns or sleeps: how far it came, and why it stopped. -/
def Blocking.Tells (mode : WriteMode) (data : List UInt8) (s : Committing) :
    Blocking (Except RingClosed Nat) → Prop
  | .returned (.ok n) => n = s.2 ∧ mode.isOver s.2 data.length = true
  | .returned (.error e) =>
    e = ⟨mode.reported s.2⟩ ∧ mode.isOver s.2 data.length = false ∧ s.1.readerClosed = true
  | .asleep => mode.isOver s.2 data.length = false

/-- A loop on its way to what the other end will see.  A write in one go has either not committed
    anything yet or is there. -/
structure Underway (mode : WriteMode) (data : List UInt8) (goal s : Committing) : Prop where
  rest : push data (beside forReader s) = goal
  once : mode = .once → s.2 = 0 ∨ beside forReader s = goal

theorem Underway.over {mode : WriteMode} {data : List UInt8} {goal s : Committing}
    (h : Underway mode data goal s) (hsized : s.1.store.Sized)
    (hover : mode.isOver s.2 data.length = true) : beside forReader s = goal := by
  have hall (hle : data.length ≤ s.2) : beside forReader s = goal := by
    rw [← h.rest, push_idle (s := beside forReader s) hsized (Or.inl hle)]
  simp only [WriteMode.isOver, Bool.or_eq_true, Bool.and_eq_true, beq_iff_eq,
    decide_eq_true_eq] at hover
  rcases hover with hle | ⟨hmode, hpos⟩
  · exact hall hle
  · rcases h.once hmode with hzero | hgoal
    · omega
    · exact hgoal

theorem blockingWritePass_pushes {mode : WriteMode} {data : List UInt8} {goal s : Committing}
    (h : Guarded .nobody reader s.1) (hway : Underway mode data goal s) :
    (blockingWritePass mode data s).Leads (Underway mode data goal)
      fun r t => beside forReader t = goal ∧ r.Tells mode data t := by
  have hpush := push_seen data s
  rw [hway.rest] at hpush
  rw [blockingWritePass]
  by_cases hover : mode.isOver s.2 data.length
  · rw [if_pos hover]
    exact .of_some rfl ⟨hway.over h.sized hover, rfl, hover⟩
  · rw [if_neg hover]
    have hleft : mode.isOver s.2 data.length = false := Bool.eq_false_iff.mpr hover
    by_cases hclosed : s.1.readerClosed
    · rw [if_pos hclosed]
      rw [push_closed hclosed] at hpush
      exact .of_some rfl ⟨hpush, rfl, hleft, hclosed⟩
    · rw [if_neg hclosed]
      rw [push, if_neg hclosed] at hpush
      apply Outcome.Leads.after
      by_cases hpos : 0 < (s.1.tryWrite (data.drop s.2)).answer
      · rw [if_pos hpos]
        refine .of_none rfl ⟨?_, fun _ => Or.inr hpush⟩
        show push data (beside forReader (_, _)) = goal
        rw [hpush, ← hway.rest, push_twice data (s := beside forReader s) h.sized]
      · have hnone : (s.1.tryWrite (data.drop s.2)).answer = 0 := by omega
        have hsame := ((h.tryWrite (data.drop s.2)).2 hnone).1
        rw [hsame, hnone] at hpush
        rw [if_neg hpos, hsame]
        -- the signal of the writer is all that changes, and the reader does not see it
        by_cases hreleased : (s.1.spaceReady.block (threadOf .writer)).answer
        · exact .of_none (if_pos hreleased) ⟨hway.rest, hway.once⟩
        · exact .of_some (if_neg hreleased) ⟨hpush, hleft⟩

/-- **A blocking write does one push**, and tells how far it came. -/
theorem blockingWrite_pushes (mode : WriteMode) (data : List UInt8) {s : Committing}
    (h : Guarded .nobody reader s.1) (hfirst : mode = .once → s.2 = 0) :
    beside forReader (blockingWrite mode data s).state = push data (beside forReader s) ∧
      (blockingWrite mode data s).answer.Tells mode data (blockingWrite mode data s).state := by
  obtain ⟨r, hr, hends⟩ := Outcome.loop_answers
    (I := fun s' : Committing => Guarded .nobody reader s'.1 ∧
      Underway mode data (push data (beside forReader s)) s')
    (Q := fun (r : Blocking (Except RingClosed Nat)) s' =>
      beside forReader s' = push data (beside forReader s) ∧ r.Tells mode data s')
    (m := fun s => data.length - s.2 + s.1.spaceReady.pendingReleases)
    (fun s' r hs hr => (blockingWritePass_pushes hs.1 hs.2).answers hr)
    (fun s' hs hr => by
      obtain ⟨hkept, _, hless⟩ := blockingWritePass_guarded mode data hs.1
      rw [hr] at hkept
      exact ⟨⟨hkept, (blockingWritePass_pushes hs.1 hs.2).goes_on hr⟩, hless hr⟩)
    (data.length - s.2 + s.1.spaceReady.pendingReleases + 1) s
    ⟨h, rfl, fun hmode => Or.inl (hfirst hmode)⟩ (Nat.lt_succ_self _)
  rw [blockingWrite, Outcome.map_answer, Outcome.map_state, hr]
  exact hends

theorem resumeWrite_pushes (mode : WriteMode) (data : List UInt8) {s : Committing}
    (h : Guarded (.thread (threadOf .writer)) reader s.1) (hroused : s.1.spaceReady.roused ≠ [])
    (hfirst : mode = .once → s.2 = 0) :
    beside forReader (resumeWrite mode data s).state = push data (beside forReader s) ∧
      (resumeWrite mode data s).answer.Tells mode data (resumeWrite mode data s).state := by
  obtain ⟨hanswer, hspace⟩ := h.space.resume hroused
  have hfree := h.onSpace hspace fun hsleeps => absurd hsleeps hspace.not_sleeps_nobody
  simp only [resumeWrite, Outcome.andThen_answer, Outcome.andThen_state, Channel.onSpace_answer,
    hanswer, Option.isSome_some, if_true]
  exact blockingWrite_pushes mode data hfree hfirst

/-! ### Polled writes -/

/-- How many bytes a polled partial write reports. -/
def Poll.count : Poll (Except RingClosed Nat) → Nat
  | .ready (.ok n) => n
  | _ => 0

/-- What a polled partial write of the rest of a buffer leaves to be seen: one push, and no
    complaint unless the reader is gone. -/
def PartPushes (data : List UInt8) (i : Nat) (before after : Channel)
    (r : Poll (Except RingClosed Nat)) : Prop :=
  (after, i + r.count) = push data (before, i) ∧
    ∀ e, r = .ready (.error e) → e = ⟨0⟩ ∧ before.readerClosed = true

theorem writePass_pushes (w : Waker) (data : List UInt8) (i : Nat) {s : Keyed}
    (h : Guarded (occupant s.2) reader s.1) :
    (writePass w (data.drop i) s).Leads (fun t => t.1.forReader = s.1.forReader)
      fun r t => PartPushes data i s.1.forReader t.1.forReader r := by
  have hpush := push_seen data (s.1, i)
  rw [writePass]
  by_cases hclosed : s.1.readerClosed
  · rw [if_pos hclosed]
    rw [push_closed (s := (s.1, i)) hclosed] at hpush
    refine .of_some rfl ⟨hpush, ?_⟩
    rintro e ⟨⟩
    exact ⟨rfl, hclosed⟩
  · rw [if_neg hclosed]
    rw [push, if_neg hclosed] at hpush
    apply Outcome.Leads.after
    by_cases hpos : 0 < (s.1.tryWrite (data.drop i)).answer
    · rw [if_pos hpos]
      refine .of_some rfl ⟨hpush, ?_⟩
      rintro e ⟨⟩
    · have hnone : (s.1.tryWrite (data.drop i)).answer = 0 := by omega
      have hsame := ((h.tryWrite (data.drop i)).2 hnone).1
      rw [hsame, hnone] at hpush
      rw [if_neg hpos, hsame]
      apply Outcome.Leads.after
      by_cases hreleased : (s.1.spaceReady.pollWait w s.2).answer.1
      · rw [Channel.onSpace_answer, if_pos hreleased]
        exact .of_none rfl rfl
      · rw [Channel.onSpace_answer, if_neg hreleased]
        refine .of_some rfl ⟨hpush, ?_⟩
        rintro e ⟨⟩

theorem pollWrite_pushes (w : Waker) {data : List UInt8} {i : Nat} (hleft : i < data.length)
    {s : Keyed} (h : Guarded (occupant s.2) reader s.1) (hopen : s.1.writerClosed = false) :
    PartPushes data i s.1.forReader (pollWrite w (data.drop i) s).state.1.forReader
      (pollWrite w (data.drop i) s).answer := by
  have hsome : data.drop i ≠ [] := by
    rw [Ne, List.drop_eq_nil_iff]
    omega
  obtain ⟨r, hr, hends⟩ := Outcome.loop_answers
    (I := fun s' : Keyed => Guarded (occupant s'.2) reader s'.1 ∧ s'.1.forReader = s.1.forReader)
    (Q := fun r s' => PartPushes data i s.1.forReader s'.1.forReader r)
    (m := fun s => s.1.spaceReady.pendingReleases)
    (fun s' r hs hr => by
      have hpart := (writePass_pushes w data i hs.1).answers hr
      rwa [hs.2] at hpart)
    (fun s' hs hr => by
      obtain ⟨hkept, hless⟩ := writePass_guarded w hsome hs.1
      have hseen := (writePass_pushes w data i hs.1).goes_on hr
      rw [hr] at hless
      exact ⟨⟨hkept, hseen.trans hs.2⟩, hless⟩)
    (s.1.spaceReady.pendingReleases + 1) s ⟨h, rfl⟩ (Nat.lt_succ_self _)
  rw [pollWrite, if_neg (Bool.eq_false_iff.mp hopen), if_neg (mt List.isEmpty_iff.mp hsome),
    Outcome.map_answer, Outcome.map_state, hr]
  exact hends

/-- What a poll of a whole buffer tells: how far the write came, and why it stopped. -/
def Poll.Tells (data : List UInt8) (s : Writing) : Poll (Except RingClosed Unit) → Prop
  | .ready (.ok ()) => data.length ≤ s.2
  | .ready (.error e) => e = ⟨s.2⟩ ∧ s.2 < data.length ∧ s.1.1.readerClosed = true
  | .pending => s.2 < data.length

/-- What the reader's end sees of a polled write under way. -/
def Writing.seen (s : Writing) : Committing := (s.1.1.forReader, s.2)

theorem writeAllPass_pushes (w : Waker) {data : List UInt8} {goal : Committing} {s : Writing}
    (h : Guarded (occupant s.1.2) reader s.1.1) (hopen : s.1.1.writerClosed = false)
    (hway : push data (Writing.seen s) = goal) :
    (writeAllPass w data s).Leads (fun t => push data (Writing.seen t) = goal)
      fun r t => Writing.seen t = goal ∧ r.Tells data t := by
  have htwice := push_twice data (s := Writing.seen s) h.sized
  rw [hway] at htwice
  rw [writeAllPass]
  by_cases hall : data.length ≤ s.2
  · rw [if_pos hall]
    rw [push_idle (s := Writing.seen s) h.sized (Or.inl hall)] at hway
    exact .of_some rfl ⟨hway, hall⟩
  · rw [if_neg hall]
    have hleft : s.2 < data.length := Nat.lt_of_not_le hall
    obtain ⟨hpush, hclosed⟩ := pollWrite_pushes w hleft h hopen
    rw [show push data (s.1.1.forReader, s.2) = goal from hway] at hpush
    apply Outcome.Leads.after
    revert hpush hclosed
    generalize pollWrite w (data.drop s.2) s.1 = o
    obtain ⟨(e | n) | _, keyed, effects⟩ := o
    · intro hpush hclosed
      have hgone := push_readerClosed data (Writing.seen s)
      rw [hway, ← hpush] at hgone
      exact .of_some rfl ⟨hpush, rfl, hleft, hgone.trans (hclosed e rfl).2⟩
    · intro hpush _
      apply Outcome.Leads.of_none rfl
      show push data (keyed.1.forReader, s.2 + n) = goal
      rw [show (keyed.1.forReader, s.2 + n) = goal from hpush]
      exact htwice
    · intro hpush _
      exact .of_some rfl ⟨hpush, hleft⟩

/-- **A polled write of a whole buffer does one push**, and tells how far it came. -/
theorem pollWriteAll_pushes (w : Waker) (data : List UInt8) {s : Writing}
    (h : Guarded (occupant s.1.2) reader s.1.1) (hopen : s.1.1.writerClosed = false) :
    Writing.seen (pollWriteAll w data s).state = push data (Writing.seen s) ∧
      (pollWriteAll w data s).answer.Tells data (pollWriteAll w data s).state := by
  obtain ⟨r, hr, hends⟩ := Outcome.loop_answers
    (I := fun s' : Writing => Guarded (occupant s'.1.2) reader s'.1.1 ∧
      s'.1.1.writerClosed = false ∧ push data (Writing.seen s') = push data (Writing.seen s))
    (Q := fun (r : Poll (Except RingClosed Unit)) s' =>
      Writing.seen s' = push data (Writing.seen s) ∧ r.Tells data s')
    (m := fun s => data.length - s.2)
    (fun s' r hs hr => (writeAllPass_pushes w hs.1 hs.2.1 hs.2.2).answers hr)
    (fun s' hs hr => by
      obtain ⟨hkept, _, hless⟩ := writeAllPass_guarded w data hs.1
      exact ⟨⟨hkept, (writeAllPass_writerClosed w data s').trans hs.2.1,
        (writeAllPass_pushes w hs.1 hs.2.1 hs.2.2).goes_on hr⟩, hless hr⟩)
    (data.length - s.2 + 1) s ⟨h, hopen, rfl⟩ (Nat.lt_succ_self _)
  rw [pollWriteAll, Outcome.map_answer, Outcome.map_state, hr]
  exact hends

/-! ### Pulling -/

/-- Takes out what is there.  No answer means that the reader has to wait for it. -/
def pull (limit : Nat) (c : Channel) : Option (List UInt8) × Channel :=
  if limit = 0 then (some [], c)
  else if (c.tryRead limit).answer = [] ∧ c.writerClosed = false then (none, c)
  else (some (c.tryRead limit).answer, (c.tryRead limit).state)

section Pull

variable {limit : Nat} {c : Channel}

/-- A reader that has to wait gets nothing. -/
theorem pull_waits (h : c.store.Sized) (hsome : limit ≠ 0) (hempty : c.store.Empty)
    (hopen : c.writerClosed = false) : pull limit c = (none, c) := by
  have hnone : (c.tryRead limit).answer = [] := by
    rw [Channel.tryRead_answer, ← List.length_eq_zero_iff, (h.tryRead limit).1, hempty,
      Nat.min_zero]
  rw [pull, if_neg hsome, if_pos ⟨hnone, hopen⟩]

theorem pull_none (h : (pull limit c).1 = none) : (pull limit c).2 = c := by
  revert h
  rw [pull]
  split
  · intro h
    cases h
  · split
    · intro _
      rfl
    · intro h
      cases h

/-- What a read leaves to be seen by the writer's end is one pull. -/
theorem pull_seen (hsome : limit ≠ 0) (c : Channel) :
    pull limit c.forWriter =
      if (c.tryRead limit).answer = [] ∧ c.writerClosed = false then (none, c.forWriter)
      else (some (c.tryRead limit).answer, (c.tryRead limit).state.forWriter) := by
  rw [pull, if_neg hsome, Channel.tryRead_forWriter]
  rfl

end Pull

/-- The bytes that a blocking read returns. -/
def Blocking.bytes? : Blocking (List UInt8) → Option (List UInt8)
  | .returned bytes => some bytes
  | .asleep => none

/-- The bytes that a poll is ready with. -/
def Poll.bytes? : Poll (List UInt8) → Option (List UInt8)
  | .ready bytes => some bytes
  | .pending => none

/-- Whether a read is over is whether a pull gets something. -/
theorem pull_over {limit : Nat} (hsome : limit ≠ 0) {c : Channel}
    (hover : ¬ (c.tryRead limit).answer.isEmpty ∨ (c.tryRead limit).state.writerClosed) :
    pull limit c.forWriter
      = (some (c.tryRead limit).answer, (c.tryRead limit).state.forWriter) := by
  rw [Channel.tryRead_writerClosed, List.isEmpty_iff] at hover
  rw [pull_seen hsome, if_neg]
  rintro ⟨hnone, hopen⟩
  rcases hover with hbytes | hclosed
  · exact hbytes hnone
  · rw [hopen] at hclosed
    cases hclosed

theorem pull_not_over {limit : Nat} (hsome : limit ≠ 0) {c : Channel}
    (hover : ¬ (¬ (c.tryRead limit).answer.isEmpty ∨ (c.tryRead limit).state.writerClosed)) :
    (c.tryRead limit).state = c ∧ pull limit c.forWriter = (none, c.forWriter) := by
  rw [Channel.tryRead_writerClosed, not_or, not_not, List.isEmpty_iff, Bool.not_eq_true] at hover
  refine ⟨Channel.tryRead_none hover.1, ?_⟩
  rw [pull_seen hsome, if_pos hover]

theorem blockingReadPass_pulls {limit : Nat} (hsome : limit ≠ 0) (c : Channel) :
    (blockingReadPass limit c).Leads (fun t => t.forWriter = c.forWriter)
      fun r t => (r.bytes?, t.forWriter) = pull limit c.forWriter := by
  rw [blockingReadPass]
  apply Outcome.Leads.after
  by_cases hover : ¬ (c.tryRead limit).answer.isEmpty ∨ (c.tryRead limit).state.writerClosed
  · rw [if_pos hover, pull_over hsome hover]
    exact .of_some rfl rfl
  · obtain ⟨hsame, hpull⟩ := pull_not_over hsome hover
    rw [if_neg hover, hsame, hpull]
    by_cases hreleased : (c.dataReady.block (threadOf .reader)).answer
    · exact .of_none (if_pos hreleased) rfl
    · exact .of_some (if_neg hreleased) rfl

/-- **A blocking read does one pull.** -/
theorem blockingRead_pulls (limit : Nat) {c : Channel} (h : Guarded writer .nobody c) :
    ((blockingRead limit c).answer.bytes?, (blockingRead limit c).state.forWriter)
      = pull limit c.forWriter := by
  rw [blockingRead]
  split
  · rename_i hzero
    rw [pull, if_pos hzero]
    rfl
  · rename_i hsome
    obtain ⟨r, hr, hends⟩ := Outcome.loop_answers
      (I := fun c' => Guarded writer .nobody c' ∧ c'.forWriter = c.forWriter)
      (Q := fun (r : Blocking (List UInt8)) c' =>
        (r.bytes?, c'.forWriter) = pull limit c.forWriter)
      (m := fun c' => c'.dataReady.pendingReleases)
      (fun c' r hc hr => by
        have hpull := (blockingReadPass_pulls hsome c').answers hr
        rwa [hc.2] at hpull)
      (fun c' hc hr => by
        obtain ⟨hkept, _, _, hless⟩ := blockingReadPass_guarded hsome hc.1
        rw [hr] at hkept
        exact ⟨⟨hkept, ((blockingReadPass_pulls hsome c').goes_on hr).trans hc.2⟩, hless hr⟩)
      (c.dataReady.pendingReleases + 1) c ⟨h, rfl⟩ (Nat.lt_succ_self _)
    rw [Outcome.map_answer, Outcome.map_state, hr]
    exact hends

theorem resumeRead_pulls (limit : Nat) {c : Channel}
    (h : Guarded writer (.thread (threadOf .reader)) c) (hroused : c.dataReady.roused ≠ []) :
    ((resumeRead limit c).answer.bytes?, (resumeRead limit c).state.forWriter)
      = pull limit c.forWriter := by
  obtain ⟨hanswer, hdata⟩ := h.data.resume hroused
  have hfree := h.onData hdata fun hsleeps => absurd hsleeps hdata.not_sleeps_nobody
  simp only [resumeRead, Outcome.andThen_answer, Outcome.andThen_state, Channel.onData_answer,
    hanswer, Option.isSome_some, if_true]
  exact blockingRead_pulls limit hfree

theorem readPass_pulls (w : Waker) {limit : Nat} (hsome : limit ≠ 0) (s : Keyed) :
    (readPass w limit s).Leads (fun t => t.1.forWriter = s.1.forWriter)
      fun r t => (r.bytes?, t.1.forWriter) = pull limit s.1.forWriter := by
  rw [readPass]
  apply Outcome.Leads.after
  by_cases hover : ¬ (s.1.tryRead limit).answer.isEmpty ∨ (s.1.tryRead limit).state.writerClosed
  · rw [if_pos hover, pull_over hsome hover]
    exact .of_some rfl rfl
  · obtain ⟨hsame, hpull⟩ := pull_not_over hsome hover
    rw [if_neg hover, hsame, hpull]
    apply Outcome.Leads.after
    by_cases hreleased : (s.1.dataReady.pollWait w s.2).answer.1
    · rw [Channel.onData_answer, if_pos hreleased]
      exact .of_none rfl rfl
    · rw [Channel.onData_answer, if_neg hreleased]
      exact .of_some rfl rfl

/-- **A polled read does one pull.** -/
theorem pollRead_pulls (w : Waker) (limit : Nat) {s : Keyed}
    (h : Guarded writer (occupant s.2) s.1) :
    ((pollRead w limit s).answer.bytes?, (pollRead w limit s).state.1.forWriter)
      = pull limit s.1.forWriter := by
  rw [pollRead]
  split
  · rename_i hzero
    rw [pull, if_pos hzero]
    rfl
  · rename_i hsome
    obtain ⟨r, hr, hends⟩ := Outcome.loop_answers
      (I := fun s' : Keyed => Guarded writer (occupant s'.2) s'.1 ∧ s'.1.forWriter = s.1.forWriter)
      (Q := fun (r : Poll (List UInt8)) s' => (r.bytes?, s'.1.forWriter) = pull limit s.1.forWriter)
      (m := fun s => s.1.dataReady.pendingReleases)
      (fun s' r hs hr => by
        have hpull := (readPass_pulls w hsome s').answers hr
        rwa [hs.2] at hpull)
      (fun s' hs hr => by
        obtain ⟨hkept, hless⟩ := readPass_guarded w hsome hs.1
        rw [hr] at hless
        exact ⟨⟨hkept, ((readPass_pulls w hsome s').goes_on hr).trans hs.2⟩, hless⟩)
      (s.1.dataReady.pendingReleases + 1) s ⟨h, rfl⟩ (Nat.lt_succ_self _)
    rw [Outcome.map_answer, Outcome.map_state, hr]
    exact hends

end Conduit.Ring

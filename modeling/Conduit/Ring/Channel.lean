/-
  Conduit/Ring/Channel.lean
  =========================
  **A byte store between one writer and one reader.**

  A channel adds to a store what makes its ends wait for each other: a signal that
  there are bytes to read, a signal that there is room to write, and a flag for each
  end that is closed.  Moving bytes or closing an end sets the other end's signal.

  A task that cannot go on polls the signal under its end's key and returns; a thread
  sleeps in it.  Both look again whenever the signal lets them through, since it may be
  left over from an earlier transfer, and both report a stall each time they suspend.
-/
import Conduit.Fault
import Conduit.Ring.Store
import Conduit.Signal.Slim

namespace Conduit.Ring

open Signal (Slim WaitKey)

/-- A store, the signals and the closed flags of its two ends, and who is told of stalls. -/
structure Channel where
  store : Store
  dataReady : Slim
  spaceReady : Slim
  writerClosed : Bool
  readerClosed : Bool
  observer : Observer
deriving DecidableEq, Repr

/-- What a poll leads to: an answer, or the task waits. -/
inductive Poll (α : Type)
  | ready (a : α)
  | pending
deriving DecidableEq, Repr

/-- What a blocking call leads to: it returns, or its thread sleeps. -/
inductive Blocking (α : Type)
  | returned (a : α)
  | asleep
deriving DecidableEq, Repr

namespace Channel

/-- An empty channel.  The signals tell nobody of waits that are withdrawn. -/
def new (capacity : Nat) (observer : Observer) : Channel :=
  ⟨Store.new capacity, Slim.new .quiet, Slim.new .quiet, false, false, observer⟩

variable (c : Channel)

def onData {α : Type} (o : Outcome α Slim) : Outcome α Channel :=
  o.lift fun s => { c with dataReady := s }

def onSpace {α : Type} (o : Outcome α Slim) : Outcome α Channel :=
  o.lift fun s => { c with spaceReady := s }

/-- Reports that a side suspends. -/
def stall (side : Side) : Outcome Unit Channel := ⟨(), c, [.reported c.observer (.stalled side)]⟩

/-- Commits as many bytes as fit and lets the reader know. -/
def tryWrite (src : List UInt8) : Outcome Nat Channel :=
  match c.store.tryWrite src with
  | (0, _) => .pure 0 c
  | (n, store) => (onData { c with store := store } c.dataReady.set).map fun _ => n

/-- Commits as many bytes as fit, unless nobody is left to read them. -/
def offer (src : List UInt8) : Outcome (Except RingClosed Nat) Channel :=
  if c.readerClosed then .pure (.error ⟨0⟩) c else (c.tryWrite src).map .ok

/-- Takes out up to `limit` bytes and lets the writer know. -/
def tryRead (limit : Nat) : Outcome (List UInt8) Channel :=
  match c.store.tryRead limit with
  | ([], _) => .pure [] c
  | (bytes, store) => (onSpace { c with store := store } c.spaceReady.set).map fun _ => bytes

/-- Closes the writer's end, once. -/
def closeWriter : Outcome Unit Channel :=
  if c.writerClosed then .pure () c
  else onData { c with writerClosed := true } c.dataReady.set

/-- Closes the reader's end, once. -/
def closeReader : Outcome Unit Channel :=
  if c.readerClosed then .pure () c
  else onSpace { c with readerClosed := true } c.spaceReady.set

def withdrawReader (key : WaitKey) : Outcome Unit Channel :=
  (c.onData (c.dataReady.withdraw key)).map fun _ => ()

def withdrawWriter (key : WaitKey) : Outcome Unit Channel :=
  (c.onSpace (c.spaceReady.withdraw key)).map fun _ => ()

end Channel

/-! ### Polling -/

/-- A channel and the key of the end that polls it. -/
abbrev Keyed := Channel × WaitKey

/-- One pass of a polled read: bytes or the end of the stream answer it; else it waits for data,
    and looks again if the signal was set. -/
def readPass (w : Waker) (limit : Nat) (s : Keyed) : Outcome (Option (Poll (List UInt8))) Keyed :=
  (s.1.tryRead limit).andThen fun bytes c =>
    if ¬ bytes.isEmpty ∨ c.writerClosed then
      ((c.withdrawReader s.2).lift fun c => (c, .fresh)).map fun _ => some (.ready bytes)
    else
      (c.onData (c.dataReady.pollWait w s.2)).andThen fun r c =>
        if r.1 then .pure none (c, r.2)
        else ((c.stall .reader).lift fun c => (c, r.2)).map fun _ => some .pending

/-- Polls for up to `limit` bytes; no bytes mean the end of the stream, or a limit of zero.  A
    pass that asks for another has consumed a release of the signal. -/
def pollRead (w : Waker) (limit : Nat) (s : Keyed) : Outcome (Poll (List UInt8)) Keyed :=
  if limit = 0 then .pure (.ready []) s
  else
    (Outcome.loop (readPass w limit) (s.1.dataReady.pendingReleases + 1) s).map
      fun r => r.getD .pending

/-- One pass of a polled partial write: a closed reader or committed bytes answer it; else it
    waits for space, and looks again if the signal was set. -/
def writePass (w : Waker) (src : List UInt8) (s : Keyed) :
    Outcome (Option (Poll (Except RingClosed Nat))) Keyed :=
  if s.1.readerClosed then
    ((s.1.withdrawWriter s.2).lift fun c => (c, .fresh)).map
      fun _ => some (.ready (.error ⟨0⟩))
  else
    (s.1.tryWrite src).andThen fun n c =>
      if 0 < n then
        ((c.withdrawWriter s.2).lift fun c => (c, .fresh)).map fun _ => some (.ready (.ok n))
      else
        (c.onSpace (c.spaceReady.pollWait w s.2)).andThen fun r c =>
          if r.1 then .pure none (c, r.2)
          else ((c.stall .writer).lift fun c => (c, r.2)).map fun _ => some .pending

/-- Polls to commit some of the bytes.  A writer that is closed itself commits nothing. -/
def pollWrite (w : Waker) (src : List UInt8) (s : Keyed) :
    Outcome (Poll (Except RingClosed Nat)) Keyed :=
  if s.1.writerClosed then .pure (.ready (.error ⟨0⟩)) s
  else if src.isEmpty then .pure (.ready (.ok 0)) s
  else
    (Outcome.loop (writePass w src) (s.1.spaceReady.pendingReleases + 1) s).map
      fun r => r.getD .pending

/-- A polled write of a whole buffer under way: the channel with the writer's key, and how many
    bytes are committed. -/
abbrev Writing := Keyed × Nat

/-- One pass of a polled write of a whole buffer: one partial write of the bytes that are left. -/
def writeAllPass (w : Waker) (data : List UInt8) (s : Writing) :
    Outcome (Option (Poll (Except RingClosed Unit))) Writing :=
  if data.length ≤ s.2 then .pure (some (.ready (.ok ()))) s
  else
    (pollWrite w (data.drop s.2) s.1).andThen fun r keyed =>
      match r with
      | .ready (.ok n) => .pure none (keyed, s.2 + n)
      | .ready (.error _) => .pure (some (.ready (.error ⟨s.2⟩))) (keyed, s.2)
      | .pending => .pure (some .pending) (keyed, s.2)

/-- Polls to commit a whole buffer.  Each pass that asks for another has committed a byte. -/
def pollWriteAll (w : Waker) (data : List UInt8) (s : Writing) :
    Outcome (Poll (Except RingClosed Unit)) Writing :=
  (Outcome.loop (writeAllPass w data) (data.length - s.2 + 1) s).map fun r => r.getD .pending

/-! ### Blocking -/

/-- The names that the threads of the two ends go by. -/
def threadOf (side : Side) : Thread := side.name

/-- What a blocking write is after: the whole buffer, what one go can commit, or the whole buffer
    in several goes, each of which stands for itself when the ring closes. -/
inductive WriteMode
  | whole
  | once
  | pieces
deriving DecidableEq, Repr

/-- How many bytes a write reports as committed when it meets a closed ring. -/
def WriteMode.reported (mode : WriteMode) (written : Nat) : Nat :=
  match mode with
  | .whole => written
  | .once | .pieces => 0

/-- Whether a write is over once `written` of `total` bytes are committed. -/
def WriteMode.isOver (mode : WriteMode) (written total : Nat) : Bool :=
  total ≤ written || mode == .once && 0 < written

/-- A blocking write under way: the channel, and how many bytes are committed. -/
abbrev Committing := Channel × Nat

def blockingWritePass (mode : WriteMode) (data : List UInt8) (s : Committing) :
    Outcome (Option (Blocking (Except RingClosed Nat))) Committing :=
  if mode.isOver s.2 data.length then .pure (some (.returned (.ok s.2))) s
  else if s.1.readerClosed then
    .pure (some (.returned (.error ⟨mode.reported s.2⟩))) s
  else
    (s.1.tryWrite (data.drop s.2)).andThen fun n c =>
      if 0 < n then .pure none (c, s.2 + n)
      else
        (c.stall .writer).andThen fun _ c =>
          ((c.onSpace (c.spaceReady.block (threadOf .writer))).lift fun c => (c, s.2)).map
            fun released => if released then none else some .asleep

/-- Writes until the call returns or has to sleep.  Each pass that asks for another has committed
    a byte or consumed a release of the signal. -/
def blockingWrite (mode : WriteMode) (data : List UInt8) (s : Committing) :
    Outcome (Blocking (Except RingClosed Nat)) Committing :=
  (Outcome.loop (blockingWritePass mode data)
    (data.length - s.2 + s.1.spaceReady.pendingReleases + 1) s).map fun r => r.getD .asleep

def resumeWrite (mode : WriteMode) (data : List UInt8) (s : Committing) :
    Outcome (Blocking (Except RingClosed Nat)) Committing :=
  (s.1.onSpace s.1.spaceReady.resume).andThen fun t c =>
    if t.isSome then blockingWrite mode data (c, s.2) else .pure .asleep (c, s.2)

def blockingReadPass (limit : Nat) (c : Channel) :
    Outcome (Option (Blocking (List UInt8))) Channel :=
  (c.tryRead limit).andThen fun bytes c =>
    if ¬ bytes.isEmpty ∨ c.writerClosed then .pure (some (.returned bytes)) c
    else
      (c.stall .reader).andThen fun _ c =>
        (c.onData (c.dataReady.block (threadOf .reader))).map
          fun released => if released then none else some .asleep

def blockingRead (limit : Nat) (c : Channel) : Outcome (Blocking (List UInt8)) Channel :=
  if limit = 0 then .pure (.returned []) c
  else
    (Outcome.loop (blockingReadPass limit) (c.dataReady.pendingReleases + 1) c).map
      fun r => r.getD .asleep

def resumeRead (limit : Nat) (c : Channel) : Outcome (Blocking (List UInt8)) Channel :=
  (c.onData c.dataReady.resume).andThen fun t c =>
    if t.isSome then blockingRead limit c else .pure .asleep c

/-- One pass of a read whose time is over as soon as it would sleep. -/
def timedReadPass (limit : Nat) (c : Channel) :
    Outcome (Option (Except ReadTimeout (List UInt8))) Channel :=
  (c.tryRead limit).andThen fun bytes c =>
    if ¬ bytes.isEmpty ∨ c.writerClosed then .pure (some (.ok bytes)) c
    else
      (c.stall .reader).andThen fun _ c =>
        (c.onData c.dataReady.expire).map
          fun released => if released then none else some (.error .timeout)

/-- Reads what is there, or gives up when nothing can come in time. -/
def timedRead (limit : Nat) (c : Channel) : Outcome (Except ReadTimeout (List UInt8)) Channel :=
  if limit = 0 then .pure (.ok []) c
  else
    (Outcome.loop (timedReadPass limit) (c.dataReady.pendingReleases + 1) c).map
      fun r => r.getD (.error .timeout)

/-- The time of a sleeping read is over.  If the signal comes at the last moment the read goes on,
    without sleeping again; else it takes what is there. -/
def timeUpRead (limit : Nat) (c : Channel) : Outcome (Except ReadTimeout (List UInt8)) Channel :=
  (c.onData (c.dataReady.timeUp (threadOf .reader))).andThen fun released c =>
    if released then timedRead limit c
    else
      (c.tryRead limit).andThen fun bytes c =>
        if ¬ bytes.isEmpty ∨ c.writerClosed then .pure (.ok bytes) c
        else .pure (.error .timeout) c

end Conduit.Ring

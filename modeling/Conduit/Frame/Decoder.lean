/-
  Conduit/Frame/Decoder.lean
  ==========================
  **A task that reads frames from a ring and answers requests with them.**

  The decoder reads a header, borrows a buffer for the bytes that the header announces,
  reads these into it, and then completes the reply of the request that they answer.
  It goes on until the stream ends or a frame is too short, and then lets go of the
  ring.  Whenever the ring is empty it waits for data.
-/
import Conduit.Frame.Buffer
import Conduit.Frame.Stream
import Conduit.Lease.Depot
import Conduit.Ring.Channel

namespace Conduit.Frame

open Conduit.Ring (Channel Poll)
open Signal (WaitKey)

/-- A reply that can be completed: the number of its slot and the generation of its lease. -/
abbrev Completer := Nat × UInt32

/-- Replies are never waited for by a continuation. -/
abbrev Replies := Lease.Depot String Empty

/-- What the decoder is in the middle of: a header of which some bytes are there, or a body, in a
    borrowed buffer, of which so many bytes are there. -/
inductive Phase
  | header (bytes : List UInt8)
  | body (buffer : Buffer) (filled : Nat)
deriving DecidableEq, Repr

/-- How many bytes the decoder asks for. -/
def Phase.wanted : Phase → Nat
  | .header bytes => 4 - bytes.length
  | .body buffer filled => buffer.size - filled

/-- The decoder: its registration with the ring, and what it is in the middle of. -/
structure Decoder where
  key : WaitKey
  phase : Phase
deriving DecidableEq, Repr

/-- Everything the decoder works with: the ring, the pools of replies and of bodies, the replies of
    pending requests, and the decoder itself unless it has ended. -/
structure Station where
  channel : Channel
  replies : Replies
  bodies : Pool Buffer
  pending : List (UInt32 × Completer)
  decoder : Option Decoder

namespace Station

/-- A station for a ring and two pools of the given capacities, none of which is zero. -/
def new (ring replies bodies : Nat) (observer : Observer) : Except BuildError Station :=
  if ring = 0 then .error .zeroCapacity
  else
    match Lease.Builder.build
        { Lease.Builder.new with
          capacity := replies
          label := some "replies"
          observer := some observer },
      Pool.Builder.build
        { settings := { Config.PoolSettings.default with capacity := bodies }
          label := some "bodies"
          observer := some observer } fun _ => .ok Buffer.empty with
    | .ok r, .ok b => .ok ⟨.new ring observer, r.state, b.state, [], some ⟨.fresh, .header []⟩⟩
    | .error e, _ => .error e
    | _, .error e => .error e

variable (s : Station)

def onChannel {α : Type} (o : Outcome α Channel) : Outcome α Station :=
  o.lift fun c => { s with channel := c }

def onReplies {α : Type} (o : Outcome α Replies) : Outcome α Station :=
  o.lift fun r => { s with replies := r }

def onBodies {α : Type} (o : Outcome α (Pool Buffer)) : Outcome α Station :=
  o.lift fun b => { s with bodies := b }

/-! ### Replies -/

/-- A slot of which both sides are done goes home. -/
def settle (n : Nat) : Lease.Sequel String Empty → Outcome Unit Station
  | .nothing => .pure () s
  | .home => s.onReplies (s.replies.shelve n)
  | .resume k _ => nomatch k

def dropCompleter (h : Completer) : Outcome Unit Station :=
  (s.onReplies (s.replies.onSlot h.1 fun t => t.dismiss h.2)).andThen fun next s =>
    s.settle h.1 next

/-- Completes a reply; one that is complete already stays as it is. -/
def complete (h : Completer) (text : String) : Outcome Unit Station :=
  (s.onReplies (s.replies.onSlot h.1 fun t => t.complete h.2 (.ok text))).andThen fun r s =>
    match r with
    | .ok next => s.settle h.1 next
    | .error _ => .pure () s

def takePending (id : UInt32) : Option Completer × Station :=
  (s.pending.lookup id, { s with pending := s.pending.filter fun e => e.1 != id })

def forget (id : UInt32) : Outcome Bool Station :=
  match s.takePending id with
  | (some h, s) => (s.dropCompleter h).map fun _ => true
  | (none, s) => .pure false s

/-- Makes a request pending, in place of one that had the same number before. -/
def expect (id : UInt32) (h : Completer) : Outcome Unit Station :=
  (s.forget id).andThen fun _ s => .pure () { s with pending := (id, h) :: s.pending }

/-- Answers a request, if it is pending. -/
def answer (id : UInt32) (text : String) : Outcome Report Station :=
  match s.takePending id with
  | (some h, s) =>
    (s.complete h text).andThen fun _ s => (s.dropCompleter h).map fun _ => .answered id text
  | (none, s) => .pure (.unknown id) s

/-! ### Reading -/

/-- Gives back the buffer of a body that was being read. -/
def abandon : Phase → Outcome Unit Station
  | .header _ => .pure () s
  | .body buffer _ => (s.onBodies (s.bodies.release buffer)).map fun _ => ()

/-- Lets go of what the decoder holds: its registration, the body it is in, and the ring. -/
def stop (d : Decoder) : Outcome Unit Station :=
  (onChannel { s with decoder := none } (s.channel.withdrawReader d.key)).andThen fun _ s =>
    (s.abandon d.phase).andThen fun _ s => s.onChannel s.channel.closeReader

/-- Answers the request that a body belongs to, and gives its buffer back. -/
def deliver (key : WaitKey) (buffer : Buffer) : Outcome (List Report) Station :=
  let (id, text) := contents buffer.toList
  (answer { s with decoder := some ⟨key, .header []⟩ } id text).andThen fun report s =>
    (s.onBodies (s.bodies.release buffer)).map fun _ => [report]

/-- Takes in bytes that were read; there is at least one, and no more than wanted. -/
def accept (d : Decoder) (bytes : List UInt8) : Outcome (List Report) Station :=
  match d.phase with
  | .header start =>
    match start ++ bytes with
    | [a, b, c, e] =>
      match announced? a b c e with
      | none => (s.stop d).map fun _ => [.short, .ended]
      | some n =>
        (s.onBodies s.bodies.borrow).andThen fun r s =>
          match r with
          | .ok buffer => .pure [] { s with decoder := some ⟨d.key, .body (buffer.resize n) 0⟩ }
          | .error _ => (s.stop d).map fun _ => []
    | start => .pure [] { s with decoder := some ⟨d.key, .header start⟩ }
  | .body buffer filled =>
    let buffer := buffer.overwrite filled bytes
    let filled := filled + bytes.length
    if buffer.size ≤ filled then s.deliver d.key buffer
    else .pure [] { s with decoder := some ⟨d.key, .body buffer filled⟩ }

/-- Whether a poll has found the decoder waiting or at its end. -/
inductive Status
  | pending
  | ended
deriving DecidableEq, Repr

/-- A station and what its decoder has reported. -/
abbrev Told := Station × List Report

/-- One read of the decoder. -/
def pass (s : Told) : Outcome (Option Status) Told :=
  match s.1.decoder with
  | none => .pure (some .ended) s
  | some d =>
    ((Ring.pollRead 0 d.phase.wanted (s.1.channel, d.key)).lift fun keyed =>
      ({ s.1 with channel := keyed.1 }, keyed.2)).andThen fun r st =>
        let d : Decoder := { d with key := st.2 }
        match r with
        | .pending => .pure (some .pending) ({ st.1 with decoder := some d }, s.2)
        | .ready [] =>
          ((st.1.stop d).lift fun t => (t, s.2 ++ [.ended])).map fun _ => some .ended
        | .ready bytes =>
          (st.1.accept d bytes).andThen fun reports t => .pure none (t, s.2 ++ reports)

/-- Polls the decoder: it reads until it has to wait or has ended.  Each read but the last takes
    a byte out of the ring. -/
def poll : Outcome (Status × List Report) Station :=
  (Outcome.loop pass (s.channel.store.len.toNat + 2) (s, [])).andThen fun status st =>
    .pure (status.getD .pending, st.2) st.1

end Station

end Conduit.Frame

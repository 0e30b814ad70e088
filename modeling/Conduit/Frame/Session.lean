/-
  Conduit/Frame/Session.lean
  ==========================
  **A decoder, the writer that feeds it, and the requests that wait for replies.**

  The writer hands over what fits and lets the decoder run, until all of its bytes are
  sent or nobody reads any more.
-/
import Conduit.Frame.Decoder
import Conduit.Named

namespace Conduit.Frame

/-! ### Requests and answers -/

inductive Request
  | rent (id : UInt32) (f : String)
  | forget (id : UInt32)
  | reply (f : String)
  | poll
  | write (data : List UInt8)
  | feed (data : List UInt8)
  | encode (id : UInt32) (body : List UInt8)
  | announced (header : List UInt8)
  | close
  | dropDecoder
  | unknown
deriving DecidableEq, Repr

inductive Reply
  | nothing
  | truth (b : Bool)
  | verdict (v : Verdict String)
  | status (s : Station.Status)
  | sent (n : Nat)
  | closed (e : RingClosed) (sent : Nat)
  | bytes (bs : List UInt8)
  | count (n : Nat)
  | panic (p : Panic)
  | misuse (m : Misuse)

/-- A station, whether its writer is still there, and the futures of the replies by name; a future
    lets go of its slot when it has taken the reply. -/
structure Session where
  station : Station
  writer : Bool
  futures : Named (Option Nat)

namespace Session

/-- An outcome of a request: the reply, and what the decoder has reported meanwhile. -/
abbrev Answer := Outcome (Reply × List Report) Session

/-- A session with a ring and two pools of the given capacities. -/
def new (ring replies bodies : Nat) (observer : Observer) : Except BuildError Session :=
  (Station.new ring replies bodies observer).map fun station => ⟨station, true, []⟩

def say (s : Session) (r : Reply) : Answer := .pure (r, []) s

def refuse (s : Session) (m : Misuse) : Answer := s.say (.misuse m)

def onStation {α : Type} (s : Session) (o : Outcome α Station) : Outcome α Session :=
  o.lift fun station => { s with station := station }

/-- Drops a future, if there is one that has not taken its reply. -/
def dropFuture (s : Session) : Option (Option Nat) → Outcome Unit Session
  | some (some n) =>
    s.onStation ((s.station.onReplies (s.station.replies.onSlot n Lease.Slot.detach)).andThen
      fun next t => t.settle n next)
  | _ => .pure () s

/-- Rents a reply for a request; a completer and a future that it replaces are dropped. -/
def rent (s : Session) (id : UInt32) (f : String) : Answer :=
  (s.onStation (s.station.onReplies s.station.replies.rent)).andThen fun r s =>
    match r with
    | .error e => s.say (.panic e)
    | .ok h =>
      (s.onStation (s.station.expect id h)).andThen fun _ s =>
        (dropFuture { s with futures := s.futures.put f (some h.1) } (s.futures.get? f)).map
          fun _ => (.nothing, [])

/-- Takes the reply of a future, if it is there. -/
def takeReply (s : Session) (f : String) : Answer :=
  match s.futures.get? f with
  | none => s.refuse .noSuchFuture
  | some none => s.say .nothing
  | some (some n) =>
    (s.onStation (s.station.onReplies (s.station.replies.onSlot n Lease.Slot.take))).andThen
      fun v s =>
        match v with
        | none => s.say .nothing
        | some v =>
          (onStation { s with futures := s.futures.put f none }
            (s.station.settle n .home)).map fun _ => (.verdict v, [])

/-- Hands bytes to the ring. -/
def write (s : Session) (data : List UInt8) : Outcome (Except RingClosed Nat) Session :=
  s.onStation (s.station.onChannel (s.station.channel.offer data))

def poll (s : Session) : Outcome (Station.Status × List Report) Session :=
  s.onStation s.station.poll

/-- Bytes on their way: the session, those that are left, and what was reported meanwhile. -/
abbrev Feeding := Session × List UInt8 × List Report

/-- Hands over what fits of the bytes that are left, then polls the decoder. -/
def feedPass (total : Nat) (s : Feeding) : Outcome (Option Reply) Feeding :=
  (s.1.write s.2.1).andThen fun r t =>
    match r with
    | .error e => .pure (some (.closed e (total - s.2.1.length))) (t, s.2)
    | .ok n =>
      t.poll.andThen fun p t =>
        let left := s.2.1.drop n
        .pure (if left.isEmpty then some (.sent total) else none) (t, left, s.2.2 ++ p.2)

/-- Sends all bytes.  Each pass but the first sends at least one, since the decoder leaves the ring
    empty or closed. -/
def feed (s : Session) (data : List UInt8) : Answer :=
  (Outcome.loop (feedPass data.length) (data.length + 2) (s, data, [])).andThen fun r st =>
    .pure (r.getD (.sent (data.length - st.2.1.length)), st.2.2) st.1

def withWriter (s : Session) (use : Answer) : Answer :=
  if s.writer then use else s.refuse .gone

def step (s : Session) : Request → Answer
  | .rent id f => s.rent id f
  | .forget id => (s.onStation (s.station.forget id)).map fun b => (.truth b, [])
  | .reply f => s.takeReply f
  | .poll => s.poll.map fun p => (.status p.1, p.2)
  | .write data =>
    s.withWriter ((s.write data).map fun
      | .ok n => (.sent n, [])
      | .error e => (.closed e 0, []))
  | .feed data => s.withWriter (s.feed data)
  | .encode id body => s.say (.bytes (Frame.encode id body))
  | .announced header =>
    match header with
    | [a, b, c, d] =>
      s.say (match announced? a b c d with
        | some n => .count n
        | none => .nothing)
    | _ => s.say .nothing
  | .close =>
    s.withWriter
      ((onStation { s with writer := false }
        (s.station.onChannel s.station.channel.closeWriter)).map fun _ => (.nothing, []))
  | .dropDecoder =>
    match s.station.decoder with
    | some d => (s.onStation (s.station.stop d)).map fun _ => (.nothing, [])
    | none => s.say .nothing
  | .unknown => s.refuse .noSuchOp

def run (s : Session) : List Request → List Answer
  | [] => []
  | r :: rs => let o := s.step r; o :: run o.state rs

/-- The number of unread bytes, as long as the writer can tell. -/
def shownLen (s : Session) : Option UInt64 :=
  if s.writer then some s.station.channel.store.len else none

end Session

end Conduit.Frame

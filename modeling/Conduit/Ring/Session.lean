/-
  Conduit/Ring/Session.lean
  =========================
  **A ring with the handles of its two ends.**

  Each end is held by a handle that blocks or by one that is polled; the two convert
  into each other.  A polled handle can be lent to a transfer that is under way, and a
  blocking call that cannot go on keeps its handle until it returns.  After each request
  a call whose thread was roused goes on at once, until it returns or sleeps again.
-/
import Conduit.Ring.Channel

namespace Conduit.Ring

open Signal (WaitKey)

/-! ### Requests and answers -/

inductive WriterRequest
  | tryWrite (data : List UInt8)
  | write (data : List UInt8) (waker : Waker) (unpolled : Bool)
  | poll (waker : Waker)
  | cancel
  | progress
  | writeOnce (data : List UInt8)
  | writePieces (data : List UInt8)
  | pollWrite (data : List UInt8) (waker : Waker)
  | flush
  | close
  | toPolled
  | toBlocking
  | info
  | debug
  | drop
deriving DecidableEq, Repr

inductive ReaderRequest
  | tryRead (limit : Nat)
  | read (limit : Nat) (waker : Waker) (unpolled : Bool)
  | poll (waker : Waker)
  | cancel
  | readOnce (limit : Nat)
  | pollRead (limit : Nat) (waker : Waker)
  | timedRead (limit : Nat)
  | timeUp
  | readToEnd
  | toPolled
  | toBlocking
  | info
  | debug
  | drop
deriving DecidableEq, Repr

inductive Request
  | writer (r : WriterRequest)
  | reader (r : ReaderRequest)
  | unknown
deriving DecidableEq, Repr

inductive Reply
  | nothing
  | count (n : Nat)
  | got (bytes : List UInt8)
  | done
  | pending
  | created
  | started
  | progress (written : Nat)
  | info (len capacity : UInt64) (closed : Bool)
  | text (s : String)
  | closed (e : RingClosed)
  | brokenPipe (e : RingClosed)
  | timeout (e : ReadTimeout)
  | misuse (m : Misuse)
deriving DecidableEq, Repr

/-! ### The ends -/

/-- The writer's end: a blocking handle, a polled handle with its key, a polled handle lent to a
    write under way, a blocking call that sleeps, or none. -/
inductive WriterEnd
  | blocking
  | polled (key : WaitKey)
  | writing (key : WaitKey) (data : List UInt8) (written : Nat)
  | asleep (mode : WriteMode) (data : List UInt8) (written : Nat)
  | gone
deriving DecidableEq, Repr

inductive ReaderEnd
  | blocking
  | polled (key : WaitKey)
  | reading (key : WaitKey) (limit : Nat)
  | asleep (limit : Nat)
  | gone
deriving DecidableEq, Repr

def WriterEnd.isIdle : WriterEnd → Bool
  | .blocking | .polled _ => true
  | _ => false

def ReaderEnd.isIdle : ReaderEnd → Bool
  | .blocking | .polled _ => true
  | _ => false

structure Session where
  channel : Channel
  writer : WriterEnd
  reader : ReaderEnd
deriving DecidableEq, Repr

abbrev Answer := Outcome Reply Session

namespace Session

/-- A ring with a handle at each end, both blocking or both polled. -/
def new (capacity : Nat) (observer : Observer) (polled : Bool) : Session :=
  if polled then ⟨Channel.new capacity observer, .polled .fresh, .polled .fresh⟩
  else ⟨Channel.new capacity observer, .blocking, .blocking⟩

/-- A ring from its builder, which refuses a capacity of zero. -/
def build (capacity : Nat) (observer : Observer) (polled : Bool) : Except BuildError Session :=
  if capacity = 0 then .error .zeroCapacity else .ok (new capacity observer polled)

/-- A ring made without a builder, which does not put up with a capacity of zero. -/
def bounded (capacity : Nat) (polled : Bool) : Except Panic Session :=
  if capacity = 0 then .error .ringCapacity else .ok (new capacity .tracing polled)

def refuse (s : Session) (m : Misuse) : Answer := .pure (.misuse m) s

def writeReply (mode : WriteMode) : Except RingClosed Nat → Reply
  | .ok n => if mode = .once then .count n else .done
  | .error e => if mode = .whole then .closed e else .brokenPipe e

def offerReply : Except RingClosed Nat → Reply
  | .ok n => .count n
  | .error e => .closed e

def pollWriteReply : Poll (Except RingClosed Nat) → Reply
  | .ready (.ok n) => .count n
  | .ready (.error e) => .brokenPipe e
  | .pending => .pending

/-- The channel as it is written out in handles. -/
def channelText (c : Channel) : String :=
  Text.openRecord "RingShared"
    [("capacity", toString c.store.capacity), ("write_pos", toString c.store.writePos),
     ("read_pos", toString c.store.readPos), ("writer_closed", Text.truth c.writerClosed),
     ("reader_closed", Text.truth c.readerClosed)]

def handleText (name : String) (c : Channel) (key : Option WaitKey) : String :=
  Text.record name
    ([("shared", channelText c)] ++ (key.toList.map fun k => ("key", k.debug))
      ++ [("_phantom", "PhantomData<*mut ()>")])

/-- What a handle tells about the ring; `closed` is whether the other end is. -/
def info (c : Channel) (closed : Bool) : Reply := .info c.store.len c.store.capacity closed

/-! ### The writer's end -/

def blockWriting (s : Session) (mode : WriteMode) (data : List UInt8)
    (o : Outcome (Blocking (Except RingClosed Nat)) Committing) : Answer :=
  o.andThen fun r st =>
    match r with
    | .returned r => .pure (writeReply mode r) { s with channel := st.1, writer := .blocking }
    | .asleep => .pure .started { s with channel := st.1, writer := .asleep mode data st.2 }

/-- Gives up the write under way, if any, and keeps the handle. -/
def endWriting (s : Session) (key : WaitKey) : Answer :=
  (s.channel.withdrawWriter key).andThen fun _ c =>
    .pure .nothing { s with channel := c, writer := .polled .fresh }

/-- Polls the write under way; when it is over, it is given up and the handle is free again. -/
def pollWriting (s : Session) (w : Waker) (key : WaitKey) (data : List UInt8) (written : Nat) :
    Answer :=
  (pollWriteAll w data ((s.channel, key), written)).andThen fun r st =>
    let s := { s with channel := st.1.1, writer := .writing st.1.2 data st.2 }
    match r with
    | .ready (.ok ()) => (s.endWriting st.1.2).map fun _ => .done
    | .ready (.error e) => (s.endWriting st.1.2).map fun _ => .closed e
    | .pending => .pure .pending s

def dropWriter (s : Session) (key : WaitKey) : Answer :=
  (s.channel.withdrawWriter key).andThen fun _ c =>
    c.closeWriter.andThen fun _ c => .pure .nothing { s with channel := c, writer := .gone }

def blockingWriter (s : Session) : WriterRequest → Answer
  | .tryWrite data =>
    (s.channel.offer data).andThen fun r c => .pure (offerReply r) { s with channel := c }
  | .write data _ _ => s.blockWriting .whole data (blockingWrite .whole data (s.channel, 0))
  | .writeOnce data => s.blockWriting .once data (blockingWrite .once data (s.channel, 0))
  | .writePieces data => s.blockWriting .pieces data (blockingWrite .pieces data (s.channel, 0))
  | .flush => .pure .done s
  | .toPolled => .pure .nothing { s with writer := .polled .fresh }
  | .info => .pure (info s.channel s.channel.readerClosed) s
  | .debug => .pure (.text (handleText "SyncRingWriter" s.channel none)) s
  | .drop => s.dropWriter .fresh
  | _ => s.refuse .mode

def polledWriter (s : Session) (key : WaitKey) : WriterRequest → Answer
  | .tryWrite data =>
    if s.channel.writerClosed then .pure (.closed ⟨0⟩) s
    else (s.channel.offer data).andThen fun r c => .pure (offerReply r) { s with channel := c }
  | .write data w unpolled =>
    if unpolled then .pure .created { s with writer := .writing key data 0 }
    else s.pollWriting w key data 0
  | .pollWrite data w =>
    (pollWrite w data (s.channel, key)).andThen fun r st =>
      .pure (pollWriteReply r) { s with channel := st.1, writer := .polled st.2 }
  | .flush => .pure .done s
  | .close => s.channel.closeWriter.andThen fun _ c => .pure .done { s with channel := c }
  | .toBlocking =>
    (s.channel.withdrawWriter key).andThen fun _ c =>
      .pure .nothing { s with channel := c, writer := .blocking }
  | .info => .pure (info s.channel s.channel.readerClosed) s
  | .debug => .pure (.text (handleText "AsyncRingWriter" s.channel (some key))) s
  | .drop => s.dropWriter key
  | _ => s.refuse .mode

def busyWriter (s : Session) (key : WaitKey) (data : List UInt8) (written : Nat) :
    WriterRequest → Answer
  | .poll w => s.pollWriting w key data written
  | .cancel => s.endWriting key
  | .progress => .pure (.progress written) s
  | .drop => s.dropWriter key
  | _ => s.refuse .busy

def writerRequest (s : Session) (r : WriterRequest) : Answer :=
  match s.writer with
  | .blocking => s.blockingWriter r
  | .polled key => s.polledWriter key r
  | .writing key data written => s.busyWriter key data written r
  | .asleep _ _ _ => s.refuse .busy
  | .gone => s.refuse .gone

/-! ### The reader's end -/

def blockReading (s : Session) (limit : Nat) (o : Outcome (Blocking (List UInt8)) Channel) :
    Answer :=
  o.andThen fun r c =>
    match r with
    | .returned bytes => .pure (.got bytes) { s with channel := c, reader := .blocking }
    | .asleep => .pure .started { s with channel := c, reader := .asleep limit }

/-- Gives up the read under way, if any, and keeps the handle. -/
def endReading (s : Session) (key : WaitKey) : Answer :=
  (s.channel.withdrawReader key).andThen fun _ c =>
    .pure .nothing { s with channel := c, reader := .polled .fresh }

/-- Polls the read under way; when it is over, it is given up and the handle is free again. -/
def pollReading (s : Session) (w : Waker) (key : WaitKey) (limit : Nat) : Answer :=
  (pollRead w limit (s.channel, key)).andThen fun r st =>
    let s := { s with channel := st.1, reader := .reading st.2 limit }
    match r with
    | .ready bytes => (s.endReading st.2).map fun _ => .got bytes
    | .pending => .pure .pending s

def timedReply : Except ReadTimeout (List UInt8) → Reply
  | .ok bytes => .got bytes
  | .error e => .timeout e

/-- Ends a timed read, which leaves the handle idle. -/
def endTimedReading (s : Session) (o : Outcome (Except ReadTimeout (List UInt8)) Channel) :
    Answer :=
  o.andThen fun r c => .pure (timedReply r) { s with channel := c, reader := .blocking }

def dropReader (s : Session) (key : WaitKey) : Answer :=
  (s.channel.withdrawReader key).andThen fun _ c =>
    c.closeReader.andThen fun _ c => .pure .nothing { s with channel := c, reader := .gone }

def blockingReader (s : Session) : ReaderRequest → Answer
  | .tryRead limit =>
    (s.channel.tryRead limit).andThen fun bytes c => .pure (.got bytes) { s with channel := c }
  | .read limit _ _ => s.blockReading limit (blockingRead limit s.channel)
  | .readOnce limit => s.blockReading limit (blockingRead limit s.channel)
  | .timedRead limit => s.endTimedReading (timedRead limit s.channel)
  | .readToEnd =>
    if s.channel.writerClosed then
      (s.channel.tryRead s.channel.store.len.toNat).andThen fun bytes c =>
        .pure (.got bytes) { s with channel := c }
    else s.refuse .race
  | .toPolled => .pure .nothing { s with reader := .polled .fresh }
  | .info => .pure (info s.channel s.channel.writerClosed) s
  | .debug => .pure (.text (handleText "SyncRingReader" s.channel none)) s
  | .drop => s.dropReader .fresh
  | _ => s.refuse .mode

def polledReader (s : Session) (key : WaitKey) : ReaderRequest → Answer
  | .tryRead limit =>
    (s.channel.tryRead limit).andThen fun bytes c => .pure (.got bytes) { s with channel := c }
  | .read limit w unpolled =>
    if unpolled then .pure .created { s with reader := .reading key limit }
    else s.pollReading w key limit
  | .pollRead limit w =>
    (pollRead w limit (s.channel, key)).andThen fun r st =>
      .pure (match r with
        | .ready bytes => .got bytes
        | .pending => .pending) { s with channel := st.1, reader := .polled st.2 }
  | .toBlocking =>
    (s.channel.withdrawReader key).andThen fun _ c =>
      .pure .nothing { s with channel := c, reader := .blocking }
  | .info => .pure (info s.channel s.channel.writerClosed) s
  | .debug => .pure (.text (handleText "AsyncRingReader" s.channel (some key))) s
  | .drop => s.dropReader key
  | _ => s.refuse .mode

def busyReader (s : Session) (key : WaitKey) (limit : Nat) : ReaderRequest → Answer
  | .poll w => s.pollReading w key limit
  | .cancel => s.endReading key
  | .drop => s.dropReader key
  | _ => s.refuse .busy

/-- A request to a reader whose call sleeps: all that can happen to it is that its time is over. -/
def sleepingReader (s : Session) (limit : Nat) : ReaderRequest → Answer
  | .timeUp => s.endTimedReading (timeUpRead limit s.channel)
  | _ => s.refuse .busy

def readerRequest (s : Session) (r : ReaderRequest) : Answer :=
  match s.reader with
  | .blocking => s.blockingReader r
  | .polled key => s.polledReader key r
  | .reading key limit => s.busyReader key limit r
  | .asleep limit => s.sleepingReader limit r
  | .gone => s.refuse .gone

/-! ### Runs -/

/-- The effect of a request, before roused calls go on. -/
def request (s : Session) : Request → Answer
  | .writer r => s.writerRequest r
  | .reader r => s.readerRequest r
  | .unknown => s.refuse .noSuchOp

/-- Lets a sleeping write go on if its thread was roused; the answer is its result if it returns. -/
def settleWriter (s : Session) : Outcome (Option Reply) Session :=
  match s.writer with
  | .asleep mode data written =>
    if s.channel.spaceReady.roused.isEmpty then .pure none s
    else
      (s.blockWriting mode data (resumeWrite mode data (s.channel, written))).map fun r =>
        if r = .started then none else some r
  | _ => .pure none s

/-- Lets a sleeping read go on if its thread was roused; the answer is its result if it returns. -/
def settleReader (s : Session) : Outcome (Option Reply) Session :=
  match s.reader with
  | .asleep limit =>
    if s.channel.dataReady.roused.isEmpty then .pure none s
    else
      (s.blockReading limit (resumeRead limit s.channel)).map fun r =>
        if r = .started then none else some r
  | _ => .pure none s

/-- Calls that returned, each with its side and its result. -/
abbrev Returned := List (Side × Reply)

/-- Lets roused calls go on.  A read that goes on makes room for a sleeping write; a write that goes
    on finds no sleeping read, so each end is looked at once. -/
def settle (s : Session) : Outcome Returned Session :=
  s.settleReader.andThen fun r s =>
    s.settleWriter.map fun w =>
      (w.toList.map fun x => (Side.writer, x)) ++ (r.toList.map fun x => (Side.reader, x))

/-- A request and everything that follows from it at once: its reply, and the calls that
    returned. -/
def advance (s : Session) (r : Request) : Outcome (Reply × Returned) Session :=
  (s.request r).andThen fun reply s => s.settle.map fun returned => (reply, returned)

/-- Whether a write would have to wait in the middle while the other end sleeps, so that both ends
    would go on at once. -/
def races (s : Session) (r : Request) : Bool :=
  match s.reader, s.writer, r with
  | .asleep _, .blocking, .writer (.write data _ _)
  | .asleep _, .blocking, .writer (.writePieces data)
  | .asleep _, .polled _, .writer (.write data _ _) =>
    s.channel.store.free.toNat < data.length
  | .asleep _, .writing _ _ _, .writer (.poll _) => true
  | _, _, _ => false

/-- Answers a request, unless it would race. -/
def step (s : Session) (r : Request) : Outcome (Reply × Returned) Session :=
  if s.races r then (s.refuse .race).map fun reply => (reply, []) else s.advance r

def run (s : Session) : List Request → List (Outcome (Reply × Returned) Session)
  | [] => []
  | r :: rs => let o := s.step r; o :: run o.state rs

/-- The session after a run in which every request is carried out. -/
def after (s : Session) : List Request → Session
  | [] => s
  | r :: rs => after (s.advance r).state rs

/-- The number of unread bytes, as long as an idle handle can tell. -/
def shownLen (s : Session) : Option UInt64 :=
  if s.reader.isIdle ∨ s.writer.isIdle then some s.channel.store.len else none

end Session

end Conduit.Ring

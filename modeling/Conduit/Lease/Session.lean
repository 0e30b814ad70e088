/-
  Conduit/Lease/Session.lean
  ==========================
  **Leases and the handles on them.**

  A session holds a depot, slots that stand apart from it, and handles by name: the
  completers and the futures of leases.  A continuation that becomes due runs at once,
  in the middle of the request that made it due, unless its slot defers continuations:
  then a spawner decides where it runs.  While it runs, it makes requests of its own.

  Continuations run inside one another no deeper than there are requests, since each
  runs once and was left by a request of its own; the same number bounds how many jobs
  run in a row, and how many handles are left at the end.
-/
import Conduit.Lease.Depot
import Conduit.Lease.EventLoop
import Conduit.Lease.Request
import Conduit.Named

namespace Conduit.Lease

/-- What runs deferred continuations: the completing thread at once, a thread of their own at
    once, whoever asks for a job by number, or an event loop that is run on request. -/
inductive Spawner
  | inline
  | thread
  | manual
  | eventLoop
deriving DecidableEq, Repr

/-- Which slot: one of the depot, or one that stands apart. -/
inductive SlotId
  | pooled (n : Nat)
  | apart (n : Nat)
deriving DecidableEq, Repr

/-- A handle that can complete the lease of a generation. -/
structure Completer where
  slot : SlotId
  generation : UInt32
deriving DecidableEq, Repr

/-- A handle on an outcome; it lets go of the slot when it has taken the outcome. -/
abbrev Future := Option SlotId

/-- A continuation that is to run with its outcome. -/
structure Job where
  slot : SlotId
  continuation : Continuation
  verdict : Verdict String

/-- A depot, unless there is none, the slots apart, of which the first few can be asked for by
    number, the spawner of deferred continuations, the handles by name, and the completers whose
    completion is under way.  Jobs wait in an event loop, or in order until they are asked for by
    number.  Continuations that have finished are noted until the request is answered. -/
structure Session where
  depot : Option (Depot String Continuation)
  apart : List (Slot String Continuation)
  numbered : Nat
  spawner : Spawner
  completers : Named Completer
  futures : Named Future
  enclosing : List String
  eventLoop : EventLoop Job
  jobs : List Job
  resumed : List Resumption

namespace Session

abbrev Answer := Outcome Reply Session

/-- Serves requests that a continuation makes. -/
abbrev Service := Session → List Request → List Step × Session

/-- A session with a depot, unless there is none, and slots that stand apart. -/
def new (depot : Option (Depot String Continuation)) (spawner : Spawner) (homes : List Home) :
    Session :=
  { depot := depot
    apart := homes.map fun home => Slot.new home false .tracing
    numbered := homes.length
    spawner := spawner
    completers := []
    futures := []
    enclosing := []
    eventLoop := .new
    jobs := []
    resumed := [] }

def refuse (s : Session) (m : Misuse) : Answer := .pure (.misuse m) s

def openDepot? (s : Session) : Option (Depot String Continuation) :=
  s.depot.filter Depot.isOpen

def available (s : Session) : Option Nat := s.openDepot?.map Depot.available

def onDepot {β : Type} (s : Session) (o : Outcome β (Depot String Continuation)) :
    Outcome β Session :=
  o.lift fun d => { s with depot := some d }

/-- The slot that stands for one that is not there. -/
def blank : Slot String Continuation := .new .nowhere false .quiet

/-- The slot that a handle is on. -/
def slotAt (s : Session) : SlotId → Slot String Continuation
  | .pooled n => (s.depot.map fun d => d.slot n).getD blank
  | .apart n => s.apart.getD n blank

def onSlot {β : Type} (s : Session) (id : SlotId)
    (op : Slot String Continuation → Outcome β (Slot String Continuation)) : Outcome β Session :=
  (op (s.slotAt id)).lift fun t =>
    match id with
    | .pooled n =>
      { s with depot := s.depot.map fun d => { d with slots := d.slots.set n t } }
    | .apart n => { s with apart := s.apart.set n t }

def withCompleter (s : Session) (c : String) (use : Completer → Answer) : Answer :=
  match s.completers.get? c with
  | some h => use h
  | none => s.refuse .noSuchCompleter

def withFuture (s : Session) (f : String) (use : Future → Answer) : Answer :=
  match s.futures.get? f with
  | some h => use h
  | none => s.refuse .noSuchFuture

/-- Goes on with the slot that a future is on, if it has not taken the outcome. -/
def withAwaited (s : Session) (f : String) (consumed : Reply) (use : SlotId → Answer) : Answer :=
  s.withFuture f fun
    | some id => use id
    | none => .pure consumed s

/-! ### What comes after an operation on a slot -/

/-- A recycled slot goes home. -/
def goHome (s : Session) : SlotId → Outcome Unit Session
  | .pooled n =>
    match s.depot with
    | some d => s.onDepot (d.shelve n)
    | none => .pure () s
  | .apart n => ⟨(), s, (s.slotAt (.apart n)).homecoming⟩

/-- Notes that a continuation has finished; then it panics, or its slot is recycled. -/
def finish (s : Session) (job : Job) (note : Resumption) : Outcome (Option Panic) Session :=
  let s := { s with resumed := s.resumed ++ [note] }
  if job.continuation.fails then .pure (some .continuationFailed) s
  else
    (s.onSlot job.slot fun t => .pure () t.recycle).andThen fun _ s =>
      (s.goHome job.slot).map fun _ => none

/-- Runs a continuation here and now. -/
def runHere (service : Service) (s : Session) (job : Job) : Outcome (Option Panic) Session :=
  let k := job.continuation
  let (steps, t) := service { s with resumed := [] } k.requests
  finish { t with resumed := s.resumed } job
    ⟨k.label, job.verdict, s.available, .caller, steps⟩

/-- Runs a continuation on a thread of its own, where it makes no requests; a panic ends the
    thread only. -/
def runApart (s : Session) (job : Job) : Outcome (Option Panic) Session :=
  (s.finish job ⟨job.continuation.label, job.verdict, s.available, .ownThread, []⟩).map
    fun _ => none

/-- Hands a deferred continuation to the spawner. -/
def spawn (service : Service) (s : Session) (job : Job) : Outcome (Option Panic) Session :=
  match s.spawner with
  | .inline => runHere service s job
  | .thread => s.runApart job
  | .manual => .pure none { s with jobs := s.jobs ++ [job] }
  | .eventLoop => .pure none { s with eventLoop := s.eventLoop.spawn job }

/-- Goes on after an operation on a slot.  A continuation that a completion found may be deferred;
    one that found its outcome runs at once. -/
def follow (service : Service) (s : Session) (id : SlotId) (mayDefer : Bool) :
    Sequel String Continuation → Outcome (Option Panic) Session
  | .nothing => .pure none s
  | .home => (s.goHome id).map fun _ => none
  | .resume k v =>
    if mayDefer ∧ (s.slotAt id).deferred then spawn service s ⟨id, k, v⟩
    else runHere service s ⟨id, k, v⟩

/-- The reply of a request that went well, unless it panicked. -/
def orPanic (reply : Reply) : Option Panic → Reply
  | none => reply
  | some p => .panic p

/-! ### Requests -/

/-- Keeps the two handles of a lease. -/
def hold (s : Session) (c f : String) (id : SlotId) (generation : UInt32) : Session :=
  { s with
    completers := s.completers.put c ⟨id, generation⟩
    futures := s.futures.put f (some id) }

def leaseApart (s : Session) (n : Nat) (c f : String) : Answer :=
  (s.onSlot (.apart n) Slot.lease).andThen fun
    | .ok generation, s => .pure .nothing (s.hold c f (.apart n) generation)
    | .error e, s => .pure (.panic e) s

def withFree (s : Session) (c f : String) (use : Answer) : Answer :=
  if s.completers.holds c ∨ s.futures.holds f then s.refuse .handleInUse else use

def rent (s : Session) (c f : String) : Answer :=
  match s.openDepot? with
  | none => s.refuse .noPool
  | some d =>
    (s.onDepot d.rent).andThen fun
      | .ok (n, generation), s => .pure .nothing (s.hold c f (.pooled n) generation)
      | .error e, s => .pure (.panic e) s

/-- Completes a lease; meanwhile the completer cannot be dropped. -/
def complete (service : Service) (s : Session) (c : String) (v : Verdict String) : Answer :=
  s.withCompleter c fun h =>
    (s.onSlot h.slot fun t => t.complete h.generation v).andThen fun
      | .error e, s => .pure (.rejected e) s
      | .ok next, s =>
        (follow service { s with enclosing := c :: s.enclosing } h.slot true next).andThen
          fun p t => .pure (orPanic .accepted p) { t with enclosing := s.enclosing }

def dropCompleter (service : Service) (s : Session) (c : String) : Answer :=
  s.withCompleter c fun h =>
    if s.enclosing.contains c then s.refuse .enclosing
    else
      (onSlot { s with completers := s.completers.erase c } h.slot
        fun t => t.dismiss h.generation).andThen fun next s =>
          (follow service s h.slot true next).map (orPanic .nothing)

def dropFuture (service : Service) (s : Session) (f : String) : Answer :=
  s.withFuture f fun h =>
    let s := { s with futures := s.futures.erase f }
    match h with
    | none => .pure .nothing s
    | some id =>
      (s.onSlot id Slot.detach).andThen fun next s =>
        (follow service s id false next).map (orPanic .nothing)

/-- A future has taken its outcome, or is still waiting for it. -/
def received (f : String) (id : SlotId) (waiting : Reply) (v : Option (Verdict String))
    (s : Session) : Answer :=
  match v with
  | none => .pure waiting s
  | some v =>
    (goHome { s with futures := s.futures.put f none } id).map fun _ => .verdict v

/-- Leaves a continuation for an outcome; the future is used up. -/
def register (service : Service) (s : Session) (f : String) (k : Continuation) : Answer :=
  s.withFuture f fun h =>
    let s := { s with futures := s.futures.erase f }
    match h with
    | none => .pure (.panic .registeredOnConsumed) s
    | some id =>
      (s.onSlot id fun t => t.register k).andThen fun next s =>
        (follow service s id false next).map (orPanic .nothing)

/-- Adds one completer to a lease and keeps it. -/
def clone (s : Session) (c copy : String) : Answer :=
  s.withCompleter c fun h =>
    if s.completers.holds copy then s.refuse .handleInUse
    else
      (s.onSlot h.slot fun t => t.enlist h.generation 1).andThen fun
        | .ok (), s => .pure .nothing { s with completers := s.completers.put copy h }
        | .error e, s => .pure (.panic e) s

/-- Runs jobs until a look of the event loop finds none, at most `bound` of them. -/
def runLoop (service : Service) : Nat → Session → Outcome Unit Session
  | 0, s => .pure () s
  | bound + 1, s =>
    match s.eventLoop.look with
    | (some job, l) =>
      (runHere service { s with eventLoop := l } job).andThen fun _ s => runLoop service bound s
    | (none, l) => .pure () { s with eventLoop := l }

/-- Runs the event loop, unless it runs already; a panic of a job ends the job only. -/
def runEventLoop (bound : Nat) (service : Service) (s : Session) : Answer :=
  if s.eventLoop.isRunning then .pure (.panic .loopWithinLoop) s
  else
    (runLoop service bound { s with eventLoop := { s.eventLoop with isRunning := true } }).andThen
      fun _ s => .pure .nothing { s with eventLoop := { s.eventLoop with isRunning := false } }

/-- Takes a job out of the list, if there is one of that number. -/
def withJob (s : Session) (i : Nat) (use : Session → Job → Answer) : Answer :=
  match s.spawner, s.jobs[i]? with
  | .manual, some job => use { s with jobs := s.jobs.eraseIdx i } job
  | _, _ => .pure .noJob s

def runJob (bound : Nat) (service : Service) (s : Session) (i : Nat) : Answer :=
  if s.spawner = .eventLoop then runEventLoop bound service s
  else s.withJob i fun s job => (runHere service s job).map (orPanic .ran)

def completerDebug (h : Completer) (t : Slot String Continuation) : String :=
  Text.record "Completer"
    [("generation", toString h.generation),
     ("completed", Text.truth (t.isSettled h.generation))]

/-- Whether a future's outcome is there or has been taken. -/
def isCompleted (s : Session) (h : Future) : Bool :=
  h.all fun id => (s.slotAt id).isCompleted

def futureDebug (s : Session) (h : Future) : String :=
  Text.record "RecyclableFuture"
    [("completed", Text.truth (s.isCompleted h)), ("consumed", Text.truth h.isNone)]

def step (bound : Nat) (service : Service) (s : Session) : Request → Answer
  | .pair c f =>
    s.withFree c f
      (leaseApart { s with apart := s.apart ++ [Slot.new .nowhere false .tracing] }
        s.apart.length c f)
  | .rent c f => s.withFree c f (s.rent c f)
  | .lease n c f =>
    s.withFree c f (if n < s.numbered then s.leaseApart n c f else s.refuse .noSuchSlot)
  | .complete c v => complete service s c v
  | .clone c copy => s.clone c copy
  | .leakClones c n =>
    s.withCompleter c fun h =>
      (s.onSlot h.slot fun t => t.enlist h.generation n).map fun
        | .ok () => .nothing
        | .error e => .panic e
  | .dropCompleter c => dropCompleter service s c
  | .dropFuture f => dropFuture service s f
  | .tryResult f =>
    s.withAwaited f .nothing fun id =>
      (s.onSlot id Slot.take).andThen (received f id .nothing)
  | .poll f waker =>
    s.withAwaited f (.panic .polledAfterCompletion) fun id =>
      (s.onSlot id fun t => t.poll waker).andThen (received f id .pending)
  | .register f label requests fails => register service s f ⟨label, requests, fails⟩
  | .completerDone c =>
    s.withCompleter c fun h => .pure (.truth ((s.slotAt h.slot).isSettled h.generation)) s
  | .futureDone f => s.withFuture f fun h => .pure (.truth (s.isCompleted h)) s
  | .completerDebug c =>
    s.withCompleter c fun h => .pure (.text (completerDebug h (s.slotAt h.slot))) s
  | .futureDebug f => s.withFuture f fun h => .pure (.text (s.futureDebug h)) s
  | .slot n =>
    if n < s.numbered then
      let t := s.slotAt (.apart n)
      .pure (.slot t.generation t.debug) s
    else s.refuse .noSuchSlot
  | .info =>
    match s.openDepot? with
    | some d => .pure (.info d.capacity d.available d.debug) s
    | none => s.refuse .noPool
  | .dropPool =>
    match s.openDepot? with
    | some d => (s.onDepot d.close).map fun _ => .nothing
    | none => s.refuse .noPool
  | .runJob i => runJob bound service s i
  | .dropJob i => s.withJob i fun s _ => .pure .dropped s
  | .countJobs => .pure (.count (if s.spawner = .manual then s.jobs.length else 0)) s
  | .unknown => s.refuse .noSuchOp

/-! ### Runs -/

/-- Answers a request in full. -/
def answer (s : Session) (op : Session → Answer) : Step × Session :=
  let o := op { s with resumed := [] }
  (.mk o.answer o.effects o.state.resumed o.state.available, { o.state with resumed := [] })

def serveWith (bound : Nat) (service : Service) (s : Session) : List Request → List Step × Session
  | [] => ([], s)
  | r :: rs =>
    let (step, s) := s.answer fun s => s.step bound service r
    let (steps, s) := serveWith bound service s rs
    (step :: steps, s)

/-- Answers requests, with no more than `bound` continuations running inside one another. -/
def serve : Nat → Session → List Request → List Step × Session
  | 0, s, rs => serveWith 0 (fun s _ => ([], s)) s rs
  | bound + 1, s, rs => serveWith (bound + 1) (serve bound) s rs

def run (s : Session) (rs : List Request) : List Step × Session := s.serve (Request.sizes rs) rs

/-- Drops the completers by name until none is held, at most `bound` of them, then the futures;
    panics end here.  What a continuation adds meanwhile is dropped as well. -/
def dropAll (service : Service) : Nat → Session → Outcome Unit Session
  | 0, s => .pure () s
  | bound + 1, s =>
    match s.completers.inOrder, s.futures.inOrder with
    | (c, _) :: _, _ => (dropCompleter service s c).andThen fun _ s => dropAll service bound s
    | [], (f, _) :: _ => (dropFuture service s f).andThen fun _ s => dropAll service bound s
    | [], [] => .pure () s

/-- Drops every handle; `requests` are those that led to this session. -/
def close (s : Session) (requests : List Request) : Step × Session :=
  let bound := Request.sizes requests
  s.answer fun s => (dropAll (serve bound) (2 * bound) s).map fun _ => .nothing

end Session

end Conduit.Lease

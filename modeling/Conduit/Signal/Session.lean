/-
  Conduit/Signal/Session.lean
  ===========================
  **One signal and everybody who waits for it.**

  A session holds a signal, the waits that were begun under names, cancellations,
  keys, and the threads blocked in the signal.  After each request the threads that it
  roused run until they return or sleep again; those that return are part of the
  answer.  What only some signals can do (blocking waits, keys, looking at the bit) is
  optional (`Facilities`), and asking another signal for it is a misuse.
-/
import Conduit.Fault
import Conduit.Named
import Conduit.Signal.AutoReset

namespace Conduit.Signal

/-- What a signal offers beyond the common contract, and how it is written out. -/
class Facilities (σ : Type) (ω : outParam Type) extends AutoReset σ ω where
  /-- Blocks a thread unless the signal is set. -/
  block? : Option (Thread → σ → Outcome Bool σ)
  /-- A blocking wait whose time is over at once. -/
  expire? : Option (σ → Outcome Bool σ)
  /-- The same wait, asked for by a point in time. -/
  pastDeadline? : Option (σ → Outcome Bool σ)
  /-- The time of a blocked thread is over. -/
  timeUp? : Option (Thread → σ → Outcome Bool σ)
  /-- Lets roused threads run; the answer is who returned. -/
  settle : σ → Outcome (List Thread) σ
  /-- Polls under a key that the caller keeps. -/
  pollKey? : Option (Waker → WaitKey → σ → Outcome (Bool × WaitKey) σ)
  /-- Gives up a key. -/
  cancelKey? : Option (WaitKey → σ → Outcome Unit σ)
  /-- How many waiters are queued. -/
  waiters? : Option (σ → Nat)
  /-- Whether the signal can be taken at once. -/
  isSet? : Option (σ → Bool)
  debug : σ → String
  debugWait : σ → ω → String

instance : Facilities Queue Queue.Wait where
  block? := some Queue.block
  expire? := some Queue.expire
  pastDeadline? := none
  timeUp? := some Queue.timeUp
  settle := Queue.settle
  pollKey? := none
  cancelKey? := none
  waiters? := some fun q => q.line.length
  isSet? := none
  debug := Queue.debug
  debugWait _ := Queue.Wait.debug

instance : Facilities Spin Spin.Wait where
  block? := none
  expire? := none
  pastDeadline? := none
  timeUp? := none
  settle := .pure []
  pollKey? := none
  cancelKey? := none
  waiters? := none
  isSet? := none
  debug := Spin.debug
  debugWait _ := Spin.Wait.debug

instance : Facilities Slim Slim.Wait where
  block? := some Slim.block
  expire? := some Slim.expire
  pastDeadline? := some Slim.expire
  timeUp? := some Slim.timeUp
  settle := Slim.settle
  pollKey? := some Slim.pollWait
  cancelKey? := some Slim.cancelWait
  waiters? := none
  isSet? := some Slim.isSet
  debug := Slim.debug
  debugWait := Slim.Wait.debug

/-! ### Requests and answers -/

/-- What can be asked of a session. -/
inductive Request
  | set
  | tryWait
  | wait (id : String)
  | waitOrCancel (id : String) (fired : Bool)
  | fire (id : String)
  | poll (id : String) (waker : Waker)
  | drop (id : String)
  | debug (id : String)
  | newKey (id : String)
  | pollKey (id : String) (waker : Waker)
  | cancelKey (id : String)
  | keyInfo (id : String)
  | waiters
  | isSet
  | expire
  | pastDeadline
  | block (id : Thread)
  | timeUp (id : Thread)
  | unknown
deriving DecidableEq, Repr

inductive Reply
  | nothing
  | truth (b : Bool)
  | count (n : Nat)
  | text (s : String)
  | ready
  | pending
  | cancelled
  | key (registered : Bool) (text : String)
  | released
  | started
  | misuse (m : Misuse)
deriving DecidableEq, Repr

/-- A wait held under a name: plain, or one that the cancellation of the same name may end. -/
inductive Held (ω : Type)
  | plain (wait : ω)
  | cancellable (wait : ω)
deriving DecidableEq, Repr

def Held.wait {ω : Type} : Held ω → ω
  | .plain wait => wait
  | .cancellable wait => wait

/-- A signal with everything that its users hold. -/
structure Session (σ ω : Type) where
  signal : σ
  waits : Named (Held ω)
  cancellations : Named Cancellation
  keys : Named WaitKey
  blocked : List Thread

namespace Session

variable {σ ω : Type} [Facilities σ ω]

def new (observer : Observer) : Session σ ω := ⟨AutoReset.new observer, [], [], [], []⟩

def onSignal {α : Type} (s : Session σ ω) (o : Outcome α σ) : Outcome α (Session σ ω) :=
  o.lift fun signal => { s with signal := signal }

/-- An operation that this signal may not offer. -/
def offered {α : Type} (s : Session σ ω) (op : Option α) (refusal : Misuse)
    (use : α → Outcome Reply (Session σ ω)) : Outcome Reply (Session σ ω) :=
  match op with
  | some a => use a
  | none => .pure (.misuse refusal) s

/-- Gives up the wait under a name, if there is one, and lets the name hold another. -/
def replace (s : Session σ ω) (id : String) (held : Held ω) : Outcome Reply (Session σ ω) :=
  let s' := { s with waits := s.waits.put id held }
  match s.waits.get? id with
  | some old => (s'.onSignal (AutoReset.drop old.wait s.signal)).map fun _ => .nothing
  | none => .pure .nothing s'

/-- Polls the wait under a name.  A plain wait stays when it is released; a cancellable one is
    gone once it has ended. -/
def poll (s : Session σ ω) (id : String) (w : Waker) : Outcome Reply (Session σ ω) :=
  match s.waits.get? id with
  | none => .pure (.misuse .noSuchId) s
  | some (.plain wait) =>
    (s.onSignal (AutoReset.poll w wait s.signal)).andThen fun r s =>
      .pure (if r.1 then .ready else .pending)
        { s with waits := s.waits.put id (.plain r.2) }
  | some (.cancellable wait) =>
    let c := (s.cancellations.get? id).getD ⟨false, none⟩
    (s.onSignal (raceCancel w wait c s.signal)).andThen fun r s =>
      let s := { s with cancellations := s.cancellations.put id r.2 }
      match r.1 with
      | .released => .pure .ready { s with waits := s.waits.erase id }
      | .cancelled => .pure .cancelled { s with waits := s.waits.erase id }
      | .pending wait => .pure .pending { s with waits := s.waits.put id (.cancellable wait) }

/-- The effect of a request, before roused threads run. -/
def request (s : Session σ ω) : Request → Outcome Reply (Session σ ω)
  | .set => (s.onSignal (AutoReset.set s.signal)).map fun _ => .nothing
  | .tryWait => (s.onSignal (AutoReset.tryWait s.signal)).map .truth
  | .wait id => s.replace id (.plain (AutoReset.wait σ))
  | .waitOrCancel id fired =>
    let s := { s with cancellations := s.cancellations.put id ⟨fired, none⟩ }
    s.replace id (.cancellable (AutoReset.wait σ))
  | .fire id =>
    match s.cancellations.get? id with
    | some c =>
      (c.fire.lift fun c => { s with cancellations := s.cancellations.put id c }).map
        fun _ => .nothing
    | none => .pure (.misuse .noSuchId) s
  | .poll id w => s.poll id w
  | .drop id =>
    match s.waits.get? id with
    | some held =>
      let s' := { s with waits := s.waits.erase id }
      (s'.onSignal (AutoReset.drop held.wait s.signal)).map fun _ => .nothing
    | none => .pure (.misuse .noSuchId) s
  | .debug id =>
    match s.waits.get? id with
    | some (.plain wait) => .pure (.text (Facilities.debugWait s.signal wait)) s
    | some (.cancellable _) => .pure (.misuse .mode) s
    | none => .pure (.misuse .noSuchId) s
  | .newKey id =>
    s.offered (Facilities.pollKey? (σ := σ)) .noSuchId fun _ =>
      .pure .nothing { s with keys := s.keys.put id .fresh }
  | .pollKey id w =>
    s.offered (Facilities.pollKey? (σ := σ)) .noSuchId fun pollKey =>
      s.offered (s.keys.get? id) .noSuchId fun key =>
        (s.onSignal (pollKey w key s.signal)).andThen fun r s =>
          .pure (if r.1 then .ready else .pending) { s with keys := s.keys.put id r.2 }
  | .cancelKey id =>
    s.offered (Facilities.cancelKey? (σ := σ)) .noSuchId fun cancelKey =>
      s.offered (s.keys.get? id) .noSuchId fun key =>
        let s' := { s with keys := s.keys.put id .fresh }
        (s'.onSignal (cancelKey key s.signal)).map fun _ => .nothing
  | .keyInfo id =>
    s.offered (s.keys.get? id) .noSuchId fun key =>
      .pure (.key key.isRegistered key.debug) s
  | .waiters =>
    s.offered (Facilities.waiters? (σ := σ)) .mode fun waiters =>
      .pure (.count (waiters s.signal)) s
  | .isSet =>
    s.offered (Facilities.isSet? (σ := σ)) .mode fun isSet =>
      .pure (.truth (isSet s.signal)) s
  | .expire =>
    s.offered (Facilities.expire? (σ := σ)) .mode fun expire =>
      (s.onSignal (expire s.signal)).map .truth
  | .pastDeadline =>
    s.offered (Facilities.pastDeadline? (σ := σ)) .mode fun expire =>
      (s.onSignal (expire s.signal)).map .truth
  | .block id =>
    s.offered (Facilities.block? (σ := σ)) .mode fun block =>
      if s.blocked.contains id then .pure (.misuse .busy) s
      else
        (s.onSignal (block id s.signal)).andThen fun released s =>
          if released then .pure .released s
          else .pure .started { s with blocked := s.blocked ++ [id] }
  | .timeUp id =>
    s.offered (Facilities.timeUp? (σ := σ)) .mode fun timeUp =>
      if s.blocked.contains id then
        (s.onSignal (timeUp id s.signal)).andThen fun released s =>
          .pure (.truth released) { s with blocked := s.blocked.erase id }
      else .pure (.misuse .noSuchId) s
  | .unknown => .pure (.misuse .noSuchOp) s

/-- Lets roused threads run; the answer is who returned, by name. -/
def settle (s : Session σ ω) : Outcome (List Thread) (Session σ ω) :=
  (s.onSignal (Facilities.settle s.signal)).andThen fun returned s =>
    .pure (returned.mergeSort fun a b => decide (a ≤ b))
      { s with blocked := s.blocked.filter fun t => ¬ returned.contains t }

/-- A request and everything that follows from it at once: its reply, and the threads that
    returned. -/
def step (s : Session σ ω) (r : Request) : Outcome (Reply × List Thread) (Session σ ω) :=
  (s.request r).andThen fun reply s => s.settle.map fun returned => (reply, returned)

def run (s : Session σ ω) : List Request → List (Outcome (Reply × List Thread) (Session σ ω))
  | [] => []
  | r :: rs => let o := s.step r; o :: run o.state rs

end Session

end Conduit.Signal

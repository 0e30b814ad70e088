/-
  Conduit/Proofs/Lease/Tenancy.lean
  =================================
  **A slot, who has what of it, and what was done with it.**

  Leases of a slot are numbered by how often the slot had been recycled when they began.
  A tenancy is a slot with the books on it: the completers that are alive, clones
  included, the futures that still hold the slot, the continuations that wait with the
  spawner, and those that run.  Any of them may act at any time, so that a history is
  any sequence of events: between the start of a continuation and its end everything
  else may happen, what the continuation itself asks for as well.  An operation on a
  handle that nobody has is none.

  A log notes of every event to which lease it belongs and what could be seen of it;
  the account of a lease is drawn from the log alone.
-/
import Conduit.Lease.Slot

namespace Conduit.Lease

/-! ### Handles and books -/

/-- The right of a completer: the number of its lease, and the generation that it shows. -/
structure Pass where
  lease : Nat
  generation : UInt32
deriving DecidableEq, Repr

/-- A continuation and the outcome that it is to be given. -/
structure Due (α κ : Type) where
  lease : Nat
  continuation : κ
  verdict : Verdict α

/-- Who has what of a slot that was recycled `turn` times. -/
structure Books (α κ : Type) where
  turn : Nat
  completers : List Pass
  futures : List Nat
  waiting : List (Due α κ)
  running : List (Due α κ)

structure Tenancy (α κ : Type) extends Books α κ where
  slot : Slot α κ

/-- What the holders of a lease can do: complete it with a value or a failure, clone and drop
    completers and ask them; poll the future, ask it for the outcome, leave a continuation and
    drop it; start a waiting continuation, end it in order or by a panic, and throw it away
    unrun. -/
inductive Act (α κ : Type)
  | complete (v : Verdict α)
  | clone
  | drop
  | isSettled
  | poll (w : Waker)
  | tryResult
  | register (k : κ)
  | detach
  | start
  | finish
  | fail
  | discard

/-- A new lease, or an act of a holder of the lease of that number. -/
inductive Event (α κ : Type)
  | lease
  | act (lease : Nat) (a : Act α κ)

/-- What an event is answered with; `absent` means that nobody has such a handle. -/
inductive Answer (α : Type)
  | absent
  | nothing
  | accepted
  | rejected (e : DoubleCompletion α)
  | pending
  | verdict (v : Verdict α)
  | truth (b : Bool)
  | panic (p : Panic)

/-- What an event leads to: its answer, the continuation that began to run in it, and whether the
    slot was recycled in it. -/
structure Receipt (α κ : Type) where
  answer : Answer α
  begun : Option (Due α κ)
  recycled : Bool

/-- How many of these completers belong to a lease. -/
def liveIn (lease : Nat) (cs : List Pass) : Nat := cs.countP fun c => c.lease = lease

namespace Books

variable {α κ : Type}

def new : Books α κ := ⟨0, [], [], [], []⟩

/-- How many completers of a lease are alive. -/
def live (b : Books α κ) (lease : Nat) : Nat := liveIn lease b.completers

/-- Hands out the two handles of a new lease. -/
def sign (b : Books α κ) (generation : UInt32) : Books α κ :=
  { b with completers := ⟨b.turn, generation⟩ :: b.completers, futures := b.turn :: b.futures }

end Books

namespace Tenancy

variable {α κ : Type}

/-- A slot that nobody has leased yet. -/
def new (home : Home) (deferred : Bool) (observer : Observer) : Tenancy α κ :=
  { Books.new with slot := .new home deferred observer }

/-! ### Events -/

abbrev Step (α κ : Type) := Outcome (Receipt α κ) (Tenancy α κ)

def reply (t : Tenancy α κ) (a : Answer α) : Step α κ := .pure ⟨a, none, false⟩ t

/-- Puts an operation on the slot into the tenancy. -/
def onSlot {β : Type} (t : Tenancy α κ) (o : Outcome β (Slot α κ)) : Outcome β (Tenancy α κ) :=
  o.lift fun s => { t with slot := s }

/-- The recycled slot goes home, and the turn is over. -/
def goHome (t : Tenancy α κ) (a : Answer α) : Step α κ :=
  ⟨⟨a, none, true⟩, { t with turn := t.turn + 1 }, t.slot.homecoming⟩

/-- A continuation begins to run. -/
def begin (t : Tenancy α κ) (a : Answer α) (job : Due α κ) : Step α κ :=
  .pure ⟨a, some job, false⟩ { t with running := job :: t.running }

/-- Goes on after an operation on the slot.  A continuation that a completion found goes to the
    spawner if there is one; one that found its outcome begins at once. -/
def follow (t : Tenancy α κ) (a : Answer α) (mayDefer : Bool) : Sequel α κ → Step α κ
  | .nothing => t.reply a
  | .home => t.goHome a
  | .resume k v =>
    if mayDefer ∧ t.slot.deferred then
      Tenancy.reply { t with waiting := ⟨t.turn, k, v⟩ :: t.waiting } a
    else t.begin a ⟨t.turn, k, v⟩

/-- A future has taken its outcome and lets go of the slot, or it waits on. -/
def received (t : Tenancy α κ) (lease : Nat) (waiting : Answer α) :
    Option (Verdict α) → Step α κ
  | none => t.reply waiting
  | some v => goHome { t with futures := t.futures.erase lease } (.verdict v)

def withCompleter (t : Tenancy α κ) (lease : Nat) (use : Pass → Step α κ) : Step α κ :=
  match t.completers.find? fun c => c.lease = lease with
  | some c => use c
  | none => t.reply .absent

def withFuture (t : Tenancy α κ) (lease : Nat) (use : Step α κ) : Step α κ :=
  if lease ∈ t.futures then use else t.reply .absent

def withDue (t : Tenancy α κ) (jobs : List (Due α κ)) (lease : Nat) (use : Due α κ → Step α κ) :
    Step α κ :=
  match jobs.find? fun j => j.lease = lease with
  | some j => use j
  | none => t.reply .absent

/-- One event.  A handle is whichever the lease has first; those of one lease are alike. -/
def step (t : Tenancy α κ) : Event α κ → Step α κ
  | .lease =>
    (t.onSlot t.slot.lease).andThen fun
      | .ok generation, t => Tenancy.reply { t with toBooks := t.toBooks.sign generation } .nothing
      | .error p, t => t.reply (.panic p)
  | .act lease (.complete v) =>
    t.withCompleter lease fun c =>
      (t.onSlot (t.slot.complete c.generation v)).andThen fun
        | .ok next, t => t.follow .accepted true next
        | .error e, t => t.reply (.rejected e)
  | .act lease .clone =>
    t.withCompleter lease fun c =>
      (t.onSlot (t.slot.enlist c.generation 1)).andThen fun
        | .ok (), t => Tenancy.reply { t with completers := c :: t.completers } .nothing
        | .error p, t => t.reply (.panic p)
  | .act lease .drop =>
    t.withCompleter lease fun c =>
      (onSlot { t with completers := t.completers.erase c } (t.slot.dismiss c.generation)).andThen
        fun next t => t.follow .nothing true next
  | .act lease .isSettled =>
    t.withCompleter lease fun c => t.reply (.truth (t.slot.isSettled c.generation))
  | .act lease (.poll w) =>
    t.withFuture lease
      ((t.onSlot (t.slot.poll w)).andThen fun v t => t.received lease .pending v)
  | .act lease .tryResult =>
    t.withFuture lease ((t.onSlot t.slot.take).andThen fun v t => t.received lease .nothing v)
  | .act lease (.register k) =>
    t.withFuture lease
      ((onSlot { t with futures := t.futures.erase lease } (t.slot.register k)).andThen
        fun next t => t.follow .nothing false next)
  | .act lease .detach =>
    t.withFuture lease
      ((onSlot { t with futures := t.futures.erase lease } t.slot.detach).andThen
        fun next t => t.follow .nothing false next)
  | .act lease .start =>
    t.withDue t.waiting lease fun j =>
      begin { t with waiting := t.waiting.eraseP fun j => j.lease = lease } .nothing j
  | .act lease .finish =>
    t.withDue t.running lease fun _ =>
      goHome
        { t with running := t.running.eraseP (fun j => j.lease = lease), slot := t.slot.recycle }
        .nothing
  | .act lease .fail =>
    t.withDue t.running lease fun _ =>
      Tenancy.reply { t with running := t.running.eraseP fun j => j.lease = lease }
        (.panic .continuationFailed)
  | .act lease .discard =>
    t.withDue t.waiting lease fun _ =>
      Tenancy.reply { t with waiting := t.waiting.eraseP fun j => j.lease = lease } .nothing

/-- The tenancy after a history. -/
def after (t : Tenancy α κ) : List (Event α κ) → Tenancy α κ
  | [] => t
  | e :: es => after (t.step e).state es

end Tenancy

/-! ### Handles in time -/

/-- Whether it takes a completer. -/
def Act.ofCompleter {α κ : Type} : Act α κ → Bool
  | .complete _ | .clone | .drop | .isSettled => true
  | _ => false

namespace Tenancy

variable {α κ : Type}

/-- A completer is used before its slot has been recycled 2^32 times since its lease began.  While
    the lease lasts the slot has not been recycled at all. -/
def InTime (t : Tenancy α κ) : Event α κ → Prop
  | .lease => True
  | .act lease a => a.ofCompleter = true → t.turn < lease + 4294967296

instance (t : Tenancy α κ) : (e : Event α κ) → Decidable (t.InTime e)
  | .lease => inferInstanceAs (Decidable True)
  | .act _ a => inferInstanceAs (Decidable (a.ofCompleter = true → _))

/-- Every completer in a history is used in time. -/
def Timely (t : Tenancy α κ) : List (Event α κ) → Prop
  | [] => True
  | e :: es => t.InTime e ∧ Timely (t.step e).state es

instance decidableTimely (t : Tenancy α κ) : (es : List (Event α κ)) → Decidable (t.Timely es)
  | [] => inferInstanceAs (Decidable True)
  | e :: es =>
    have := decidableTimely (t.step e).state es
    inferInstanceAs (Decidable (t.InTime e ∧ _))

end Tenancy

/-! ### Logs and accounts -/

/-- What is noted of an event: the lease that it belongs to, the act unless it began the lease,
    what it led to, and how many completers of the lease are left. -/
structure Entry (α κ : Type) where
  lease : Nat
  act : Option (Act α κ)
  receipt : Receipt α κ
  effects : List Effect
  left : Nat

namespace Tenancy

variable {α κ : Type}

def entry (t : Tenancy α κ) (e : Event α κ) : Entry α κ :=
  let o := t.step e
  match e with
  | .lease => ⟨t.turn, none, o.answer, o.effects, o.state.live t.turn⟩
  | .act lease a => ⟨lease, some a, o.answer, o.effects, o.state.live lease⟩

/-- What is noted of a history. -/
def log (t : Tenancy α κ) : List (Event α κ) → List (Entry α κ)
  | [] => []
  | e :: es => t.entry e :: log (t.step e).state es

end Tenancy

/-- The account of a lease, each list in order: how often it began; the outcomes that were to
    become its outcome, those that were accepted and those that its consumer was given; the
    continuations that were left for it, those that ran and those that were thrown away unrun;
    how often its consumer was done and its slot recycled; the wakers of polls that were left
    pending, and those that were woken. -/
structure Account (α κ : Type) where
  signed : Nat := 0
  attempts : List (Verdict α) := []
  accepted : List (Verdict α) := []
  delivered : List (Verdict α) := []
  registered : List κ := []
  runs : List (κ × Verdict α) := []
  discarded : Nat := 0
  released : Nat := 0
  recycled : Nat := 0
  polled : List Waker := []
  woken : List Waker := []

namespace Account

variable {α κ : Type}

def blank : Account α κ := {}

def add (a b : Account α κ) : Account α κ :=
  { signed := a.signed + b.signed
    attempts := a.attempts ++ b.attempts
    accepted := a.accepted ++ b.accepted
    delivered := a.delivered ++ b.delivered
    registered := a.registered ++ b.registered
    runs := a.runs ++ b.runs
    discarded := a.discarded + b.discarded
    released := a.released + b.released
    recycled := a.recycled + b.recycled
    polled := a.polled ++ b.polled
    woken := a.woken ++ b.woken }

end Account

namespace Entry

variable {α κ : Type}

/-- The outcome that a completion offers, and that of the last completer which goes away. -/
def attempt? (e : Entry α κ) : Option (Verdict α) :=
  match e.act, e.receipt.answer with
  | _, .absent => none
  | some (.complete v), _ => some v
  | some .drop, _ => if e.left = 0 then some (.error .abandoned) else none
  | _, _ => none

def abandons (e : Entry α κ) : Bool :=
  e.effects.any fun
    | .reported _ .futureAbandoned => true
    | _ => false

/-- The outcome that a completion was accepted with, or an abandonment that was reported. -/
def accepted? (e : Entry α κ) : Option (Verdict α) :=
  match e.act, e.receipt.answer with
  | some (.complete v), .accepted => some v
  | some .drop, _ => if e.abandons then some (.error .abandoned) else none
  | _, _ => none

/-- The outcome that a future handed out or a continuation was given. -/
def delivered? (e : Entry α κ) : Option (Verdict α) :=
  match e.receipt.answer with
  | .verdict v => some v
  | _ => e.receipt.begun.map Due.verdict

def registered? (e : Entry α κ) : Option κ :=
  match e.act, e.receipt.answer with
  | _, .absent => none
  | some (.register k), _ => some k
  | _, _ => none

/-- Whether the consumer is done: it has taken the outcome, its continuation has returned, or it
    has gone away. -/
def releases (e : Entry α κ) : Bool :=
  match e.act, e.receipt.answer with
  | _, .absent => false
  | _, .verdict _ => true
  | some .finish, _ | some .detach, _ => true
  | _, _ => false

def discards (e : Entry α κ) : Bool :=
  match e.act, e.receipt.answer with
  | _, .absent => false
  | some .discard, _ => true
  | _, _ => false

def signs (e : Entry α κ) : Bool :=
  match e.act, e.receipt.answer with
  | none, .nothing => true
  | _, _ => false

def polled? (e : Entry α κ) : Option Waker :=
  match e.act, e.receipt.answer with
  | some (.poll w), .pending => some w
  | _, _ => none

/-- What an entry adds to the account of its lease. -/
def share (e : Entry α κ) : Account α κ :=
  { signed := e.signs.toNat
    attempts := e.attempt?.toList
    accepted := e.accepted?.toList
    delivered := e.delivered?.toList
    registered := e.registered?.toList
    runs := e.receipt.begun.toList.map fun j => (j.continuation, j.verdict)
    discarded := e.discards.toNat
    released := e.releases.toNat
    recycled := e.receipt.recycled.toNat
    polled := e.polled?.toList
    woken := Effect.wakes e.effects }

end Entry

/-- The account of the lease of a number. -/
def account {α κ : Type} (lease : Nat) : List (Entry α κ) → Account α κ
  | [] => .blank
  | e :: es => if e.lease = lease then e.share.add (account lease es) else account lease es

end Conduit.Lease

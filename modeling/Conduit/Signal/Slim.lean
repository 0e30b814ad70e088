/-
  Conduit/Signal/Slim.lean
  ========================
  **An auto-reset signal in a single word.**

  The word holds a bit, the number of releases *owed* beyond it (31 bits), and the
  number of registered waiters (32 bits, on top).  Setting the signal raises the bit
  and wakes one waiter; if the bit is up already, a release is owed as long as there
  is a waiter for it.  Whoever takes the signal while a release is owed leaves the bit
  up and wakes the next waiter.  A waiter that leaves takes care that no more is owed
  than there are waiters.

  Tasks register under a key and are woken in order of registration.  Threads sleep
  and are roused in order of arrival, after the tasks; a roused thread tries for the
  signal and sleeps again if there is none.
-/
import Conduit.Outcome
import Conduit.Text.Record

namespace Conduit.Signal

/-! ### The word -/

/-- The bit, the releases owed and the registered waiters in one 64-bit word. -/
structure Word where
  bits : UInt64
deriving DecidableEq, Repr

namespace Word

def signaled (w : Word) : Bool := w.bits % 2 == 1

/-- The 31 bits above it. -/
def owed (w : Word) : UInt64 := w.bits / 2 % 2147483648

/-- The upper half. -/
def waiters (w : Word) : UInt64 := w.bits / 4294967296

def pack (waiters owed : UInt64) (signaled : Bool) : Word :=
  ⟨waiters * 4294967296 + owed * 2 + if signaled then 1 else 0⟩

/-- What an attempt to take the signal finds: nothing, the bit alone, or a release owed beyond
    it. -/
inductive Take
  | empty
  | cleared
  | owed
deriving DecidableEq, Repr

/-- Takes the signal: the release owed if there is one, else the bit. -/
def take (w : Word) : Take × Word :=
  if w.signaled then
    if 0 < w.owed then (.owed, ⟨w.bits - 2⟩) else (.cleared, ⟨w.bits - 1⟩)
  else (.empty, w)

/-- Raises the bit, or owes a release if it is up and there is a waiter to owe it to. -/
def set (w : Word) : Word :=
  if ¬ w.signaled then ⟨w.bits + 1⟩
  else if w.owed < w.waiters then ⟨w.bits + 2⟩
  else w

def enter (w : Word) : Word := ⟨w.bits + 4294967296⟩

/-- One waiter less, and no more owed than there are waiters. -/
def leave (w : Word) : Word :=
  let waiters := w.waiters - 1
  pack waiters (min w.owed waiters) w.signaled

end Word

/-! ### The signal -/

/-- One registration of a task, kept by whoever made it. -/
structure WaitKey where
  id : Option UInt64
deriving DecidableEq, Repr

def WaitKey.fresh : WaitKey := ⟨none⟩

def WaitKey.isRegistered (k : WaitKey) : Bool := k.id.isSome

def WaitKey.debug (k : WaitKey) : String :=
  match k.id with
  | some id => "WaitKey(Some(" ++ toString id ++ "))"
  | none => "WaitKey(None)"

/-- The signal: its word, the registered tasks that have not been woken, the threads asleep in
    it, and the threads that were roused and have not run yet. -/
structure Slim where
  word : Word
  nextKey : UInt64
  tasks : List (UInt64 × Waker)
  asleep : List Thread
  roused : List Thread
  observer : Observer
deriving DecidableEq, Repr

namespace Slim

/-- An unset signal that reports withdrawn waits to an observer. -/
def new (observer : Observer) : Slim := ⟨⟨0⟩, 0, [], [], [], observer⟩

/-- Wakes the first task, or rouses the first thread if there is none. -/
def wakeOne (s : Slim) : Outcome Unit Slim :=
  match s.tasks, s.asleep with
  | (_, w) :: tasks, _ => ⟨(), { s with tasks := tasks }, [.woken w]⟩
  | [], t :: asleep => .pure () { s with asleep := asleep, roused := s.roused ++ [t] }
  | [], [] => .pure () s

/-- Releases one waiter, or banks the signal.  Only a bit that goes up wakes anybody. -/
def set (s : Slim) : Outcome Unit Slim :=
  let s' := { s with word := s.word.set }
  if ¬ s.word.signaled ∧ 0 < s.word.waiters then s'.wakeOne else .pure () s'

/-- Takes the signal if it is set; if a release was owed, the next waiter is woken for the bit
    that stays up. -/
def tryWait (s : Slim) : Outcome Bool Slim :=
  match s.word.take with
  | (.empty, _) => .pure false s
  | (.cleared, word) => .pure true { s with word := word }
  | (.owed, word) => (wakeOne { s with word := word }).map fun _ => true

def isSet (s : Slim) : Bool := s.word.signaled

/-- Gives up a registration.  A task that was woken already lets the next waiter be woken if the
    signal is still set.  The answer is whether the key was registered. -/
def withdraw (key : WaitKey) (s : Slim) : Outcome Bool Slim :=
  match key.id with
  | none => .pure false s
  | some id =>
    let queued := s.tasks.any fun t => t.1 == id
    let s' := { s with tasks := s.tasks.eraseP fun t => t.1 == id, word := s.word.leave }
    if ¬ queued ∧ s.word.signaled then s'.wakeOne.map fun _ => true else .pure true s'

/-- Registers a key with a waker.  A key that is registered gets its waker renewed, and is queued
    again if it was woken for a signal that somebody else took. -/
def register (w : Waker) (key : WaitKey) (s : Slim) : Outcome WaitKey Slim :=
  match key.id with
  | none =>
    .pure ⟨some s.nextKey⟩
      { s with
        nextKey := s.nextKey + 1
        tasks := s.tasks ++ [(s.nextKey, w)]
        word := s.word.enter }
  | some id =>
    if s.tasks.any fun t => t.1 == id then
      .pure key { s with tasks := s.tasks.map fun t => if t.1 == id then (id, w) else t }
    else
      .pure key { s with tasks := s.tasks ++ [(id, w)] }

/-- Polls for the signal under a key: whether it was taken, and the key from then on. -/
def pollWait (w : Waker) (key : WaitKey) (s : Slim) : Outcome (Bool × WaitKey) Slim :=
  s.tryWait.andThen fun got s =>
    if got then (s.withdraw key).map fun _ => (true, .fresh)
    else (s.register w key).map fun key => (false, key)

/-- Gives up a registration and reports it. -/
def cancelWait (key : WaitKey) (s : Slim) : Outcome Unit Slim :=
  (s.withdraw key).andThen fun was s =>
    ⟨(), s, if was then [.reported s.observer .waitCancelled] else []⟩

/-! ### Threads -/

/-- Puts a thread to sleep, unless the signal is set. -/
def block (t : Thread) (s : Slim) : Outcome Bool Slim :=
  s.tryWait.andThen fun got s =>
    if got then .pure true s
    else .pure false { s with word := s.word.enter, asleep := s.asleep ++ [t] }

/-- A wait of a thread whose time is over at once: it registers, finds nothing, and leaves. -/
def expire (s : Slim) : Outcome Bool Slim :=
  s.tryWait.andThen fun got s =>
    if got then .pure true s
    else
      ⟨false, { s with word := s.word.enter.leave }, [.reported s.observer .waitCancelled]⟩

/-- The time of a sleeping thread is over: it tries for the signal once more and leaves.  The
    answer is whether it got it. -/
def timeUp (t : Thread) (s : Slim) : Outcome Bool Slim :=
  (tryWait { s with asleep := s.asleep.erase t }).andThen fun got s =>
    ⟨got, { s with word := s.word.leave },
      if got then [] else [.reported s.observer .waitCancelled]⟩

/-- Lets the thread that was roused first try for the signal.  If it gets it, it leaves and is
    the answer; else it sleeps again, behind the others. -/
def resume (s : Slim) : Outcome (Option Thread) Slim :=
  match s.roused with
  | [] => .pure none s
  | t :: roused =>
    (tryWait { s with roused := roused }).andThen fun got s =>
      if got then .pure (some t) { s with word := s.word.leave }
      else .pure none { s with asleep := s.asleep ++ [t] }

/-- Lets roused threads run, one after another; the answer is who returned. -/
def runRoused : Nat → Slim → Outcome (List Thread) Slim
  | 0, s => .pure [] s
  | fuel + 1, s =>
    if s.roused.isEmpty then .pure [] s
    else
      s.resume.andThen fun t s => (runRoused fuel s).map fun ts => t.toList ++ ts

/-- Lets roused threads run until none is left.  Each run takes a thread off, or takes it from
    the roused ones to those asleep, so their number bounds the runs. -/
def settle (s : Slim) : Outcome (List Thread) Slim :=
  s.runRoused (2 * s.asleep.length + 3 * s.roused.length)

/-! ### Views -/

/-- Releases that are not consumed yet: the bit, and what is owed beyond it. -/
def pendingReleases (s : Slim) : Nat := s.word.signaled.toNat + s.word.owed.toNat

/-- Waits that have registered and are neither resolved nor withdrawn. -/
def registeredWaits (s : Slim) : Nat := s.word.waiters.toNat

def debug (s : Slim) : String :=
  Text.record "SlimSignal"
    [("signaled", Text.truth s.word.signaled), ("owed", toString s.word.owed),
     ("waiters", toString s.word.waiters)]

/-- One wait: the key it polls with. -/
structure Wait where
  key : WaitKey
deriving DecidableEq, Repr

def Wait.debug (s : Slim) (wait : Wait) : String :=
  Text.record "SlimWait" [("signal", s.debug), ("key", wait.key.debug)]

end Slim

end Conduit.Signal

/-
  Conduit/Proofs/Ring/Ways.lean
  =============================
  **The ways to write a buffer, and to read.**

  A buffer is committed in one blocking call, in blocking partial writes one after another,
  in one polled write, or in polled partial writes.  Bytes are read in a blocking call, of
  which there are two, in one polled read, or in polls of the handle.  A blocked call goes
  on when its thread is roused; a task polls again each time the other end has done
  something, or only once its waker was called.

  A course is such a write or read with the ring it runs on.  It makes the requests that its
  way makes, hears the answers, and shows after each request of the other end how far it
  has come.
-/
import Conduit.Proofs.Ring.Wakeups

namespace Conduit.Ring

open Session (Returned)
open Signal (Slim WaitKey)

/-! ### Waiting -/

/-- When a task that waits polls again: each time the other end has done something, or only once
    its waker was called. -/
inductive Pace
  | always
  | whenWoken
deriving DecidableEq, Repr

def Pace.isDue : Pace → Option Watch → Bool
  | .always, _ => true
  | .whenWoken, note => note.any (·.woken)

theorem sleeps_of_tasks {signal : Slim} {t : UInt64 × Waker} (h : signal.tasks = [t]) :
    Sleeps signal := Session.sleeps_of_mem (h ▸ List.mem_singleton_self t)

/-- A task that is not to poll again sleeps in its signal. -/
theorem Pace.undue_sleeps {pace : Pace} {key : WaitKey} {k : UInt64} {signal : Slim}
    {note : Option Watch} (hnoted : Session.Noted key signal note) (hkey : key = ⟨some k⟩)
    (hundue : pace.isDue note = false) : Sleeps signal := by
  obtain ⟨x, rfl, hwoken | hmem⟩ := hnoted k hkey
  · cases pace with
    | always => cases hundue
    | whenWoken =>
      rw [isDue, Option.any_some, hwoken] at hundue
      cases hundue
  · exact Session.sleeps_of_mem hmem

/-! ### Calls that return later -/

/-- The results of one end's calls among those that returned. -/
def resultsOf (side : Side) (returned : Returned) : List Reply :=
  returned.filterMap fun x => if x.1 = side then some x.2 else none

/-- Each end is told of its own call that returned. -/
theorem Session.results_settle (s : Session) :
    resultsOf .reader s.settle.answer = s.settleReader.answer.toList ∧
      resultsOf .writer s.settle.answer = s.settleReader.state.settleWriter.answer.toList := by
  simp only [settle, Outcome.andThen_answer, Outcome.map_answer, resultsOf, List.filterMap_append]
  cases s.settleReader.answer with
  | none =>
    cases s.settleReader.state.settleWriter.answer with
    | none => exact ⟨rfl, rfl⟩
    | some w => exact ⟨rfl, rfl⟩
  | some r =>
    cases s.settleReader.state.settleWriter.answer with
    | none => exact ⟨rfl, rfl⟩
    | some w => exact ⟨rfl, rfl⟩

/-- A call that goes on and sleeps again is as one that returns nothing to be heard. -/
theorem hear_resumed {α : Type} {hear : α → Reply → α} {a : α} (hstarted : hear a .started = a)
    (r : Reply) :
    (if r = .started then none else some r).toList.foldl hear a = hear a r := by
  by_cases hr : r = .started
  · rw [if_pos hr, hr, hstarted]
    rfl
  · rw [if_neg hr]
    rfl

namespace Session

variable {s : Session}

theorem settle_rested (rested : s.Rested) : s.settle = .pure [] s := by
  rw [settle, settleReader_rested rested.data, Outcome.pure_andThen,
    settleWriter_rested rested.space]
  rfl

theorem settleWriter_reader (s : Session) : s.settleWriter.state.reader = s.reader := by
  rw [settleWriter]
  split
  · rename_i mode data written hasleep
    split
    · rfl
    · generalize resumeWrite mode data (s.channel, written) = o
      obtain ⟨r | _, st, effects⟩ := o
      · rfl
      · rfl
  · rfl

end Session

/-! ### Writes -/

/-- One blocking call, blocking partial writes, one polled write, or polled partial writes. -/
inductive WriteWay
  | call
  | parts
  | future (pace : Pace) (w : Waker)
  | polls (pace : Pace) (w : Waker)
deriving DecidableEq, Repr

/-- How a write stands: a request is to be made, it waits for room, all bytes are committed, or
    the reader is gone. -/
inductive Standing
  | asking
  | waiting
  | complete
  | failed
deriving DecidableEq, Repr

/-- What the answers say of a write: how many bytes they reported, and how it stands. -/
structure Account where
  reported : Nat
  standing : Standing
deriving DecidableEq, Repr

/-- Takes an answer into account, when a buffer of `total` bytes is written. -/
def Account.hear (total : Nat) (a : Account) : Reply → Account
  | .done => ⟨total, .complete⟩
  | .count n =>
    ⟨a.reported + n, if total ≤ a.reported + n then .complete else .asking⟩
  | .closed e | .brokenPipe e => ⟨a.reported + e.written, .failed⟩
  | .pending | .started => ⟨a.reported, .waiting⟩
  | _ => a

/-- The bytes that a write under way has committed and not yet reported. -/
def WriterEnd.inHand : WriterEnd → Nat
  | .writing _ _ written | .asleep _ _ written => written
  | _ => 0

namespace WriteWay

/-- The request that changes the writer's handle into the kind that is needed. -/
def convert : WriteWay → WriterEnd → Option WriterRequest
  | .call, .polled _ | .parts, .polled _ => some .toBlocking
  | .future _ _, .blocking | .polls _ _, .blocking => some .toPolled
  | _, _ => none

/-- The request that starts a write or takes it further. -/
def next (way : WriteWay) (data : List UInt8) (e : WriterEnd) (reported : Nat) : WriterRequest :=
  match way, e with
  | .call, _ => .write data 0 false
  | .parts, _ => .writeOnce (data.drop reported)
  | .future _ w, .writing _ _ _ => .poll w
  | .future _ w, _ => .write data w false
  | .polls _ w, _ => .pollWrite (data.drop reported) w

/-- Whether a write that waits is to be polled again. -/
def isDue : WriteWay → Option Watch → Bool
  | .call, _ | .parts, _ => false
  | .future pace _, note | .polls pace _, note => pace.isDue note

end WriteWay

/-- A write in its course: the ring, what is noted of pending polls, and what was answered. -/
structure WriteCourse where
  session : Session
  seen : Watches
  account : Account

/-- What is seen of a write from the outside. -/
structure WriteSight where
  committed : Nat
  standing : Standing
  store : Store
deriving DecidableEq, Repr

namespace WriteCourse

variable (way : WriteWay) (data : List UInt8)

/-- Makes a request and hears what the writer is answered. -/
def request (c : WriteCourse) (r : Request) : WriteCourse :=
  let o := c.session.advance r
  let results := resultsOf .writer o.answer.2
  let answers := match r with
    | .writer _ => o.answer.1 :: results
    | _ => results
  ⟨o.state, c.session.watching [r] c.seen, answers.foldl (Account.hear data.length) c.account⟩

/-- Makes requests as long as there is one to make. -/
def ask : Nat → WriteCourse → WriteCourse
  | 0, c => c
  | bound + 1, c =>
    if c.account.standing = .asking then
      ask bound (c.request data
        (.writer (way.next data c.session.writer c.account.reported)))
    else c

/-- Polls again if that is due, and makes requests until the write waits or is over. -/
def carryOn (c : WriteCourse) : WriteCourse :=
  let due := c.account.standing = .waiting ∧ way.isDue c.seen.writer
  let c := if due then { c with account := ⟨c.account.reported, .asking⟩ } else c
  c.ask way data (data.length - c.account.reported + 1)

/-- A write that has not asked for anything yet but the handle that it needs. -/
def prepare (s : Session) (seen : Watches) : WriteCourse :=
  let c : WriteCourse := ⟨s, seen, ⟨0, .asking⟩⟩
  match way.convert s.writer with
  | some r => c.request data (.writer r)
  | none => c

/-- Starts to write a buffer, and carries on as far as it goes at once: the reader may have gone
    on meanwhile, and made room. -/
def start (s : Session) (seen : Watches) : WriteCourse :=
  ((prepare way data s seen).carryOn way data).carryOn way data

/-- The reader makes a request, and the write carries on as far as it goes. -/
def step (c : WriteCourse) (r : ReaderRequest) : WriteCourse :=
  (c.request data (.reader r)).carryOn way data

def sight (c : WriteCourse) : WriteSight :=
  ⟨c.account.reported + c.session.writer.inHand, c.account.standing, c.session.channel.store⟩

/-- What is seen at first, and after each request of the reader. -/
def sights (c : WriteCourse) : List ReaderRequest → List WriteSight
  | [] => [c.sight]
  | r :: rs => c.sight :: sights (c.step way data r) rs

end WriteCourse

/-! ### Reads -/

/-- One blocking call of either kind, one polled read, or polls of the handle. -/
inductive ReadWay
  | call
  | once
  | future (pace : Pace) (w : Waker)
  | polls (pace : Pace) (w : Waker)
deriving DecidableEq, Repr

namespace ReadWay

/-- The request that changes the reader's handle into the kind that is needed. -/
def convert : ReadWay → ReaderEnd → Option ReaderRequest
  | .call, .polled _ | .once, .polled _ => some .toBlocking
  | .future _ _, .blocking | .polls _ _, .blocking => some .toPolled
  | _, _ => none

/-- The request that starts a read or takes it further. -/
def next (way : ReadWay) (limit : Nat) (e : ReaderEnd) : ReaderRequest :=
  match way, e with
  | .call, _ => .read limit 0 false
  | .once, _ => .readOnce limit
  | .future _ w, .reading _ _ => .poll w
  | .future _ w, _ => .read limit w false
  | .polls _ w, _ => .pollRead limit w

/-- Whether a read that waits is to be polled again. -/
def isDue : ReadWay → Option Watch → Bool
  | .call, _ | .once, _ => false
  | .future pace _, note | .polls pace _, note => pace.isDue note

end ReadWay

/-- Takes an answer into account: the bytes that a read got. -/
def hearBytes (got : Option (List UInt8)) : Reply → Option (List UInt8)
  | .got bytes => some bytes
  | _ => got

/-- A read in its course: the ring, what is noted of pending polls, and the bytes once it is
    over. -/
structure ReadCourse where
  session : Session
  seen : Watches
  got : Option (List UInt8)

/-- What is seen of a read from the outside. -/
structure ReadSight where
  got : Option (List UInt8)
  store : Store
deriving DecidableEq, Repr

namespace ReadCourse

variable (way : ReadWay) (limit : Nat)

/-- Makes a request and hears what the reader is answered. -/
def request (c : ReadCourse) (r : Request) : ReadCourse :=
  let o := c.session.advance r
  let results := resultsOf .reader o.answer.2
  let answers := match r with
    | .reader _ => o.answer.1 :: results
    | _ => results
  ⟨o.state, c.session.watching [r] c.seen, answers.foldl hearBytes c.got⟩

/-- Polls again if that is due. -/
def carryOn (c : ReadCourse) : ReadCourse :=
  if c.got = none ∧ way.isDue c.seen.reader then
    c.request (.reader (way.next limit c.session.reader))
  else c

/-- A read that has not asked for anything yet but the handle that it needs. -/
def prepare (s : Session) (seen : Watches) : ReadCourse :=
  let c : ReadCourse := ⟨s, seen, none⟩
  match way.convert s.reader with
  | some r => c.request (.reader r)
  | none => c

/-- Starts to read, and carries on as far as it goes at once. -/
def start (s : Session) (seen : Watches) : ReadCourse :=
  let c := prepare way s seen
  (c.request (.reader (way.next limit c.session.reader))).carryOn way limit

/-- The writer makes a request, and the read carries on as far as it goes. -/
def step (c : ReadCourse) (r : WriterRequest) : ReadCourse :=
  (c.request (.writer r)).carryOn way limit

def sight (c : ReadCourse) : ReadSight := ⟨c.got, c.session.channel.store⟩

/-- What is seen at first, and after each request of the writer. -/
def sights (c : ReadCourse) : List WriterRequest → List ReadSight
  | [] => [c.sight]
  | r :: rs => c.sight :: sights (c.step way limit r) rs

end ReadCourse

end Conduit.Ring

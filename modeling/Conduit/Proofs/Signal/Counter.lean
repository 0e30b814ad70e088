/-
  Conduit/Proofs/Signal/Counter.lean
  ==================================
  **What every auto-reset signal does to two numbers.**

  However a signal keeps its books, all that its users can count is how many releases
  are *pending* (made and not consumed) and how many waits are *registered* (begun, and
  neither resolved nor withdrawn).  `Step` says how each move changes the two; a move
  without a rule for the counts at hand cannot happen.  `Path` is a run of moves.

  `moves` reads off a request and its reply which moves the user of a session has seen:
  it looks at what the user holds, never inside the signal.
-/
import Conduit.Signal.Session

namespace Conduit.Signal

/-! ### The machine -/

/-- How many releases are pending, and how many waits are registered. -/
structure Counts where
  pending : Nat
  registered : Nat
deriving DecidableEq, Repr

/-- What happens to a signal: it is set, somebody who is not registered takes a release, a wait
    registers, a registered wait takes a release, or a registered wait is withdrawn. -/
inductive Move
  | set
  | take
  | join
  | resolve
  | withdraw
deriving DecidableEq, Repr

/-- The counts after a move. -/
inductive Counts.Step : Counts → Move → Counts → Prop
  | set (p n : Nat) : Step ⟨p, n⟩ .set ⟨min (p + 1) (n + 1), n⟩
  | take (p n : Nat) : Step ⟨p + 1, n⟩ .take ⟨p, n⟩
  | join (p n : Nat) : Step ⟨p, n⟩ .join ⟨p, n + 1⟩
  | resolve (p n : Nat) : Step ⟨p + 1, n + 1⟩ .resolve ⟨p, n⟩
  | withdraw (p n : Nat) : Step ⟨p, n + 1⟩ .withdraw ⟨min p (n + 1), n⟩

/-- The counts after one move and another. -/
inductive Counts.Path : Counts → List Move → Counts → Prop
  | nil (c : Counts) : Path c [] c
  | cons {c d e : Counts} {m : Move} {ms : List Move} (head : Step c m d) (tail : Path d ms e) :
    Path c (m :: ms) e

namespace Counts

theorem Path.one {c d : Counts} {m : Move} (h : Step c m d) : Path c [m] d := .cons h (.nil d)

theorem Path.append {c d e : Counts} {ms ns : List Move} (h : Path c ms d) (h' : Path d ns e) :
    Path c (ms ++ ns) e := by
  induction h with
  | nil => exact h'
  | cons head _ ih => exact .cons head (ih h')

/-- Several registered waits that take a release each. -/
theorem Path.resolves (p n : Nat) :
    ∀ k, Path ⟨p + k, n + k⟩ (List.replicate k .resolve) ⟨p, n⟩
  | 0 => .nil _
  | k + 1 => .cons (.resolve (p + k) (n + k)) (Path.resolves p n k)

/-- No more than one release is pending beyond the waits that are registered. -/
def Capped (c : Counts) : Prop := c.pending ≤ c.registered + 1

theorem Step.capped {c d : Counts} {m : Move} (h : Step c m d) (hc : c.Capped) : d.Capped := by
  cases h <;> simp only [Capped] at hc ⊢ <;> omega

theorem Path.capped {c d : Counts} {ms : List Move} (h : Path c ms d) (hc : c.Capped) :
    d.Capped := by
  induction h with
  | nil => exact hc
  | cons head _ ih => exact ih (head.capped hc)

/-- How many of the moves took a release. -/
def taken (ms : List Move) : Nat := ms.countP fun m => decide (m = .take ∨ m = .resolve)

/-- Releases come from settings alone: those taken and those still pending are no more than those
    pending at first and one for each setting. -/
theorem Path.balance {c d : Counts} {ms : List Move} (h : Path c ms d) :
    taken ms + d.pending ≤ c.pending + ms.count .set := by
  induction h with
  | nil => exact Nat.le_of_eq (Nat.zero_add _)
  | cons head _ ih =>
    simp only [taken] at ih ⊢
    cases head <;> simp at ih ⊢ <;> omega

end Counts

/-- The counts of a signal. -/
def countsOf {σ ω : Type} [AutoReset σ ω] (s : σ) : Counts :=
  ⟨AutoReset.pendingReleases s, AutoReset.registeredWaits s⟩

/-! ### The moves of a session -/

/-- How far a wait has come: not begun, registered under a ticket, or released for good. -/
inductive Stage (τ : Type)
  | idle
  | registered (ticket : τ)
  | spent
deriving DecidableEq, Repr

/-- The ticket of a registered wait. -/
def Stage.ticket? {τ : Type} : Stage τ → Option τ
  | .registered t => some t
  | _ => none

/-- The same stage under another kind of ticket. -/
def Stage.map {τ υ : Type} (f : τ → υ) : Stage τ → Stage υ
  | .idle => .idle
  | .registered t => .registered (f t)
  | .spent => .spent

/-- The waits of a signal tell how far they have come. -/
class Staged (ω : Type) (τ : outParam Type) where
  stage : ω → Stage τ

instance : Staged Queue.Wait Nat where
  stage
    | .init => .idle
    | .queued ticket => .registered ticket
    | .done => .spent

instance : Staged Spin.Wait Nat where
  stage
    | .init => .idle
    | .queued ticket => .registered ticket
    | .done => .spent

/-- A key stands for a wait that begins anew each time it is released. -/
instance : Staged WaitKey UInt64 where
  stage key :=
    match key.id with
    | none => .idle
    | some id => .registered id

instance : Staged Slim.Wait UInt64 where
  stage wait := Staged.stage wait.key

/-- The moves of a poll with its answer. -/
def Stage.pollMoves {τ : Type} : Stage τ → Reply → List Move
  | .idle, .ready => [.take]
  | .idle, .pending => [.join]
  | .idle, .cancelled => [.join, .withdraw]
  | .registered _, .ready => [.resolve]
  | .registered _, .cancelled => [.withdraw]
  | _, _ => []

/-- The moves of giving up a wait. -/
def Stage.dropMoves {τ : Type} : Stage τ → List Move
  | .registered _ => [.withdraw]
  | _ => []

@[simp] theorem Stage.pollMoves_map {τ υ : Type} (f : τ → υ) (stage : Stage τ) (r : Reply) :
    (stage.map f).pollMoves r = stage.pollMoves r := by
  cases stage <;> cases r <;> rfl

@[simp] theorem Stage.dropMoves_map {τ υ : Type} (f : τ → υ) (stage : Stage τ) :
    (stage.map f).dropMoves = stage.dropMoves := by
  cases stage <;> rfl

namespace Session

variable {σ ω τ : Type} [Facilities σ ω] [Staged ω τ]

/-- The moves of giving up the wait that a name holds, if it holds one. -/
def dropMoves (s : Session σ ω) (id : String) : List Move :=
  match s.waits.get? id with
  | some held => (Staged.stage held.wait).dropMoves
  | none => []

/-- The moves of a request with its reply. -/
def moves (s : Session σ ω) : Request → Reply → List Move
  | .set, _ => [.set]
  | .tryWait, .truth true => [.take]
  | .wait id, _ | .waitOrCancel id _, _ | .drop id, _ => s.dropMoves id
  | .poll id _, reply =>
    match s.waits.get? id with
    | some held => (Staged.stage held.wait).pollMoves reply
    | none => []
  | .pollKey id _, reply =>
    match s.keys.get? id with
    | some key => (Staged.stage key).pollMoves reply
    | none => []
  | .cancelKey id, .nothing =>
    match s.keys.get? id with
    | some key => (Staged.stage key).dropMoves
    | none => []
  | .expire, .truth true | .pastDeadline, .truth true => [.take]
  | .expire, .truth false | .pastDeadline, .truth false => [.join, .withdraw]
  | .block _, .released => [.take]
  | .block _, .started => [.join]
  | .timeUp _, .truth true => [.resolve]
  | .timeUp _, .truth false => [.withdraw]
  | _, _ => []

/-- The moves of a request, then one for each thread that returned after it. -/
def stepMoves (s : Session σ ω) (r : Request) : List Move :=
  s.moves r (s.step r).answer.1 ++ List.replicate (s.step r).answer.2.length .resolve

/-- The session after requests have been answered in turn. -/
def after (s : Session σ ω) (rs : List Request) : Session σ ω :=
  rs.foldl (fun s r => (s.step r).state) s

theorem after_append (s : Session σ ω) (rs rs' : List Request) :
    s.after (rs ++ rs') = (s.after rs).after rs' := List.foldl_append

/-- All moves of requests answered in turn. -/
def runMoves (s : Session σ ω) : List Request → List Move
  | [] => []
  | r :: rs => s.stepMoves r ++ runMoves (s.step r).state rs

/-- Fewer than 2^31 waits are registered before each request and at the end. -/
def Uncrowded (s : Session σ ω) : List Request → Prop
  | [] => AutoReset.registeredWaits s.signal < 2147483648
  | r :: rs => AutoReset.registeredWaits s.signal < 2147483648 ∧ Uncrowded (s.step r).state rs

instance decidableUncrowded (s : Session σ ω) :
    (rs : List Request) → Decidable (s.Uncrowded rs)
  | [] => inferInstanceAs (Decidable (_ < _))
  | r :: rs =>
    have := decidableUncrowded (s.step r).state rs
    inferInstanceAs (Decidable (_ ∧ _))

end Session

end Conduit.Signal

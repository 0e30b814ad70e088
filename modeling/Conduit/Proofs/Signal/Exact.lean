/-
  Conduit/Proofs/Signal/Exact.lean
  ================================
  **Arithmetic on packed words that carries nothing.**

  A word that holds several numbers is added to and subtracted from as if it were one.
  An operation on it is *exact* if it does to the numbers, which know no bound, what it
  is meant to do to them: then nothing was carried out of a field, and nothing borrowed
  from the next.  What is subtracted has to be there, which `Needs` says.

  Each move of the counter is one operation on the signal's word, or two.  They are
  exact as long as there is room for what they add, so a path of the counter is one
  exact operation after another (`exactly_of_path`).
-/
import Conduit.Proofs.Signal.Cancelling

namespace Conduit.Signal

/-! ### One operation after another -/

/-- One operation on a word after another, each of them exact where it is done. -/
inductive Exactly {ω β : Type} (apply : ω → β → β) (Exact : ω → β → Prop) :
    β → List ω → β → Prop
  | nil (w : β) : Exactly apply Exact w [] w
  | cons {op : ω} {ops : List ω} {w w' : β} (head : Exact op w)
    (tail : Exactly apply Exact (apply op w) ops w') : Exactly apply Exact w (op :: ops) w'

section Paths

variable {ω β : Type} {apply : ω → β → β} {Exact : ω → β → Prop} {w w' w'' : β}

theorem Exactly.append {ops ops' : List ω} (h : Exactly apply Exact w ops w')
    (h' : Exactly apply Exact w' ops' w'') : Exactly apply Exact w (ops ++ ops') w'' := by
  induction h with
  | nil => exact h'
  | cons head _ ih => exact .cons head (ih h')

/-- The moves that add to a number. -/
def Move.adds : Move → Bool
  | .set | .join => true
  | .take | .resolve | .withdraw => false

theorem Counts.Step.registered_le {c d : Counts} {m : Move} (h : c.Step m d) :
    d.registered ≤ c.registered + if m.adds then 1 else 0 := by
  cases h <;> simp [Move.adds]

/-- A path of the counts is one exact operation after another, if each of its moves is that as long
    as there is room for what it adds. -/
theorem exactly_of_path (ops : Move → List ω) (Stands : β → Counts → Prop) {room : Nat}
    (move : ∀ {w : β} {c d : Counts} {m : Move}, Stands w c → c.Step m d →
      (m.adds = true → c.registered < room) →
      ∃ w', Exactly apply Exact w (ops m) w' ∧ Stands w' d)
    {c d : Counts} {ms : List Move} (hpath : c.Path ms d) (hw : Stands w c)
    (hroom : c.registered + ms.countP Move.adds ≤ room) :
    ∃ w', Exactly apply Exact w (ms.flatMap ops) w' ∧ Stands w' d := by
  induction hpath generalizing w with
  | nil c => exact ⟨w, .nil w, hw⟩
  | @cons c d e m ms head _ ih =>
    have hgrown := head.registered_le
    rw [List.countP_cons] at hroom
    have hfits : m.adds = true → c.registered < room := by
      intro hadds
      rw [if_pos hadds] at hroom
      omega
    obtain ⟨w', hfirst, hw'⟩ := move hw head hfits
    obtain ⟨w'', hrest, hw''⟩ := ih hw' (by omega)
    exact ⟨w'', hfirst.append hrest, hw''⟩

end Paths

/-! ### The signal in a single word -/

namespace Word

/-- The three numbers of a word. -/
structure Fields where
  waiters : Nat
  owed : Nat
  up : Bool
deriving DecidableEq, Repr

def fields (w : Word) : Fields := ⟨w.waiters.toNat, w.owed.toNat, w.signaled⟩

/-- What is done to a word in one go. -/
inductive Op
  | set
  | take
  | enter
  | leave
deriving DecidableEq, Repr

namespace Op

def apply : Op → Word → Word
  | .set, w => w.set
  | .take, w => w.take.2
  | .enter, w => w.enter
  | .leave, w => w.leave

/-- What it is meant to do to the three numbers. -/
def onFields : Op → Fields → Fields
  | .set, f => if f.up = true ∧ f.owed < f.waiters then { f with owed := f.owed + 1 }
    else { f with up := true }
  | .take, f => if 0 < f.owed then { f with owed := f.owed - 1 } else { f with up := false }
  | .enter, f => { f with waiters := f.waiters + 1 }
  | .leave, f => { f with waiters := f.waiters - 1, owed := min f.owed (f.waiters - 1) }

/-- What it takes has to be there. -/
def Needs : Op → Fields → Prop
  | .take, f => f.up = true
  | .leave, f => 0 < f.waiters
  | .set, _ | .enter, _ => True

/-- The operation does to the word's numbers what it is meant to do. -/
def Exact (op : Op) (w : Word) : Prop :=
  op.Needs w.fields ∧ (op.apply w).fields = op.onFields w.fields

end Op

/-- The operations on the word with which the signal makes a move. -/
def moveOps : Move → List Op
  | .set => [.set]
  | .take => [.take]
  | .join => [.enter]
  | .resolve => [.take, .leave]
  | .withdraw => [.leave]

variable {w w' : Word} {waiters owed pending : Nat} {up : Bool}

theorem Holds.fields_eq (h : w.Holds waiters owed up) : w.fields = ⟨waiters, owed, up⟩ := by
  simp only [fields, h.waiters_toNat, h.owed_toNat, h.signaled_eq]

/-- A word is what it stands for. -/
theorem Holds.word_unique (h : w.Holds waiters owed up) (h' : w'.Holds waiters owed up) :
    w = w' := by
  have hbits := UInt64.toNat_inj.mp (h.bits.trans h'.bits.symm)
  cases w
  cases w'
  exact congrArg Word.mk hbits

theorem Stands.set_exact (h : w.Stands waiters pending) (hroom : waiters < 2147483648) :
    Op.Exact .set w := by
  refine ⟨trivial, ?_⟩
  simp only [Op.apply, Op.onFields, h.holds.fields_eq, (h.holds.set hroom).fields_eq]
  split
  · next hup => simp only [hup.1]
  · rfl

theorem Stands.enter_exact (h : w.Stands waiters pending) (hroom : waiters + 1 < 4294967296) :
    Op.Exact .enter w := by
  refine ⟨trivial, ?_⟩
  simp only [Op.apply, Op.onFields, h.holds.fields_eq, (h.enter hroom).holds.fields_eq]

theorem Stands.leave_exact (h : w.Stands (waiters + 1) pending) : Op.Exact .leave w := by
  constructor
  · simp only [Op.Needs, h.holds.fields_eq, Nat.succ_pos]
  · simp only [Op.apply, Op.onFields, h.holds.fields_eq, h.holds.leave.fields_eq,
      Nat.add_sub_cancel]

theorem Stands.take_exact (h : w.Stands waiters (pending + 1)) :
    Op.Exact .take w ∧ (Op.apply .take w).Stands waiters pending := by
  have hup : (decide (0 < pending + 1)) = true := decide_eq_true (Nat.succ_pos _)
  have hfields := h.holds.fields_eq
  rcases h.take with ⟨hnone, _⟩ | ⟨hlast, w', htake, hw'⟩ | ⟨n, hmore, w', htake, hw'⟩
  · exact absurd hnone (Nat.succ_ne_zero _)
  · obtain rfl : pending = 0 := Nat.succ.inj hlast
    refine ⟨⟨?_, ?_⟩, ?_⟩
    · simp only [Op.Needs, hfields, hup]
    · simp only [Op.apply, Op.onFields, htake, hfields, hw'.holds.fields_eq]
      rfl
    · simp only [Op.apply, htake]
      exact hw'
  · obtain rfl : pending = n + 1 := Nat.succ.inj hmore
    refine ⟨⟨?_, ?_⟩, ?_⟩
    · simp only [Op.Needs, hfields, hup]
    · simp [Op.apply, Op.onFields, htake, hfields, hw'.holds.fields_eq]
    · simp only [Op.apply, htake]
      exact hw'

/-- The operations of one move are exact, as long as there is room for what it adds. -/
theorem Stands.move_exactly {c d : Counts} {m : Move} (h : w.Stands c.registered c.pending)
    (hstep : c.Step m d) (hroom : m.adds = true → c.registered < 2147483648) :
    ∃ w', Exactly Op.apply Op.Exact w (moveOps m) w' ∧ w'.Stands d.registered d.pending := by
  cases hstep with
  | set p n =>
    have hless : n < 2147483648 := hroom rfl
    exact ⟨_, .cons (h.set_exact hless) (.nil _), h.set hless⟩
  | take p n =>
    obtain ⟨hexact, htaken⟩ := h.take_exact
    exact ⟨_, .cons hexact (.nil _), htaken⟩
  | join p n =>
    have hless : n + 1 < 4294967296 := Nat.lt_of_lt_of_le (Nat.succ_lt_succ (hroom rfl)) (by decide)
    exact ⟨_, .cons (h.enter_exact hless) (.nil _), h.enter hless⟩
  | resolve p n =>
    obtain ⟨hexact, htaken⟩ := h.take_exact
    have hcapped := h.capped
    have hleft := htaken.leave
    rw [Nat.min_eq_left (by simp only at hcapped; omega)] at hleft
    exact ⟨_, .cons hexact (.cons htaken.leave_exact (.nil _)), hleft⟩
  | withdraw p n => exact ⟨_, .cons h.leave_exact (.nil _), h.leave⟩

end Word

/-! ### The signal that counts permits -/

namespace Counters

/-- The two numbers of a word. -/
structure Fields where
  permits : Nat
  waiters : Nat
deriving DecidableEq, Repr

def fields (c : Counters) : Fields := ⟨c.permits.toNat, c.waiters.toNat⟩

/-- What a setting makes of the counters. -/
def set (c : Counters) : Counters :=
  if c.waiters = 0 then
    if 0 < c.permits then c else pack 1 0
  else if c.waiters < c.permits then c
  else pack (c.permits + 1) c.waiters

/-- The operation on the counters with which the signal makes a move. -/
def apply : Move → Counters → Counters
  | .set, c => c.set
  | .take, c => c.takePermit
  | .join, c => c.enter
  | .resolve, c => c.claim
  | .withdraw, c => c.leave

/-- What it is meant to do to the two numbers. -/
def onFields : Move → Fields → Fields
  | .set, f => if f.waiters < f.permits then f else { f with permits := f.permits + 1 }
  | .take, f => { f with permits := f.permits - 1 }
  | .join, f => { f with waiters := f.waiters + 1 }
  | .resolve, f => ⟨f.permits - 1, f.waiters - 1⟩
  | .withdraw, f => ⟨min f.permits (f.waiters - 1 + 1), f.waiters - 1⟩

/-- What it takes has to be there. -/
def Needs : Move → Fields → Prop
  | .take, f => 0 < f.permits
  | .resolve, f => 0 < f.permits ∧ 0 < f.waiters
  | .withdraw, f => 0 < f.waiters
  | .set, _ | .join, _ => True

/-- The operation does to the word's numbers what it is meant to do. -/
def Exact (m : Move) (c : Counters) : Prop :=
  Needs m c.fields ∧ (apply m c).fields = onFields m c.fields

variable {c : Counters} {p n : Nat}

theorem Holds.fields_eq (h : c.Holds p n) : c.fields = ⟨p, n⟩ := by
  simp only [fields, h.permits_toNat, h.waiters_toNat]

/-- A setting makes a permit, unless permits outnumber the waiters already. -/
theorem Holds.set (h : c.Holds p n) (hroom : n < 4294967295) (hcapped : p ≤ n + 1) :
    c.set.Holds (min (p + 1) (n + 1)) n := by
  have hwaiters : c.waiters = 0 ↔ n = 0 := by
    rw [← UInt32.toNat_inj, h.waiters_toNat]
    rfl
  have hfull : c.waiters < c.permits ↔ n < p := by
    rw [UInt32.lt_iff_toNat_lt, h.waiters_toNat, h.permits_toNat]
  unfold Counters.set
  simp only [hwaiters, h.permits_pos, hfull]
  split
  · next hempty =>
    subst hempty
    split
    · next hpos =>
      obtain rfl : p = 1 := by omega
      exact h
    · next hnone =>
      obtain rfl : p = 0 := by omega
      exact holds_pack 1 0
  · split
    · next hmore =>
      obtain rfl : p = n + 1 := by omega
      rw [Nat.min_eq_right (by omega)]
      exact h
    · next hless =>
      have hpack := holds_pack (c.permits + 1) c.waiters
      have hone : (1 : UInt32).toNat = 1 := rfl
      have hnext : (c.permits + 1).toNat = p + 1 := by
        rw [UInt32.toNat_add, h.permits_toNat, hone]
        omega
      rw [hnext, h.waiters_toNat] at hpack
      rw [Nat.min_eq_left (by omega)]
      exact hpack

/-- The operation of a move is exact, as long as there is room for what it adds. -/
theorem Holds.move_exactly {c : Counters} {d e : Counts} {m : Move}
    (h : c.Holds d.pending d.registered ∧ d.Capped) (hstep : d.Step m e)
    (hroom : m.adds = true → d.registered < 4294967295) :
    ∃ c', Exactly apply Exact c [m] c' ∧ c'.Holds e.pending e.registered ∧ e.Capped := by
  obtain ⟨hholds, hcapped⟩ := h
  have hnext : (apply m c).Holds e.pending e.registered ∧ Exact m c := by
    have hfields := hholds.fields_eq
    simp only [Counts.Capped] at hcapped
    cases hstep with
    | set p n =>
      have hset := hholds.set (hroom rfl) hcapped
      refine ⟨hset, trivial, ?_⟩
      simp only [apply, onFields, hset.fields_eq, hfields]
      simp only at hcapped
      split <;> simp only [Fields.mk.injEq, and_true] <;> omega
    | take p n =>
      refine ⟨hholds.takePermit, ?_, ?_⟩
      · simp only [Needs, hfields, Nat.succ_pos]
      · simp only [apply, onFields, hholds.takePermit.fields_eq, hfields, Nat.add_sub_cancel]
    | join p n =>
      have henter := hholds.enter (Nat.succ_lt_succ (hroom rfl))
      refine ⟨henter, trivial, ?_⟩
      simp only [apply, onFields, henter.fields_eq, hfields]
    | resolve p n =>
      refine ⟨hholds.claim, ?_, ?_⟩
      · simp only [Needs, hfields, Nat.succ_pos, and_self]
      · simp only [apply, onFields, hholds.claim.fields_eq, hfields, Nat.add_sub_cancel]
    | withdraw p n =>
      refine ⟨hholds.leave, ?_, ?_⟩
      · simp only [Needs, hfields, Nat.succ_pos]
      · simp only [apply, onFields, hholds.leave.fields_eq, hfields, Nat.add_sub_cancel]
  exact ⟨_, .cons hnext.2 (.nil _), hnext.1, hstep.capped hcapped⟩

end Counters

/-! ### The moves of a step -/

namespace Session

variable {σ ω τ : Type} [Facilities σ ω] [Staged ω τ]

theorem adds_replicate (k : Nat) : (List.replicate k Move.resolve).countP Move.adds = 0 := by
  rw [List.countP_replicate]
  rfl

theorem pollMoves_adds (stage : Stage τ) (reply : Reply) :
    (stage.pollMoves reply).countP Move.adds ≤ 1 := by
  unfold Stage.pollMoves
  split <;> decide

theorem dropMoves_adds (stage : Stage τ) : stage.dropMoves.countP Move.adds = 0 := by
  cases stage <;> rfl

omit [Facilities σ ω] in
/-- A request adds no more than one to the pending releases and the registered waits. -/
theorem moves_adds (s : Session σ ω) (r : Request) (reply : Reply) :
    (s.moves r reply).countP Move.adds ≤ 1 := by
  have hdrop (id : String) : (s.dropMoves id).countP Move.adds ≤ 1 := by
    unfold dropMoves
    split
    · rw [dropMoves_adds]
      exact Nat.zero_le _
    · exact Nat.zero_le _
  unfold moves
  split
  case h_3 id => exact hdrop id
  case h_4 id _ => exact hdrop id
  case h_5 id => exact hdrop id
  case h_6 id w =>
    split
    · exact pollMoves_adds _ _
    · exact Nat.zero_le _
  case h_7 id w =>
    split
    · exact pollMoves_adds _ _
    · exact Nat.zero_le _
  case h_8 id =>
    split
    · rw [dropMoves_adds]
      exact Nat.zero_le _
    · exact Nat.zero_le _
  all_goals decide

/-- And the threads that return after it add nothing. -/
theorem stepMoves_adds (s : Session σ ω) (r : Request) :
    (s.stepMoves r).countP Move.adds ≤ 1 := by
  rw [stepMoves, List.countP_append, adds_replicate]
  exact s.moves_adds r _

end Session

end Conduit.Signal

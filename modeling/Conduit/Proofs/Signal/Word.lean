/-
  Conduit/Proofs/Signal/Word.lean
  ===============================
  **The signal's word as three numbers.**

  `Holds` says which three numbers a word stands for.  Each operation on words is the
  operation on numbers that its name says, as long as no field runs over: one more
  waiter needs fewer than 2^32 of them, one more release owed needs fewer than 2^31.
  Nothing is carried or borrowed between the fields under these conditions.

  In use the bit and the releases owed are one number, the pending releases: none is
  owed unless the bit is up.  `Stands` is `Holds` in terms of that number, which never
  exceeds the waiters by more than one.
-/
import Conduit.Signal.Slim

namespace Conduit.Signal.Word

/-- The word stands for so many waiters, so many releases owed, and the bit. -/
structure Holds (w : Word) (waiters owed : Nat) (up : Bool) : Prop where
  bits : w.bits.toNat = waiters * 4294967296 + owed * 2 + up.toNat
  owed_lt : owed < 2147483648

variable {w : Word} {waiters owed : Nat} {up : Bool}

theorem Holds.waiters_lt (h : w.Holds waiters owed up) : waiters < 4294967296 := by
  have hlt := w.bits.toNat_lt
  have hbits := h.bits
  omega

/-! ### Reading the fields -/

theorem Holds.signaled_eq (h : w.Holds waiters owed up) : w.signaled = up := by
  have hmod : (w.bits % 2).toNat = up.toNat := by
    rw [UInt64.toNat_mod, h.bits]
    cases up <;> simp <;> omega
  cases up
  · have hzero : w.bits % 2 = 0 := UInt64.toNat_inj.mp hmod
    simp [signaled, hzero]
  · have hone : w.bits % 2 = 1 := UInt64.toNat_inj.mp hmod
    simp [signaled, hone]

theorem Holds.owed_toNat (h : w.Holds waiters owed up) : w.owed.toNat = owed := by
  have hup := up.toNat_le
  have hlt := h.owed_lt
  have hdiv : (w.bits / 2 % 2147483648).toNat = w.bits.toNat / 2 % 2147483648 := rfl
  rw [Word.owed, hdiv, h.bits]
  omega

theorem Holds.waiters_toNat (h : w.Holds waiters owed up) : w.waiters.toNat = waiters := by
  have hup := up.toNat_le
  have hlt := h.owed_lt
  have hdiv : (w.bits / 4294967296).toNat = w.bits.toNat / 4294967296 := rfl
  rw [Word.waiters, hdiv, h.bits]
  omega

/-- Every word stands for what its fields read. -/
theorem holds_fields (w : Word) : w.Holds w.waiters.toNat w.owed.toNat w.signaled := by
  have hwaiters : w.waiters.toNat = w.bits.toNat / 4294967296 := rfl
  have howed : w.owed.toNat = w.bits.toNat / 2 % 2147483648 := rfl
  have hmod : (w.bits % 2).toNat = w.bits.toNat % 2 := rfl
  have hsignaled : w.signaled.toNat = w.bits.toNat % 2 := by
    rcases Nat.mod_two_eq_zero_or_one w.bits.toNat with hbit | hbit
    · have hzero : w.bits % 2 = 0 := UInt64.toNat_inj.mp (hmod.trans hbit)
      simp [signaled, hzero, hbit]
    · have hone : w.bits % 2 = 1 := UInt64.toNat_inj.mp (hmod.trans hbit)
      simp [signaled, hone, hbit]
  refine ⟨?_, ?_⟩
  · rw [hwaiters, howed, hsignaled]
    omega
  · rw [howed]
    exact Nat.mod_lt _ (by decide)

/-! ### Writing the fields -/

theorem holds_zero : (⟨0⟩ : Word).Holds 0 0 false := ⟨rfl, by decide⟩

theorem holds_pack {waiters owed : UInt64} (hwaiters : waiters.toNat < 4294967296)
    (howed : owed.toNat < 2147483648) (up : Bool) :
    (pack waiters owed up).Holds waiters.toNat owed.toNat up := by
  refine ⟨?_, howed⟩
  have hbit : (if up then (1 : UInt64) else 0).toNat = up.toNat := by cases up <;> rfl
  have hup := up.toNat_le
  simp only [pack, UInt64.toNat_add, UInt64.toNat_mul, hbit]
  have h32 : (4294967296 : UInt64).toNat = 4294967296 := rfl
  have h2 : (2 : UInt64).toNat = 2 := rfl
  rw [h32, h2]
  omega

/-- One waiter more, while there is room for its number. -/
theorem Holds.enter (h : w.Holds waiters owed up) (hroom : waiters + 1 < 4294967296) :
    w.enter.Holds (waiters + 1) owed up := by
  refine ⟨?_, h.owed_lt⟩
  have hbits := h.bits
  have hlt := h.owed_lt
  have hup := up.toNat_le
  have h32 : (4294967296 : UInt64).toNat = 4294967296 := rfl
  rw [Word.enter, UInt64.toNat_add, h32, hbits]
  omega

/-- One waiter less; what is owed beyond the waiters that stay is dropped. -/
theorem Holds.leave (h : w.Holds (waiters + 1) owed up) :
    w.leave.Holds waiters (min owed waiters) up := by
  have hlt := h.waiters_lt
  have howed := h.owed_lt
  have hwaiters : (w.waiters - 1).toNat = waiters := by
    have h1 : (1 : UInt64).toNat = 1 := rfl
    rw [UInt64.toNat_sub, h1, h.waiters_toNat]
    omega
  have hmin : (min w.owed (w.waiters - 1)).toNat = min owed waiters := by
    rw [← h.owed_toNat, ← hwaiters]
    show (if w.owed ≤ w.waiters - 1 then w.owed else w.waiters - 1).toNat = _
    split
    · next hle => exact (Nat.min_eq_left (UInt64.le_iff_toNat_le.mp hle)).symm
    · next hle =>
      have hlt := UInt64.lt_iff_toNat_lt.mp (UInt64.not_le.mp hle)
      exact (Nat.min_eq_right (Nat.le_of_lt hlt)).symm
  have hpack : (pack (w.waiters - 1) (min w.owed (w.waiters - 1)) w.signaled).Holds
      (w.waiters - 1).toNat (min w.owed (w.waiters - 1)).toNat w.signaled :=
    holds_pack (by omega) (by omega) w.signaled
  rw [hwaiters, hmin, h.signaled_eq] at hpack
  rw [Word.leave, h.signaled_eq]
  exact hpack

/-- The bit goes up; if it is up, a release is owed as long as there is a waiter to owe it to. -/
theorem Holds.set (h : w.Holds waiters owed up) (hroom : waiters < 2147483648) :
    w.set.Holds waiters (if up = true ∧ owed < waiters then owed + 1 else owed) true := by
  have hbits := h.bits
  have hlt := h.owed_lt
  have hle : w.owed < w.waiters ↔ owed < waiters := by
    rw [UInt64.lt_iff_toNat_lt, h.owed_toNat, h.waiters_toNat]
  have h1 : (1 : UInt64).toNat = 1 := rfl
  have h2 : (2 : UInt64).toNat = 2 := rfl
  unfold Word.set
  rw [h.signaled_eq]
  cases up with
  | false =>
    refine ⟨?_, by simpa using hlt⟩
    simp only [Bool.toNat_false] at hbits
    simp [UInt64.toNat_add, h1, hbits]
    omega
  | true =>
    simp only [Bool.toNat_true] at hbits
    by_cases howed : owed < waiters
    · refine ⟨?_, by simp [howed]; omega⟩
      simp [hle, howed, UInt64.toNat_add, h2, hbits]
      omega
    · refine ⟨?_, by simpa [howed] using hlt⟩
      simp [hle, howed, hbits]

/-- What taking the signal finds: nothing, the bit alone, or a release owed beyond it. -/
theorem Holds.take (h : w.Holds waiters owed up) :
    (up = false ∧ w.take = (.empty, w)) ∨
    (up = true ∧ owed = 0 ∧ ∃ w', w.take = (.cleared, w') ∧ w'.Holds waiters 0 false) ∨
    (up = true ∧ ∃ n, owed = n + 1 ∧ ∃ w', w.take = (.owed, w') ∧ w'.Holds waiters n true) := by
  have hbits := h.bits
  have hlt := h.owed_lt
  have hwaiters := h.waiters_lt
  have hpos : 0 < w.owed ↔ 0 < owed := by
    rw [UInt64.lt_iff_toNat_lt, h.owed_toNat]
    rfl
  have h1 : (1 : UInt64).toNat = 1 := rfl
  have h2 : (2 : UInt64).toNat = 2 := rfl
  unfold Word.take
  rw [h.signaled_eq]
  cases up with
  | false => exact Or.inl ⟨rfl, rfl⟩
  | true =>
    simp only [Bool.toNat_true] at hbits
    cases owed with
    | zero =>
      have hnone : ¬ 0 < w.owed := fun hlt => absurd (hpos.mp hlt) (by decide)
      refine Or.inr (Or.inl ⟨rfl, rfl, ⟨w.bits - 1⟩, by simp [hnone], ?_, by decide⟩)
      rw [UInt64.toNat_sub, h1, hbits]
      simp
      omega
    | succ n =>
      have hsome : 0 < w.owed := hpos.mpr (Nat.succ_pos n)
      refine Or.inr (Or.inr ⟨rfl, n, rfl, ⟨w.bits - 2⟩, by simp [hsome], ?_, by omega⟩)
      rw [UInt64.toNat_sub, h2, hbits]
      simp
      omega

/-! ### Waiters and pending releases -/

/-- The word stands for so many waiters and so many pending releases: the bit is one of them, and
    the others are owed. -/
structure Stands (w : Word) (waiters pending : Nat) : Prop where
  holds : w.Holds waiters (pending - 1) (decide (0 < pending))
  capped : pending ≤ waiters + 1

variable {pending : Nat}

theorem Stands.waiters_toNat (h : w.Stands waiters pending) : w.waiters.toNat = waiters :=
  h.holds.waiters_toNat

theorem Stands.signaled_eq (h : w.Stands waiters pending) :
    w.signaled = decide (0 < pending) := h.holds.signaled_eq

theorem Stands.pending_eq (h : w.Stands waiters pending) :
    w.signaled.toNat + w.owed.toNat = pending := by
  rw [h.signaled_eq, h.holds.owed_toNat]
  cases pending with
  | zero => rfl
  | succ n => simp; omega

theorem stands_zero : (⟨0⟩ : Word).Stands 0 0 := ⟨holds_zero, by decide⟩

theorem Stands.enter (h : w.Stands waiters pending) (hroom : waiters + 1 < 4294967296) :
    w.enter.Stands (waiters + 1) pending :=
  ⟨h.holds.enter hroom, Nat.le_succ_of_le h.capped⟩

theorem Stands.leave (h : w.Stands (waiters + 1) pending) :
    w.leave.Stands waiters (min pending (waiters + 1)) := by
  have hleave := h.holds.leave
  have hpos : decide (0 < min pending (waiters + 1)) = decide (0 < pending) := by
    apply decide_eq_decide.mpr
    omega
  have howed : min pending (waiters + 1) - 1 = min (pending - 1) waiters := by omega
  refine ⟨?_, Nat.min_le_right _ _⟩
  rw [hpos, howed]
  exact hleave

theorem Stands.set (h : w.Stands waiters pending) (hroom : waiters < 2147483648) :
    w.set.Stands waiters (min (pending + 1) (waiters + 1)) := by
  have hset := h.holds.set hroom
  have hcapped := h.capped
  refine ⟨?_, Nat.min_le_right _ _⟩
  have hup : decide (0 < min (pending + 1) (waiters + 1)) = true := by
    apply decide_eq_true
    omega
  have howed : min (pending + 1) (waiters + 1) - 1
      = if decide (0 < pending) = true ∧ pending - 1 < waiters then pending - 1 + 1
        else pending - 1 := by
    simp only [decide_eq_true_eq]
    split <;> omega
  rw [hup, howed]
  exact hset

/-- What taking the signal finds: no release, the last one, or one with others behind it. -/
theorem Stands.take (h : w.Stands waiters pending) :
    (pending = 0 ∧ w.take = (.empty, w)) ∨
    (pending = 1 ∧ ∃ w', w.take = (.cleared, w') ∧ w'.Stands waiters 0) ∨
    (∃ n, pending = n + 2 ∧ ∃ w', w.take = (.owed, w') ∧ w'.Stands waiters (n + 1)) := by
  have hcapped := h.capped
  rcases h.holds.take with ⟨hup, htake⟩ | ⟨hup, howed, w', htake, hw'⟩
      | ⟨hup, n, howed, w', htake, hw'⟩
  · have hzero : pending = 0 := by simpa using hup
    exact Or.inl ⟨hzero, htake⟩
  · have hpos : 0 < pending := of_decide_eq_true hup
    exact Or.inr (Or.inl ⟨by omega, w', htake, hw', Nat.zero_le _⟩)
  · exact Or.inr (Or.inr ⟨n, by omega, w', htake, by simpa using hw', by omega⟩)

end Conduit.Signal.Word

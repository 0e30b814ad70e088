/-
  Conduit/Proofs/Lease/Word.lean
  ==============================
  **The state of a lease as a generation, a number and four flags.**

  `Holds` says which generation, how many completers and which flags a word stands for.
  Each operation on words is the operation on these that its name says, as long as the
  24 bits of the completers do not run over: nothing is carried into the generation,
  and a completer that leaves borrows nothing from it as long as one is counted.
-/
import Conduit.Lease.Word

namespace Conduit.Lease

/-- Which flags are up. -/
structure Flags where
  completing : Bool
  completed : Bool
  continuation : Bool
  detached : Bool
deriving DecidableEq, Repr

namespace Flags

def none : Flags := ⟨false, false, false, false⟩

def has (fs : Flags) : Flag → Bool
  | .completing => fs.completing
  | .completed => fs.completed
  | .continuation => fs.continuation
  | .detached => fs.detached

def raise (fs : Flags) : Flag → Flags
  | .completing => { fs with completing := true }
  | .completed => { fs with completed := true }
  | .continuation => { fs with continuation := true }
  | .detached => { fs with detached := true }

/-- The flags as the number that their bits make. -/
def weight (fs : Flags) : Nat :=
  fs.completing.toNat + 2 * fs.completed.toNat + 4 * fs.continuation.toNat
    + 8 * fs.detached.toNat

theorem weight_lt (fs : Flags) : fs.weight < 16 := by
  obtain ⟨a, b, c, d⟩ := fs
  cases a <;> cases b <;> cases c <;> cases d <;> decide

end Flags

namespace Word

/-- The word stands for a generation, so many completers, and flags. -/
structure Holds (w : Word) (generation : UInt32) (completers : Nat) (flags : Flags) : Prop where
  bits : w.bits.toNat = generation.toNat * 4294967296 + completers * 256 + flags.weight
  completers_le : completers ≤ maxCompleters

variable {w : Word} {generation : UInt32} {completers : Nat} {flags : Flags}

theorem Holds.completers_lt (h : w.Holds generation completers flags) : completers < 16777216 :=
  Nat.lt_succ_of_le h.completers_le

/-! ### Reading the fields -/

theorem Holds.generation_eq (h : w.Holds generation completers flags) :
    w.generation = generation := by
  have hbits := h.bits
  have hcompleters := h.completers_lt
  have hflags := flags.weight_lt
  have hgeneration := generation.toNat_lt
  have hdiv : (w.bits / 4294967296).toUInt32.toNat = w.bits.toNat / 4294967296 % 4294967296 := rfl
  refine UInt32.toNat_inj.mp ?_
  rw [Word.generation, hdiv, hbits]
  omega

theorem Holds.completers_eq (h : w.Holds generation completers flags) :
    w.completers = completers := by
  have hbits := h.bits
  have hcompleters := h.completers_lt
  have hflags := flags.weight_lt
  have hdiv : (w.bits / 256 % 16777216).toNat = w.bits.toNat / 256 % 16777216 := rfl
  rw [Word.completers, hdiv, hbits]
  omega

theorem Holds.has_eq (h : w.Holds generation completers flags) (f : Flag) :
    w.has f = flags.has f := by
  have hbits := h.bits
  have hdiv : (w.bits / f.weight % 2).toNat = w.bits.toNat / f.weight.toNat % 2 := by
    rw [UInt64.toNat_mod, UInt64.toNat_div]
    rfl
  have hbit : w.bits.toNat / f.weight.toNat % 2 = (flags.has f).toNat := by
    obtain ⟨a, b, c, d⟩ := flags
    cases f <;> cases a <;> cases b <;> cases c <;> cases d <;>
      simp [Flags.weight, Flags.has, Flag.weight] at hbits ⊢ <;> omega
  cases hhas : flags.has f
  · have hzero : w.bits / f.weight % 2 = 0 := by
      refine UInt64.toNat_inj.mp ?_
      rw [hdiv, hbit, hhas]
      rfl
    simp [Word.has, hzero]
  · have hone : w.bits / f.weight % 2 = 1 := by
      refine UInt64.toNat_inj.mp ?_
      rw [hdiv, hbit, hhas]
      rfl
    simp [Word.has, hone]

theorem Holds.isClaimed_eq (h : w.Holds generation completers flags) :
    w.isClaimed = (flags.completing || flags.completed) := by
  rw [isClaimed, h.has_eq, h.has_eq]
  rfl

theorem Holds.isIdle_iff (h : w.Holds generation completers flags) :
    w.isIdle = true ↔ completers = 0 ∧ flags = .none := by
  have hbits := h.bits
  have hcompleters := h.completers_lt
  have hflags := flags.weight_lt
  have hmod : (w.bits % 4294967296).toNat = completers * 256 + flags.weight := by
    have hrfl : (w.bits % 4294967296).toNat = w.bits.toNat % 4294967296 := rfl
    rw [hrfl, hbits]
    omega
  have hweight : flags.weight = 0 ↔ flags = .none := by
    obtain ⟨a, b, c, d⟩ := flags
    cases a <;> cases b <;> cases c <;> cases d <;> simp [Flags.weight, Flags.none]
  rw [isIdle, beq_iff_eq, ← UInt64.toNat_inj, hmod, ← hweight]
  show completers * 256 + flags.weight = 0 ↔ _
  omega

/-! ### Writing the fields -/

theorem holds_idle (generation : UInt32) : (idle generation).Holds generation 0 .none := by
  refine ⟨?_, by decide⟩
  have hgeneration := generation.toNat_lt
  have hmul : (generation.toUInt64 * 4294967296).toNat
      = generation.toNat * 4294967296 % 18446744073709551616 := by
    rw [UInt64.toNat_mul, UInt32.toNat_toUInt64]
    rfl
  rw [idle, hmul]
  simp [Flags.weight, Flags.none]
  omega

/-- A word is the only one that stands for what it does. -/
theorem Holds.unique {w' : Word} (h : w.Holds generation completers flags)
    (h' : w'.Holds generation completers flags) : w = w' := by
  obtain ⟨bits⟩ := w
  obtain ⟨bits'⟩ := w'
  have heq : bits = bits' := UInt64.toNat_inj.mp (h.bits.trans h'.bits.symm)
  rw [heq]

theorem Holds.raise (h : w.Holds generation completers flags) (f : Flag) :
    (w.raise f).Holds generation completers (flags.raise f) := by
  have hbits := h.bits
  have hcompleters := h.completers_lt
  have hgeneration := generation.toNat_lt
  refine ⟨?_, h.completers_le⟩
  rw [Word.raise, h.has_eq f]
  obtain ⟨a, b, c, d⟩ := flags
  cases f <;> cases a <;> cases b <;> cases c <;> cases d <;>
    simp [Flags.has, Flags.raise, Flags.weight, Flag.weight, UInt64.toNat_add] at hbits ⊢ <;>
    omega

theorem Holds.enter (h : w.Holds generation completers flags) {n : Nat}
    (hroom : completers + n ≤ maxCompleters) :
    (w.enter n).Holds generation (completers + n) flags := by
  have hbits := h.bits
  have hflags := flags.weight_lt
  have hgeneration := generation.toNat_lt
  have hmax : maxCompleters = 16777215 := rfl
  rw [hmax] at hroom
  refine ⟨?_, by rw [hmax]; exact hroom⟩
  have hn : (n.toUInt64 * 256).toNat = n * 256 := by
    rw [UInt64.toNat_mul, UInt64.toNat_ofNat_of_lt' (by show n < 2 ^ 64; omega)]
    show n * 256 % 2 ^ 64 = n * 256
    omega
  rw [Word.enter, UInt64.toNat_add, hn, hbits]
  omega

theorem Holds.leave (h : w.Holds generation (completers + 1) flags) :
    w.leave.Holds generation completers flags := by
  have hbits := h.bits
  have hcompleters := h.completers_le
  have hlt := w.bits.toNat_lt
  refine ⟨?_, by omega⟩
  have h256 : (256 : UInt64).toNat = 256 := rfl
  rw [Word.leave, UInt64.toNat_sub, h256, hbits]
  omega

end Word

end Conduit.Lease

/-
  Conduit/Proofs/Frame/Stream.lean
  ================================
  **What a stream of frames amounts to, frame by frame.**
-/
import Conduit.Frame.Stream
import Conduit.Proofs.Text.Bytes

namespace Conduit.Frame

variable {pending : List UInt32} {a b c d : UInt8} {n : Nat} {rest body : List UInt8}

/-- What one frame leads to, and which requests are pending after it. -/
def reported (pending : List UInt32) (id : UInt32) (text : String) : Report × List UInt32 :=
  if pending.contains id then (.answered id text, pending.filter (· != id))
  else (.unknown id, pending)

/-- A stream that ends within a header says nothing. -/
theorem reports_cut {stream : List UInt8} (h : stream.length < 4) :
    reports pending stream = [.ended] := by
  have hnot : ∀ a b c d rest, stream ≠ a :: b :: c :: d :: rest := by
    rintro a b c d rest rfl
    exact absurd h (Nat.not_lt.mpr (Nat.le_add_left 4 rest.length))
  rw [reports]
  exact hnot

/-- A header that announces too little ends the stream. -/
theorem reports_short (h : announced? a b c d = none) :
    reports pending (a :: b :: c :: d :: rest) = [.short, .ended] := by
  rw [reports, h]

/-- A stream that ends within a body says nothing more. -/
theorem reports_partial (h : announced? a b c d = some n) (hcut : rest.length < n) :
    reports pending (a :: b :: c :: d :: rest) = [.ended] := by
  rw [reports, h]
  exact if_pos hcut

/-- A whole frame is reported, and then what is behind it. -/
theorem reports_frame (h : announced? a b c d = some n) (hbody : body.length = n) :
    reports pending (a :: b :: c :: d :: (body ++ rest))
      = (reported pending (contents body).1 (contents body).2).1
        :: reports (reported pending (contents body).1 (contents body).2).2 rest := by
  have hall : ¬ (body ++ rest).length < n := by
    rw [List.length_append]
    omega
  rw [reports, h]
  simp only [if_neg hall, List.take_left' hbody, List.drop_left' hbody, reported]
  split
  · rfl
  · rfl

end Conduit.Frame

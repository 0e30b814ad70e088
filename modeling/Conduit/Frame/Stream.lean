/-
  Conduit/Frame/Stream.lean
  =========================
  **Frames on a stream of bytes.**

  A frame is a word that counts the bytes behind it, a word that says which request it
  answers, and the answer's text.  A count below four leaves no room for the second
  word; nothing behind such a frame can be told apart.  `reports` says what a whole
  stream amounts to when some requests are pending.
-/
import Conduit.Text.Bytes
import Conduit.Text.Lossy

namespace Conduit.Frame

/-- The frame that answers a request with the bytes of a text. -/
def encode (id : UInt32) (body : List UInt8) : List UInt8 :=
  Text.wordBytes (4 + body.length).toUInt32 ++ Text.wordBytes id ++ body

/-- How many bytes a header announces, unless they are too few for a frame. -/
def announced? (a b c d : UInt8) : Option Nat :=
  let n := (Text.wordOf a b c d).toNat
  if 4 ≤ n then some n else none

/-- What the bytes behind a header say: which request is answered, and how. -/
def contents : List UInt8 → UInt32 × String
  | a :: b :: c :: d :: body => (Text.wordOf a b c d, Text.lossy body)
  | _ => (0, "")

/-- What reading a stream of frames leads to: a frame too short to say what it answers, a pending
    request answered, an answer to a request that is not pending, the end of the stream. -/
inductive Report
  | short
  | answered (id : UInt32) (text : String)
  | unknown (id : UInt32)
  | ended
deriving DecidableEq, Repr

/-- The line that tells of a report, if one does. -/
def Report.line? : Report → Option String
  | .short => some "[Decoder] Frame too short for a correlation id."
  | .answered _ _ => none
  | .unknown id => some ("[Decoder] Reply for unknown id " ++ toString id)
  | .ended => some "[Decoder] Stream ended."

/-- The reports of a whole stream, when the given requests are pending. -/
def reports (pending : List UInt32) : List UInt8 → List Report
  | a :: b :: c :: d :: rest =>
    match announced? a b c d with
    | none => [.short, .ended]
    | some n =>
      if rest.length < n then [.ended]
      else
        let (id, text) := contents (rest.take n)
        if pending.contains id then
          .answered id text :: reports (pending.filter (· != id)) (rest.drop n)
        else .unknown id :: reports pending (rest.drop n)
  | _ => [.ended]
termination_by stream => stream.length
decreasing_by all_goals simp only [List.length_drop, List.length_cons]; omega

end Conduit.Frame

/-
  Conduit/Proofs/Frame/Desk.lean
  ==============================
  **What the answer to a request changes, and what it depends on.**

  The desk of a station is its replies and the requests that are pending.  An answer is given
  from the desk and changes nothing else, so what a list of reports does to a desk can be said
  without the ring and the bodies that they came from.
-/
import Conduit.Frame.Decoder
import Conduit.Proofs.Frame.Stream

namespace Conduit.Frame.Station

variable {s t : Station}

/-! ### What an answer changes -/

theorem settle_replies (s : Station) (n : Nat) (next : Lease.Sequel String Empty) :
    (s.settle n next).state = { s with replies := (s.settle n next).state.replies } := by
  cases next with
  | nothing => rfl
  | home => rfl
  | resume k _ => exact nomatch k

theorem complete_replies (s : Station) (h : Completer) (text : String) :
    (s.complete h text).state = { s with replies := (s.complete h text).state.replies } := by
  simp only [complete, Outcome.andThen_state]
  split
  · exact settle_replies (onReplies s _).state _ _
  · rfl

theorem dropCompleter_replies (s : Station) (h : Completer) :
    (s.dropCompleter h).state = { s with replies := (s.dropCompleter h).state.replies } :=
  settle_replies (onReplies s _).state _ _

/-- Which requests are pending. -/
def ids (s : Station) : List UInt32 := s.pending.map Prod.fst

theorem lookup_isSome (id : UInt32) (m : List (UInt32 × Completer)) :
    (m.lookup id).isSome = (m.map Prod.fst).contains id := by
  induction m with
  | nil => rfl
  | cons e m ih =>
    rw [List.lookup_cons, List.map_cons, List.contains_cons]
    cases id == e.1 with
    | true => rfl
    | false => exact ih

/-- A request that is not pending is answered by doing nothing. -/
theorem answer_unknown {id : UInt32} (h : s.pending.lookup id = none) (text : String) :
    s.answer id text = .pure (.unknown id) s := by
  have hnot : (s.pending.map Prod.fst).contains id = false := by
    rw [← lookup_isSome, h]
    rfl
  have hall : (s.pending.filter fun e => e.1 != id) = s.pending := by
    apply List.filter_eq_self.mpr
    intro e he
    rw [bne_iff_ne]
    rintro rfl
    have hmem := List.contains_iff_mem.mpr (List.mem_map_of_mem (f := Prod.fst) he)
    rw [hnot] at hmem
    cases hmem
  rw [answer, takePending, h, hall]

theorem answer_pending {id : UInt32} {c : Completer} (h : s.pending.lookup id = some c)
    (text : String) :
    (s.answer id text).answer = .answered id text ∧
      (s.answer id text).state
        = { s with
            replies := (s.answer id text).state.replies
            pending := s.pending.filter fun e => e.1 != id } := by
  rw [answer, takePending, h]
  refine ⟨rfl, ?_⟩
  simp only [Outcome.andThen_state, Outcome.map_state]
  rw [dropCompleter_replies, complete_replies]

/-- An answer is reported as the parser reports it, and leaves the requests pending that it does. -/
theorem answer_reported (s : Station) (id : UInt32) (text : String) :
    (s.answer id text).answer = (reported s.ids id text).1 ∧
      (s.answer id text).state.ids = (reported s.ids id text).2 := by
  have hfound := lookup_isSome id s.pending
  rw [reported]
  cases hlookup : s.pending.lookup id with
  | none =>
    rw [hlookup] at hfound
    have hnot : s.ids.contains id = false := hfound.symm
    rw [answer_unknown hlookup, hnot]
    exact ⟨rfl, rfl⟩
  | some c =>
    rw [hlookup] at hfound
    have hpending : s.ids.contains id = true := hfound.symm
    obtain ⟨hanswer, hstate⟩ := answer_pending hlookup text
    rw [hpending, hanswer, hstate]
    refine ⟨rfl, ?_⟩
    show (s.pending.filter fun e => e.1 != id).map Prod.fst = (s.pending.map Prod.fst).filter (· != id)
    rw [List.filter_map]
    rfl

/-- Only the desk is changed by an answer. -/
theorem answer_bench (s : Station) (id : UInt32) (text : String) :
    (s.answer id text).state.channel = s.channel ∧ (s.answer id text).state.bodies = s.bodies ∧
      (s.answer id text).state.decoder = s.decoder := by
  cases hlookup : s.pending.lookup id with
  | none =>
    rw [answer_unknown hlookup]
    exact ⟨rfl, rfl, rfl⟩
  | some c =>
    rw [(answer_pending hlookup text).2]
    exact ⟨rfl, rfl, rfl⟩

/-! ### What an answer depends on -/

/-- Two stations with the same replies and the same requests pending. -/
structure SameDesk (s t : Station) : Prop where
  replies : s.replies = t.replies
  pending : s.pending = t.pending

theorem SameDesk.refl (s : Station) : SameDesk s s := ⟨rfl, rfl⟩

theorem SameDesk.trans {u : Station} (h : SameDesk s t) (h' : SameDesk t u) : SameDesk s u :=
  ⟨h.replies.trans h'.replies, h.pending.trans h'.pending⟩

theorem settle_desk (h : SameDesk s t) (n : Nat) (next : Lease.Sequel String Empty) :
    SameDesk (s.settle n next).state (t.settle n next).state := by
  cases next with
  | nothing => exact h
  | home =>
    refine ⟨?_, h.pending⟩
    simp only [settle, onReplies, Outcome.lift_state, h.replies]
  | resume k _ => exact nomatch k

/-- An operation on a slot, seen from two stations with the same replies. -/
theorem onSlot_desk {α : Type} (h : SameDesk s t) (n : Nat)
    (op : Lease.Slot String Empty → Outcome α (Lease.Slot String Empty)) :
    (s.onReplies (s.replies.onSlot n op)).answer = (t.onReplies (t.replies.onSlot n op)).answer ∧
      SameDesk (s.onReplies (s.replies.onSlot n op)).state
        (t.onReplies (t.replies.onSlot n op)).state := by
  rw [h.replies]
  exact ⟨rfl, rfl, h.pending⟩

theorem complete_desk (h : SameDesk s t) (c : Completer) (text : String) :
    SameDesk (s.complete c text).state (t.complete c text).state := by
  obtain ⟨hanswer, hstate⟩ := onSlot_desk h c.1 fun u => u.complete c.2 (.ok text)
  simp only [complete, Outcome.andThen_state, hanswer]
  split
  · exact settle_desk hstate _ _
  · exact hstate

theorem dropCompleter_desk (h : SameDesk s t) (c : Completer) :
    SameDesk (s.dropCompleter c).state (t.dropCompleter c).state := by
  obtain ⟨hanswer, hstate⟩ := onSlot_desk h c.1 fun u => u.dismiss c.2
  simp only [dropCompleter, Outcome.andThen_state, hanswer]
  exact settle_desk hstate _ _

theorem answer_desk (h : SameDesk s t) (id : UInt32) (text : String) :
    SameDesk (s.answer id text).state (t.answer id text).state := by
  cases hlookup : t.pending.lookup id with
  | none =>
    have hlookup' : s.pending.lookup id = none := h.pending ▸ hlookup
    rw [answer_unknown hlookup, answer_unknown hlookup']
    exact h
  | some c =>
    have hleft : SameDesk { s with pending := s.pending.filter fun e => e.1 != id }
        { t with pending := t.pending.filter fun e => e.1 != id } := by
      refine ⟨h.replies, ?_⟩
      rw [h.pending]
    have hlookup' : s.pending.lookup id = some c := h.pending ▸ hlookup
    rw [answer, answer, takePending, takePending, hlookup, hlookup']
    exact dropCompleter_desk (complete_desk hleft c text) c

/-! ### Reports -/

/-- The station after the requests that a list of reports tells of were answered, one by one. -/
def heed (s : Station) : List Report → Station
  | [] => s
  | .answered id text :: told => heed (s.answer id text).state told
  | .short :: told | .unknown _ :: told | .ended :: told => heed s told

theorem heed_append (told told' : List Report) :
    ∀ s : Station, s.heed (told ++ told') = (s.heed told).heed told' := by
  induction told with
  | nil =>
    intro s
    rfl
  | cons r told ih =>
    intro s
    cases r with
    | answered id text => exact ih (s.answer id text).state
    | short => exact ih s
    | unknown id => exact ih s
    | ended => exact ih s

/-- What reports do to a desk depends on the desk alone. -/
theorem heed_desk (told : List Report) :
    ∀ {s t : Station}, SameDesk s t → SameDesk (s.heed told) (t.heed told) := by
  induction told with
  | nil =>
    intro s t h
    exact h
  | cons r told ih =>
    intro s t h
    cases r with
    | answered id text => exact ih (answer_desk h id text)
    | short => exact ih h
    | unknown id => exact ih h
    | ended => exact ih h

/-- An answer does what its report tells of. -/
theorem answer_heeded (s : Station) (id : UInt32) (text : String) :
    (s.answer id text).state = s.heed [(s.answer id text).answer] := by
  cases hlookup : s.pending.lookup id with
  | none =>
    rw [answer_unknown hlookup]
    rfl
  | some c =>
    rw [(answer_pending hlookup text).1]
    rfl

end Conduit.Frame.Station

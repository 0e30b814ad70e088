/-
  Conduit/Proofs/Ring/Fifo.lean
  =============================
  **A ring is a bounded queue of bytes.**

  The queue is a list with a bound.  A call with a buffer moves as many bytes as fit or
  are there: into the queue at its end, or from its front into the front of the buffer.
  The ring answers the same, byte for byte, as long as its cursors tell positions apart,
  that is, below 2^64 or for a capacity that divides 2^64.  How many bytes a call moves
  never depends on that.

  Nothing that a call does on the way leaves its bounds: the room that is left is a
  difference that does not wrap around, and both pieces of a copy lie in the array and
  in the buffer.
-/
import Conduit.Proofs.Ring.Stream

namespace Conduit.Ring

/-! ### Calls with a buffer -/

/-- A call on the bytes of a ring: commit from a buffer, or read into one. -/
inductive Move
  | put (src : List UInt8)
  | get (dst : List UInt8)
deriving DecidableEq, Repr

/-- What a call gives back: how many bytes it moved, and its buffer as it is then. -/
structure Moved where
  count : Nat
  buffer : List UInt8
deriving DecidableEq, Repr

/-- How many of the bytes that a call moved it committed. -/
def Move.committed (r : Moved) : Move → Nat
  | .put _ => r.count
  | .get _ => 0

/-- A buffer with the bytes up to the end of the array copied to its front, and those from the
    start of the array behind them. -/
def Store.filled (s : Store) (dst : List UInt8) : List UInt8 :=
  let n := min dst.length s.len.toNat
  let start := s.place s.readPos
  let first := s.firstPart start n
  (overwrite (overwrite dst.toArray 0 (slice s.storage start first)) first
    (slice s.storage 0 (n - first))).toList

namespace Channel

/-- The answer to a call. -/
def move (c : Channel) : Move → Outcome Moved Channel
  | .put src => (c.tryWrite src).map fun n => ⟨n, src⟩
  | .get dst => (c.tryRead dst.length).map fun bytes => ⟨bytes.length, c.store.filled dst⟩

/-- How many bytes a sequence of calls commits. -/
def committed (c : Channel) : List Move → Nat
  | [] => 0
  | m :: ms => m.committed (c.move m).answer + (c.move m).state.committed ms

end Channel

/-! ### The queue -/

/-- What is to be seen of a call from outside: its answer, then the unread bytes and the length
    that the ring tells. -/
structure Sight where
  moved : Moved
  unread : List UInt8
  len : Nat
deriving DecidableEq, Repr

/-- A queue of bytes that holds `capacity` of them at most. -/
structure Fifo (capacity : Nat) where
  queued : List UInt8
  fits : queued.length ≤ capacity
deriving DecidableEq, Repr

namespace Fifo

variable {capacity : Nat}

def empty : Fifo capacity := ⟨[], Nat.zero_le _⟩

/-- Takes in the first of the bytes, as many as fit. -/
def put (f : Fifo capacity) (src : List UInt8) : Moved × Fifo capacity :=
  let n := min src.length (capacity - f.queued.length)
  (⟨n, src⟩, ⟨f.queued ++ src.take n, by
    have hfits := f.fits
    rw [List.length_append, List.length_take]
    omega⟩)

/-- Hands out the oldest bytes, as many as there are and the buffer takes.  The rest of the buffer
    keeps its bytes. -/
def get (f : Fifo capacity) (dst : List UInt8) : Moved × Fifo capacity :=
  let n := min dst.length f.queued.length
  (⟨n, f.queued.take n ++ dst.drop n⟩, ⟨f.queued.drop n, by
    have hfits := f.fits
    rw [List.length_drop]
    omega⟩)

def move (f : Fifo capacity) : Move → Moved × Fifo capacity
  | .put src => f.put src
  | .get dst => f.get dst

/-- What is to be seen of a sequence of calls. -/
def sights (f : Fifo capacity) : List Move → List Sight
  | [] => []
  | m :: ms =>
    let (r, f) := f.move m
    ⟨r, f.queued, f.queued.length⟩ :: f.sights ms

end Fifo

namespace Channel

/-- What is to be seen of a sequence of calls. -/
def sights (c : Channel) : List Move → List Sight
  | [] => []
  | m :: ms =>
    let c' := (c.move m).state
    ⟨(c.move m).answer, c'.store.unread, c'.store.len.toNat⟩ :: c'.sights ms

end Channel

/-! ### Bounds -/

/-- `n` bytes from a cursor on, in two pieces: one ends in the array, the other ends before the
    first begins, and a buffer of `room` bytes takes both. -/
structure Store.Within (s : Store) (cursor : UInt64) (n room : Nat) : Prop where
  start : s.place cursor < s.storage.size
  front : s.place cursor + s.firstPart (s.place cursor) n ≤ s.storage.size
  back : n - s.firstPart (s.place cursor) n ≤ s.place cursor
  pieces : s.firstPart (s.place cursor) n ≤ n
  room : n ≤ room

/-- A call that stays in its bounds: the unread bytes are not more than fit, so that the room left
    is a proper difference, and the bytes that it copies lie in the array and the buffer. -/
def Channel.Bounded (c : Channel) (m : Move) : Prop :=
  c.store.len ≤ c.store.capacity ∧
    match m with
    | .put src => c.store.Within c.store.writePos (c.move m).answer.count src.length
    | .get dst => c.store.Within c.store.readPos (c.move m).answer.count dst.length

/-- Every call of a sequence stays in its bounds. -/
def Channel.AllBounded (c : Channel) : List Move → Prop
  | [] => True
  | m :: ms => c.Bounded m ∧ (c.move m).state.AllBounded ms

namespace Store

variable {s : Store} {read : Nat} {q : List UInt8}

theorem Sized.within (h : s.Sized) (cursor : UInt64) {n room : Nat} (hn : n ≤ s.storage.size)
    (hroom : n ≤ room) : s.Within cursor n room := by
  have hplace := h.place_lt cursor
  refine ⟨hplace, ?_, ?_, ?_, hroom⟩
  · rw [firstPart]
    omega
  · rw [firstPart]
    omega
  · rw [firstPart]
    exact Nat.min_le_left _ _

/-! ### Filling a buffer -/

/-- Two runs of bytes, one behind the other, over the front of a buffer. -/
theorem overwrite_twice (dst xs ys : List UInt8) (h : xs.length + ys.length ≤ dst.length) :
    (overwrite (overwrite dst.toArray 0 xs) xs.length ys).toList
      = xs ++ ys ++ dst.drop (xs ++ ys).length := by
  apply List.ext_getElem?
  intro i
  rw [Array.getElem?_toList, overwrite_getElem?, overwrite_getElem?, overwrite_size,
    List.size_toArray, List.append_assoc, List.length_append]
  by_cases hxs : i < xs.length
  · rw [if_neg (by omega), if_pos (by omega), List.getElem?_append_left hxs, Nat.sub_zero]
  · rw [List.getElem?_append_right (by omega)]
    by_cases hys : i < xs.length + ys.length
    · rw [if_pos (by omega), List.getElem?_append_left (by omega)]
    · rw [if_neg (by omega), if_neg (by omega), List.getElem?_append_right (by omega),
        List.getElem?_drop, List.getElem?_toArray]
      congr 1
      omega

/-- The copies leave in a buffer what the bytes in front of the rest of it are. -/
theorem Sized.filled (h : s.Sized) (dst : List UInt8) :
    s.filled dst = (s.readInto dst).2.1 := by
  have hfits := h.fits
  have hplace := h.place_lt s.readPos
  have hfront : ∀ n ≤ s.len.toNat,
      (slice s.storage (s.place s.readPos) (s.firstPart (s.place s.readPos) n)).length
        = s.firstPart (s.place s.readPos) n := by
    intro n hn
    apply slice_length
    rw [firstPart]
    omega
  have hback : ∀ n ≤ s.len.toNat,
      (slice s.storage 0 (n - s.firstPart (s.place s.readPos) n)).length
        = n - s.firstPart (s.place s.readPos) n := by
    intro n hn
    apply slice_length
    rw [firstPart]
    omega
  have hn : min dst.length s.len.toNat ≤ s.len.toNat := Nat.min_le_right _ _
  have htwice := overwrite_twice dst
    (slice s.storage (s.place s.readPos)
      (s.firstPart (s.place s.readPos) (min dst.length s.len.toNat)))
    (slice s.storage 0
      (min dst.length s.len.toNat
        - s.firstPart (s.place s.readPos) (min dst.length s.len.toNat)))
  rw [hfront _ hn, hback _ hn] at htwice
  apply htwice
  rw [firstPart]
  omega

end Store

/-! ### One call -/

namespace Channel

variable {c : Channel} {capacity read : Nat} {f : Fifo capacity}

theorem move_sized (h : c.store.Sized) (m : Move) :
    (c.move m).state.store.Sized ∧
      (c.move m).state.store.storage.size = c.store.storage.size := by
  cases m with
  | put src =>
    obtain ⟨_, hsized, hsize, _⟩ := h.tryWrite src
    simp only [move, Outcome.map_state, tryWrite_store]
    exact ⟨hsized, hsize⟩
  | get dst =>
    obtain ⟨_, hsized, hsize, _⟩ := h.tryRead dst.length
    simp only [move, Outcome.map_state, tryRead_store h]
    exact ⟨hsized, hsize⟩

/-- No call leaves its bounds, whether or not the cursors tell positions apart. -/
theorem move_bounded (h : c.store.Sized) (m : Move) : c.Bounded m := by
  have hfits := h.fits
  constructor
  · rw [UInt64.le_iff_toNat_le, h.capacity_toNat]
    exact hfits
  · cases m with
    | put src =>
      have hn := (h.tryWrite src).1
      simp only [move, Outcome.map_answer, tryWrite_answer]
      exact h.within _ (by omega) (by omega)
    | get dst =>
      have hn := (h.tryRead dst.length).1
      simp only [move, Outcome.map_answer, tryRead_answer]
      exact h.within _ (by omega) (by omega)

theorem allBounded (ms : List Move) : ∀ c : Channel, c.store.Sized → c.AllBounded ms := by
  induction ms with
  | nil =>
    intro c _
    trivial
  | cons m ms ih =>
    intro c h
    exact ⟨move_bounded h m, ih _ (move_sized h m).1⟩

/-- A channel whose unread bytes are those of a queue, after `read` bytes that were read. -/
structure Stores (c : Channel) (read : Nat) (f : Fifo capacity) : Prop where
  size : c.store.storage.size = capacity
  holds : c.store.Holds read f.queued

theorem Stores.put (h : c.Stores read f) (hstraight : Straight capacity (read + f.queued.length))
    (src : List UInt8) :
    (c.move (.put src)).answer = (f.put src).1 ∧
      (c.move (.put src)).state.Stores read (f.put src).2 ∧
      (f.put src).2.queued.length = f.queued.length + (c.move (.put src)).answer.count := by
  have hstraight' : Straight c.store.storage.size (read + f.queued.length) := by
    rw [h.size]
    exact hstraight
  obtain ⟨hn, hholds⟩ := h.holds.tryWrite hstraight' src
  have hsize := (h.holds.sized.tryWrite src).2.2.1
  rw [h.size] at hn hsize
  rw [hn] at hholds
  simp only [move, Outcome.map_answer, Outcome.map_state, tryWrite_answer, hn]
  refine ⟨rfl, ⟨?_, ?_⟩, ?_⟩
  · rw [tryWrite_store]
    exact hsize
  · rw [tryWrite_store]
    exact hholds
  · show (f.queued ++ src.take _).length = _
    rw [List.length_append, List.length_take]
    omega

theorem Stores.get (h : c.Stores read f) (hstraight : Straight capacity read)
    (dst : List UInt8) :
    (c.move (.get dst)).answer = (f.get dst).1 ∧
      (c.move (.get dst)).state.Stores (read + (c.move (.get dst)).answer.count) (f.get dst).2 ∧
      (f.get dst).2.queued.length = f.queued.length - (c.move (.get dst)).answer.count ∧
      (c.move (.get dst)).answer.count ≤ f.queued.length := by
  have hstraight' : Straight c.store.storage.size read := by
    rw [h.size]
    exact hstraight
  obtain ⟨hbytes, hholds⟩ := h.holds.tryRead hstraight' dst.length
  have hlength := (h.holds.sized.tryRead dst.length).1
  rw [h.holds.len_toNat] at hlength
  have hfilled : c.store.filled dst
      = f.queued.take (min dst.length f.queued.length)
        ++ dst.drop (min dst.length f.queued.length) := by
    rw [h.holds.sized.filled]
    show (c.store.tryRead dst.length).1 ++ dst.drop (c.store.tryRead dst.length).1.length = _
    rw [hlength, hbytes]
  have hcount : (c.move (.get dst)).answer.count = min dst.length f.queued.length := by
    simp only [move, Outcome.map_answer, tryRead_answer, hlength]
  rw [hcount]
  refine ⟨?_, ⟨?_, ?_⟩, ?_, Nat.min_le_right _ _⟩
  · simp only [move, Outcome.map_answer, tryRead_answer, hlength, hfilled]
    rfl
  · simp only [move, Outcome.map_state, tryRead_store h.holds.sized]
    exact h.size
  · simp only [move, Outcome.map_state, tryRead_store h.holds.sized]
    exact hholds
  · show (f.queued.drop _).length = _
    rw [List.length_drop]

/-- The cursors stay below 2^64 through a sequence of calls, or the capacity divides 2^64. -/
def StraightOn (c : Channel) (capacity position : Nat) (ms : List Move) : Prop :=
  capacity ∣ UInt64.size ∨ position + c.committed ms < UInt64.size

theorem StraightOn.straight {position position' : Nat} {ms : List Move}
    (h : c.StraightOn capacity position ms) (hle : position' ≤ position) :
    Straight capacity position' := by
  rcases h with hdvd | hlt
  · exact Or.inl hdvd
  · refine Or.inr ?_
    omega

theorem StraightOn.tail {position position' : Nat} {m : Move} {ms : List Move}
    (h : c.StraightOn capacity position (m :: ms))
    (hposition : position' = position + m.committed (c.move m).answer) :
    (c.move m).state.StraightOn capacity position' ms := by
  rcases h with hdvd | hlt
  · exact Or.inl hdvd
  · refine Or.inr ?_
    rw [committed] at hlt
    omega

/-- A call does to the channel what it does to the queue. -/
theorem Stores.move {ms : List Move} {m : Move} (h : c.Stores read f)
    (hstraight : c.StraightOn capacity (read + f.queued.length) (m :: ms)) :
    (c.move m).answer = (f.move m).1 ∧ ∃ read',
      (c.move m).state.Stores read' (f.move m).2 ∧
      (c.move m).state.StraightOn capacity (read' + (f.move m).2.queued.length) ms := by
  cases m with
  | put src =>
    obtain ⟨hanswer, hstores, hlength⟩ := h.put (hstraight.straight (Nat.le_refl _)) src
    refine ⟨hanswer, read, hstores, hstraight.tail ?_⟩
    show read + (f.put src).2.queued.length = _
    rw [hlength, Move.committed, Nat.add_assoc]
  | get dst =>
    obtain ⟨hanswer, hstores, hlength, hle⟩ := h.get (hstraight.straight (Nat.le_add_right _ _)) dst
    refine ⟨hanswer, read + (c.move (.get dst)).answer.count, hstores, hstraight.tail ?_⟩
    show read + (c.move (.get dst)).answer.count + (f.get dst).2.queued.length = _
    rw [hlength, Move.committed]
    omega

/-! ### A sequence of calls -/

theorem Stores.straight_read {ms : List Move} (h : c.Stores read f)
    (hstraight : c.StraightOn capacity (read + f.queued.length) ms) :
    Straight c.store.storage.size read := by
  rw [h.size]
  exact hstraight.straight (Nat.le_add_right _ _)

theorem Stores.sights (ms : List Move) : ∀ {c : Channel} {read : Nat} {f : Fifo capacity},
    c.Stores read f → c.StraightOn capacity (read + f.queued.length) ms →
      c.sights ms = f.sights ms := by
  induction ms with
  | nil =>
    intro c read f _ _
    rfl
  | cons m ms ih =>
    intro c read f h hstraight
    obtain ⟨hanswer, read', hstores, hstraight'⟩ := h.move hstraight
    simp only [Channel.sights, Fifo.sights]
    rw [hanswer, hstores.holds.unread (hstores.straight_read hstraight'),
      hstores.holds.len_toNat, ih hstores hstraight']

theorem new_stores (hpos : 0 < capacity) (hword : capacity < UInt64.size) (observer : Observer) :
    (new capacity observer).Stores 0 (Fifo.empty : Fifo capacity) where
  size := Array.size_replicate
  holds := Store.new_holds hpos hword

/-- **A ring is a bounded queue of bytes.**  Whatever calls are made on it, with buffers of any
    length, each commits or reads as many bytes as the queue does, leaves the buffer as the queue
    does, and what is unread then is what is queued; and no call leaves its bounds.  Fewer than
    2^64 bytes are committed for that, or the capacity divides 2^64. -/
theorem acts_as_fifo {capacity : Nat} (hpos : 0 < capacity) (hword : capacity < UInt64.size)
    (observer : Observer) (ms : List Move)
    (hstraight : (new capacity observer).committed ms < UInt64.size ∨ capacity ∣ UInt64.size) :
    (new capacity observer).sights ms = (Fifo.empty : Fifo capacity).sights ms ∧
      (new capacity observer).AllBounded ms := by
  constructor
  · apply Stores.sights ms (new_stores hpos hword observer)
    rcases hstraight with hlt | hdvd
    · refine Or.inr ?_
      show 0 + 0 + (new capacity observer).committed ms < UInt64.size
      omega
    · exact Or.inl hdvd
  · exact allBounded ms _ (Store.new_sized hpos hword)

/-- Three bytes in a ring for three are read and written across the end of the array. -/
theorem acts_as_fifo_wrapped :
    let ms : List Move :=
      [.put [1, 2], .get [0], .put [3, 4, 5], .get [9, 9, 9, 9], .get [7], .put []]
    ((new 3 .quiet).committed ms < UInt64.size) ∧
      (new 3 .quiet).sights ms =
        [⟨⟨2, [1, 2]⟩, [1, 2], 2⟩, ⟨⟨1, [1]⟩, [2], 1⟩, ⟨⟨2, [3, 4, 5]⟩, [2, 3, 4], 3⟩,
          ⟨⟨3, [2, 3, 4, 9]⟩, [], 0⟩, ⟨⟨0, [7]⟩, [], 0⟩, ⟨⟨0, []⟩, [], 0⟩] ∧
      (new 3 .quiet).AllBounded ms := by
  intro ms
  have hshort : (new 3 .quiet).committed ms < UInt64.size := by decide
  obtain ⟨hsights, hbounded⟩ := acts_as_fifo (by decide) (by decide) .quiet ms (Or.inl hshort)
  refine ⟨hshort, ?_, hbounded⟩
  rw [hsights]
  rfl

/-! ### Where the cursors start -/

/-- An empty channel whose cursors stand at `p`. -/
def startingAt (capacity : Nat) (p : UInt64) (observer : Observer) : Channel :=
  { new capacity observer with store := Store.startingAt capacity p }

theorem startingAt_stores (hpos : 0 < capacity) (hword : capacity < UInt64.size) (p : UInt64)
    (observer : Observer) :
    (startingAt capacity p observer).Stores p.toNat (Fifo.empty : Fifo capacity) := by
  have hsize : (startingAt capacity p observer).store.storage.size = capacity :=
    Array.size_replicate
  refine ⟨hsize, ?_⟩
  constructor
  · rw [hsize]
    exact hpos
  · rw [hsize]
    exact hword
  · exact Nat.zero_le _
  · exact (Nat.mod_eq_of_lt p.toNat_lt).symm
  · exact (Nat.mod_eq_of_lt p.toNat_lt).symm
  · intro i hi
    exact absurd hi (Nat.not_lt_zero i)

/-- Two channels of one size with as many unread bytes, whatever these bytes and wherever the
    cursors are. -/
structure Levels (c c' : Channel) : Prop where
  sized : c.store.Sized
  sized' : c'.store.Sized
  size : c.store.storage.size = c'.store.storage.size
  len : c.store.len.toNat = c'.store.len.toNat

/-- A call moves as many bytes in the one as in the other. -/
theorem Levels.move {c c' : Channel} (h : Levels c c') (m : Move) :
    (c.move m).answer.count = (c'.move m).answer.count ∧
      Levels (c.move m).state (c'.move m).state := by
  obtain ⟨hsized, hsize⟩ := move_sized h.sized m
  obtain ⟨hsized', hsize'⟩ := move_sized h.sized' m
  have hsame := (hsize.trans h.size).trans hsize'.symm
  cases m with
  | put src =>
    obtain ⟨hn, _, _, hlen⟩ := h.sized.tryWrite src
    obtain ⟨hn', _, _, hlen'⟩ := h.sized'.tryWrite src
    rw [h.size, h.len, ← hn'] at hn
    refine ⟨?_, ⟨hsized, hsized', hsame, ?_⟩⟩
    · simp only [Channel.move, Outcome.map_answer, tryWrite_answer]
      exact hn
    · simp only [Channel.move, Outcome.map_state, tryWrite_store]
      rw [hlen, hlen', hn, h.len]
  | get dst =>
    obtain ⟨hn, _, _, hlen⟩ := h.sized.tryRead dst.length
    obtain ⟨hn', _, _, hlen'⟩ := h.sized'.tryRead dst.length
    rw [h.len] at hn hlen
    refine ⟨?_, ⟨hsized, hsized', hsame, ?_⟩⟩
    · simp only [Channel.move, Outcome.map_answer, tryRead_answer]
      exact hn.trans hn'.symm
    · simp only [Channel.move, Outcome.map_state, tryRead_store h.sized, tryRead_store h.sized']
      exact hlen.trans hlen'.symm

/-- How many bytes each call of a sequence moves. -/
def counts (c : Channel) (ms : List Move) : List Nat := (c.sights ms).map fun s => s.moved.count

theorem Levels.counts (ms : List Move) : ∀ {c c' : Channel}, Levels c c' →
    c.counts ms = c'.counts ms ∧ c.committed ms = c'.committed ms := by
  induction ms with
  | nil =>
    intro c c' _
    exact ⟨rfl, rfl⟩
  | cons m ms ih =>
    intro c c' h
    obtain ⟨hcount, hlevels⟩ := h.move m
    obtain ⟨hcounts, hcommitted⟩ := ih hlevels
    constructor
    · show (c.move m).answer.count :: _ = (c'.move m).answer.count :: _
      rw [hcount]
      exact congrArg _ hcounts
    · rw [committed, committed, hcommitted]
      cases m with
      | put src =>
        simp only [Move.committed, hcount]
      | get dst => rfl

theorem startingAt_levels (hpos : 0 < capacity) (hword : capacity < UInt64.size) (p : UInt64)
    (observer : Observer) :
    Levels (startingAt capacity p observer) (new capacity observer) := by
  have h := startingAt_stores hpos hword p observer
  have h' := new_stores hpos hword observer
  exact ⟨h.holds.sized, h'.holds.sized, h.size.trans h'.size.symm,
    h.holds.len_toNat.trans h'.holds.len_toNat.symm⟩

/-- Wherever the cursors start, calls move as many bytes as when they start at zero. -/
theorem counts_anywhere (hpos : 0 < capacity) (hword : capacity < UInt64.size) (p : UInt64)
    (observer : Observer) (ms : List Move) :
    (startingAt capacity p observer).counts ms = (new capacity observer).counts ms :=
  ((startingAt_levels hpos hword p observer).counts ms).1

/-- Wherever the cursors start, calls find the same bytes as when they start at zero, if the
    capacity divides 2^64 or the cursors do not wrap around on the way. -/
theorem sights_anywhere (hpos : 0 < capacity) (hword : capacity < UInt64.size) (p : UInt64)
    (observer : Observer) (ms : List Move)
    (hstraight : capacity ∣ UInt64.size ∨
      p.toNat + (new capacity observer).committed ms < UInt64.size) :
    (startingAt capacity p observer).sights ms = (new capacity observer).sights ms := by
  have hcommitted := ((startingAt_levels hpos hword p observer).counts ms).2
  rw [Stores.sights ms (startingAt_stores hpos hword p observer),
    Stores.sights ms (new_stores hpos hword observer)]
  · rcases hstraight with hdvd | hlt
    · exact Or.inl hdvd
    · refine Or.inr ?_
      show 0 + 0 + (new capacity observer).committed ms < UInt64.size
      omega
  · rcases hstraight with hdvd | hlt
    · exact Or.inl hdvd
    · refine Or.inr ?_
      rw [hcommitted]
      exact hlt

/-- **A capacity that does not divide 2^64 loses the order of the bytes when the cursors wrap
    around.**  Three bytes are committed to a ring for three, the first of them below 2^64; it is
    read, and then it is found once more in front of the second. -/
theorem order_lost_wrapping :
    let ms : List Move := [.put [1, 2, 3], .get [0], .get [0, 0]]
    (startingAt 3 (0 - 1) .quiet).counts ms = (new 3 .quiet).counts ms ∧
      ((new 3 .quiet).sights ms).map (fun s => s.moved.buffer) = [[1, 2, 3], [1], [2, 3]] ∧
      ((startingAt 3 (0 - 1) .quiet).sights ms).map (fun s => s.moved.buffer)
        = [[1, 2, 3], [1], [1, 2]] := by
  decide

end Channel

end Conduit.Ring

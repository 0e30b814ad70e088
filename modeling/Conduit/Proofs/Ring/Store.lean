/-
  Conduit/Proofs/Ring/Store.lean
  ==============================
  **A store is a bounded queue of bytes.**

  `Holds read q` says that `q` is unread and that `read` bytes were read before it: the
  cursors are `read` and `read + q.length` modulo 2^64, and the i-th byte of `q` lies in
  the cell `(read + i) % size`.  A transfer is an operation on `q` as long as cursors
  find their cells, which needs more than the cursors themselves: a position has to be
  below 2^64, or the size of the array has to divide 2^64 (`Straight`).

  How many bytes are unread and how many fit depends on the difference of the cursors
  alone, so `Sized` knows it under no such condition.
-/
import Conduit.Ring.Store
import Mathlib.Data.Nat.ModEq

namespace Conduit.Ring

/-! ### Arrays -/

theorem overwrite_size (bs : List UInt8) :
    ∀ (a : Array UInt8) (i : Nat), (overwrite a i bs).size = a.size := by
  induction bs with
  | nil => intro a i; rfl
  | cons b bs ih =>
    intro a i
    rw [overwrite, ih, Array.size_setIfInBounds]

/-- Overwriting changes the cells it reaches, and no others. -/
theorem overwrite_getElem? (bs : List UInt8) : ∀ (a : Array UInt8) (i j : Nat),
    (overwrite a i bs)[j]?
      = if i ≤ j ∧ j < i + bs.length ∧ j < a.size then bs[j - i]? else a[j]? := by
  induction bs with
  | nil =>
    intro a i j
    rw [overwrite, if_neg]
    rintro ⟨h1, h2, _⟩
    rw [List.length_nil] at h2
    omega
  | cons b bs ih =>
    intro a i j
    rw [overwrite, ih, Array.size_setIfInBounds, List.length_cons]
    by_cases hbehind : i + 1 ≤ j ∧ j < i + 1 + bs.length ∧ j < a.size
    · rw [if_pos hbehind, if_pos (by omega)]
      have hshift : j - i = (j - (i + 1)) + 1 := by omega
      rw [hshift, List.getElem?_cons_succ]
    · rw [if_neg hbehind, Array.getElem?_setIfInBounds]
      by_cases hij : i = j
      · subst hij
        by_cases hlt : i < a.size
        · rw [if_pos rfl, if_pos hlt, if_pos (by omega), Nat.sub_self, List.getElem?_cons_zero]
        · rw [if_pos rfl, if_neg hlt, if_neg (by omega), Array.getElem?_eq_none (by omega)]
      · rw [if_neg hij, if_neg (by omega)]

theorem slice_getElem? (a : Array UInt8) (i n j : Nat) :
    (slice a i n)[j]? = if j < n then a[i + j]? else none := by
  rw [slice, Array.getElem?_toList, Array.getElem?_extract]
  by_cases hj : j < n
  · rw [if_pos hj]
    by_cases hsize : i + j < a.size
    · rw [if_pos (by omega)]
    · rw [if_neg (by omega), Array.getElem?_eq_none (by omega)]
  · rw [if_neg hj, if_neg (by omega)]

theorem slice_length (a : Array UInt8) (i n : Nat) (h : i + n ≤ a.size) :
    (slice a i n).length = n := by
  rw [slice, Array.length_toList, Array.size_extract]
  omega

/-! ### Cells -/

/-- A position that is `k` cells further lies `k` places further, or so far past the end. -/
theorem add_mod_cases {size : Nat} (p k : Nat) (hpos : 0 < size) (hk : k ≤ size) :
    (p % size + k < size ∧ (p + k) % size = p % size + k) ∨
    (size ≤ p % size + k ∧ (p + k) % size = p % size + k - size) := by
  have hlt := Nat.mod_lt p hpos
  rw [← Nat.mod_add_mod]
  by_cases h : p % size + k < size
  · exact Or.inl ⟨h, Nat.mod_eq_of_lt h⟩
  · refine Or.inr ⟨Nat.not_lt.mp h, ?_⟩
    rw [Nat.mod_eq_sub_mod (by omega)]
    exact Nat.mod_eq_of_lt (by omega)

/-- A cursor at this position finds its cell in an array of this size. -/
def Straight (size position : Nat) : Prop := size ∣ UInt64.size ∨ position < UInt64.size

theorem Straight.mod {size position : Nat} (h : Straight size position) :
    position % UInt64.size % size = position % size := by
  rcases h with hdvd | hlt
  · exact Nat.mod_mod_of_dvd position hdvd
  · rw [Nat.mod_eq_of_lt hlt]

namespace Store

variable {s : Store} {read : Nat} {q : List UInt8}

/-! ### Sizes -/

/-- The array is neither empty nor too large for its size to be a word, and no more bytes are
    unread than fit. -/
structure Sized (s : Store) : Prop where
  pos : 0 < s.storage.size
  word : s.storage.size < UInt64.size
  fits : s.len.toNat ≤ s.storage.size

theorem Sized.capacity_toNat (h : s.Sized) : s.capacity.toNat = s.storage.size := by
  have hword := h.word
  have hmod : s.capacity.toNat = s.storage.size % UInt64.size := rfl
  rw [hmod, Nat.mod_eq_of_lt hword]

theorem Sized.free_toNat (h : s.Sized) : s.free.toNat = s.storage.size - s.len.toNat := by
  have hfits := h.fits
  have hword := h.word
  have hsize : UInt64.size = 18446744073709551616 := rfl
  rw [free, UInt64.toNat_sub, h.capacity_toNat]
  omega

theorem Sized.place_lt (h : s.Sized) (cursor : UInt64) : s.place cursor < s.storage.size := by
  rw [place, UInt64.toNat_mod, h.capacity_toNat]
  exact Nat.mod_lt _ h.pos

theorem new_sized {capacity : Nat} (hpos : 0 < capacity) (hword : capacity < UInt64.size) :
    (new capacity).Sized := by
  have hsize : (new capacity).storage.size = capacity := Array.size_replicate
  constructor
  · rw [hsize]
    exact hpos
  · rw [hsize]
    exact hword
  · have hlen : (new capacity).len = 0 := UInt64.sub_self 0
    rw [hlen]
    exact Nat.zero_le _

/-- How many bytes a write commits, and how many are unread then. -/
theorem Sized.tryWrite (h : s.Sized) (src : List UInt8) :
    (s.tryWrite src).1 = min src.length (s.storage.size - s.len.toNat) ∧
      (s.tryWrite src).2.Sized ∧
      (s.tryWrite src).2.storage.size = s.storage.size ∧
      (s.tryWrite src).2.len.toNat = s.len.toNat + (s.tryWrite src).1 := by
  have hfits := h.fits
  have hword := h.word
  have hn : (s.tryWrite src).1 = min src.length (s.storage.size - s.len.toNat) := by
    show min src.length s.free.toNat = _
    rw [h.free_toNat]
  have hsize : (s.tryWrite src).2.storage.size = s.storage.size := by
    show (overwrite (overwrite s.storage _ _) 0 _).size = _
    rw [overwrite_size, overwrite_size]
  have hlen : (s.tryWrite src).2.len.toNat = s.len.toNat + (s.tryWrite src).1 := by
    show (s.writePos + (s.tryWrite src).1.toUInt64 - s.readPos).toNat
      = (s.writePos - s.readPos).toNat + (s.tryWrite src).1
    have hread := s.readPos.toNat_lt
    have hdiff : (s.writePos - s.readPos).toNat ≤ s.storage.size := hfits
    have hlen' : s.len = s.writePos - s.readPos := rfl
    have hcount : (s.tryWrite src).1.toUInt64.toNat = (s.tryWrite src).1 % UInt64.size := rfl
    rw [hlen'] at hn
    rw [UInt64.toNat_sub] at hdiff hn ⊢
    rw [UInt64.toNat_sub, UInt64.toNat_add, hcount]
    simp only [UInt64.size] at hword ⊢
    omega
  refine ⟨hn, ⟨?_, ?_, ?_⟩, hsize, hlen⟩
  · rw [hsize]
    exact h.pos
  · rw [hsize]
    exact hword
  · rw [hsize, hlen, hn]
    omega

/-- How many bytes a read takes out, and how many stay unread. -/
theorem Sized.tryRead (h : s.Sized) (limit : Nat) :
    (s.tryRead limit).1.length = min limit s.len.toNat ∧
      (s.tryRead limit).2.Sized ∧
      (s.tryRead limit).2.storage.size = s.storage.size ∧
      (s.tryRead limit).2.len.toNat = s.len.toNat - min limit s.len.toNat := by
  have hfits := h.fits
  have hword := h.word
  have hplace := h.place_lt s.readPos
  have hlength : (s.tryRead limit).1.length = min limit s.len.toNat := by
    simp only [Store.tryRead, firstPart]
    rw [List.length_append, slice_length _ _ _ (by omega), slice_length _ _ _ (by omega)]
    omega
  have hlen : (s.tryRead limit).2.len.toNat = s.len.toNat - min limit s.len.toNat := by
    show (s.writePos - (s.readPos + (min limit s.len.toNat).toUInt64)).toNat = _
    have hread := s.readPos.toNat_lt
    have hwrite := s.writePos.toNat_lt
    have hcount : (min limit s.len.toNat).toUInt64.toNat
        = min limit s.len.toNat % UInt64.size := rfl
    have hlen' : s.len = s.writePos - s.readPos := rfl
    rw [UInt64.toNat_sub, UInt64.toNat_add, hcount]
    rw [hlen', UInt64.toNat_sub] at hfits ⊢
    simp only [UInt64.size] at hword ⊢
    omega
  refine ⟨hlength, ⟨h.pos, hword, ?_⟩, rfl, hlen⟩
  rw [hlen]
  exact Nat.le_trans (Nat.sub_le _ _) hfits

/-! ### Contents -/

/-- `q` is unread, after `read` bytes that were read before it. -/
structure Holds (read : Nat) (q : List UInt8) (s : Store) : Prop where
  pos : 0 < s.storage.size
  word : s.storage.size < UInt64.size
  fits : q.length ≤ s.storage.size
  readPos : s.readPos.toNat = read % UInt64.size
  writePos : s.writePos.toNat = (read + q.length) % UInt64.size
  cells : ∀ i < q.length, s.storage[(read + i) % s.storage.size]? = q[i]?

theorem Holds.len_toNat (h : s.Holds read q) : s.len.toNat = q.length := by
  have hfits := h.fits
  have hword := h.word
  rw [len, UInt64.toNat_sub, h.readPos, h.writePos]
  simp only [UInt64.size] at hword ⊢
  omega

theorem Holds.sized (h : s.Holds read q) : s.Sized :=
  ⟨h.pos, h.word, h.len_toNat ▸ h.fits⟩

theorem Holds.place_write (h : s.Holds read q)
    (hstraight : Straight s.storage.size (read + q.length)) :
    s.place s.writePos = (read + q.length) % s.storage.size := by
  rw [place, UInt64.toNat_mod, h.sized.capacity_toNat, h.writePos, hstraight.mod]

theorem Holds.place_read (h : s.Holds read q) (hstraight : Straight s.storage.size read) :
    s.place s.readPos = read % s.storage.size := by
  rw [place, UInt64.toNat_mod, h.sized.capacity_toNat, h.readPos, hstraight.mod]

theorem new_holds {capacity : Nat} (hpos : 0 < capacity) (hword : capacity < UInt64.size) :
    (new capacity).Holds 0 [] := by
  have hsize : (new capacity).storage.size = capacity := Array.size_replicate
  constructor
  · rw [hsize]
    exact hpos
  · rw [hsize]
    exact hword
  · exact Nat.zero_le _
  · rfl
  · rfl
  · intro i hi
    exact absurd hi (Nat.not_lt_zero i)

/-- Writing in two parts, up to the end of the array and on from its start, fills the cells behind
    the unread bytes and leaves theirs alone. -/
theorem Holds.cells_write (h : s.Holds read q) {src : List UInt8} {start first n i : Nat}
    (hstart : start = (read + q.length) % s.storage.size)
    (hfirst : first = min n (s.storage.size - start)) (hn : n ≤ src.length)
    (hroom : q.length + n ≤ s.storage.size) (hi : i < q.length + n) :
    (overwrite (overwrite s.storage start (src.take first)) 0
        ((src.drop first).take (n - first)))[(read + i) % s.storage.size]?
      = (q ++ src.take n)[i]? := by
  have hpos := h.pos
  have hplace := Nat.mod_lt read hpos
  have hstart_cases := add_mod_cases read q.length hpos (by omega)
  have hcell_cases := add_mod_cases read i hpos (by omega)
  have hcells := h.cells i
  have hfront : (src.take first).length = first := by
    rw [List.length_take]
    omega
  have hback : ((src.drop first).take (n - first)).length = n - first := by
    rw [List.length_take, List.length_drop]
    omega
  rw [← hstart] at hstart_cases
  rw [overwrite_getElem?, overwrite_getElem?, overwrite_size, hfront, hback]
  generalize (read + i) % s.storage.size = cell at hcell_cases hcells ⊢
  generalize read % s.storage.size = place at hplace hstart_cases hcell_cases
  by_cases hold : i < q.length
  · -- an unread byte lies between the cells that are written
    have hbehind : ¬ (0 ≤ cell ∧ cell < 0 + (n - first) ∧ cell < s.storage.size) := by
      rcases hstart_cases with ⟨_, _⟩ | ⟨_, _⟩ <;> rcases hcell_cases with ⟨_, _⟩ | ⟨_, _⟩ <;> omega
    have hahead : ¬ (start ≤ cell ∧ cell < start + first ∧ cell < s.storage.size) := by
      rcases hstart_cases with ⟨_, _⟩ | ⟨_, _⟩ <;> rcases hcell_cases with ⟨_, _⟩ | ⟨_, _⟩ <;> omega
    rw [if_neg hbehind, if_neg hahead, List.getElem?_append_left hold]
    exact hcells hold
  · have htaken : (q ++ src.take n)[i]? = src[i - q.length]? := by
      rw [List.getElem?_append_right (by omega), List.getElem?_take_of_lt (by omega)]
    rw [htaken]
    by_cases hfirst_part : i - q.length < first
    · have hcell : cell = start + (i - q.length) := by
        rcases hstart_cases with ⟨_, _⟩ | ⟨_, _⟩ <;> rcases hcell_cases with ⟨_, _⟩ | ⟨_, _⟩ <;>
          omega
      rw [if_neg (by omega), if_pos (by omega), hcell, Nat.add_sub_cancel_left,
        List.getElem?_take_of_lt hfirst_part]
    · have hcell : cell = i - q.length - first := by
        rcases hstart_cases with ⟨_, _⟩ | ⟨_, _⟩ <;> rcases hcell_cases with ⟨_, _⟩ | ⟨_, _⟩ <;>
          omega
      rw [if_pos (by omega), hcell, Nat.sub_zero, List.getElem?_take_of_lt (by omega),
        List.getElem?_drop]
      congr 1
      omega

theorem Holds.tryWrite (h : s.Holds read q)
    (hstraight : Straight s.storage.size (read + q.length)) (src : List UInt8) :
    (s.tryWrite src).1 = min src.length (s.storage.size - q.length) ∧
      (s.tryWrite src).2.Holds read (q ++ src.take (s.tryWrite src).1) := by
  have hfits := h.fits
  obtain ⟨hn, hsized, hsize, hlen⟩ := h.sized.tryWrite src
  rw [h.len_toNat] at hn hlen
  have hlength : (src.take (s.tryWrite src).1).length = (s.tryWrite src).1 := by
    rw [List.length_take]
    omega
  refine ⟨hn, ?_⟩
  constructor
  · exact hsized.pos
  · exact hsized.word
  · rw [List.length_append, hlength, hsize]
    omega
  · exact h.readPos
  · show (s.writePos + (s.tryWrite src).1.toUInt64).toNat = _
    have hcount : (s.tryWrite src).1.toUInt64.toNat = (s.tryWrite src).1 % UInt64.size := rfl
    rw [UInt64.toNat_add, h.writePos, hcount, List.length_append, hlength]
    simp only [UInt64.size]
    omega
  · intro i hi
    rw [List.length_append, hlength] at hi
    rw [hsize]
    have hsome : (s.tryWrite src).1 ≤ src.length := hn ▸ Nat.min_le_left _ _
    have hroom : q.length + (s.tryWrite src).1 ≤ s.storage.size := by
      rw [hn]
      omega
    exact h.cells_write (h.place_write hstraight) rfl hsome hroom hi

/-- Reading in two parts finds the oldest bytes in order. -/
theorem Holds.slices (h : s.Holds read q) {start first n : Nat}
    (hstart : start = read % s.storage.size) (hfirst : first = min n (s.storage.size - start))
    (hn : n ≤ q.length) :
    slice s.storage start first ++ slice s.storage 0 (n - first) = q.take n := by
  have hpos := h.pos
  have hfits := h.fits
  have hplace : start < s.storage.size := hstart ▸ Nat.mod_lt read hpos
  have hfront : (slice s.storage start first).length = first := slice_length _ _ _ (by omega)
  have hback : (slice s.storage 0 (n - first)).length = n - first :=
    slice_length _ _ _ (by omega)
  apply List.ext_getElem?
  intro i
  by_cases hi : i < n
  · have hcell_cases := add_mod_cases read i hpos (by omega)
    rw [← hstart] at hcell_cases
    rw [List.getElem?_take_of_lt hi, ← h.cells i (by omega)]
    by_cases hlt : i < first
    · rw [List.getElem?_append_left (by omega), slice_getElem?, if_pos hlt]
      congr 1
      omega
    · rw [List.getElem?_append_right (by omega), hfront, slice_getElem?, if_pos (by omega)]
      congr 1
      omega
  · rw [List.getElem?_eq_none, List.getElem?_eq_none]
    · rw [List.length_take]
      omega
    · rw [List.length_append, hfront, hback]
      omega

theorem Holds.tryRead (h : s.Holds read q) (hstraight : Straight s.storage.size read)
    (limit : Nat) :
    (s.tryRead limit).1 = q.take (min limit q.length) ∧
      (s.tryRead limit).2.Holds (read + min limit q.length) (q.drop (min limit q.length)) := by
  have hfits := h.fits
  have hbytes : (s.tryRead limit).1 = q.take (min limit q.length) := by
    rw [← h.slices (h.place_read hstraight) rfl (Nat.min_le_right limit q.length),
      ← h.len_toNat]
    rfl
  refine ⟨hbytes, ?_⟩
  constructor
  · exact h.pos
  · exact h.word
  · rw [List.length_drop]
    exact Nat.le_trans (Nat.sub_le _ _) h.fits
  · show (s.readPos + (min limit s.len.toNat).toUInt64).toNat = _
    have hcount : (min limit q.length).toUInt64.toNat = min limit q.length % UInt64.size := rfl
    rw [h.len_toNat, UInt64.toNat_add, h.readPos, hcount]
    simp only [UInt64.size]
    omega
  · rw [List.length_drop]
    have hsum : read + min limit q.length + (q.length - min limit q.length)
        = read + q.length := by omega
    rw [hsum]
    exact h.writePos
  · intro i hi
    rw [List.length_drop] at hi
    rw [List.getElem?_drop, Nat.add_assoc]
    exact h.cells _ (by omega)

theorem Holds.unread (h : s.Holds read q) (hstraight : Straight s.storage.size read) :
    s.unread = q := by
  rw [Store.unread, (h.tryRead hstraight _).1, h.len_toNat, Nat.min_self, List.take_length]

/-! ### A transfer of nothing -/

theorem tryWrite_none {src : List UInt8} (h : (s.tryWrite src).1 = 0) :
    (s.tryWrite src).2 = s := by
  have hn : min src.length s.free.toNat = 0 := h
  simp only [tryWrite, hn, firstPart, Nat.zero_min, List.take_zero, Nat.sub_zero, overwrite]
  rw [show (0 : Nat).toUInt64 = 0 from rfl, UInt64.add_zero]

theorem Sized.tryRead_none (h : s.Sized) {limit : Nat} (hnone : (s.tryRead limit).1 = []) :
    (s.tryRead limit).2 = s := by
  have hn : min limit s.len.toNat = 0 := by
    rw [← (h.tryRead limit).1, hnone, List.length_nil]
  simp only [Store.tryRead, hn]
  rw [show (0 : Nat).toUInt64 = 0 from rfl, UInt64.add_zero]

end Store

end Conduit.Ring

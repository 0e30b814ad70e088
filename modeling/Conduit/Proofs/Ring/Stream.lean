/-
  Conduit/Proofs/Ring/Stream.lean
  ===============================
  **What the operations of a channel do to the bytes on their way.**

  `Carries sent got` ties a store to a history: of the bytes `sent` the bytes `got` were
  taken out and the others are unread.  An operation `Transfers put took` if it extends
  every such history by what it put in and took out.  Transfers compose, so the spec of a
  call is the sum of its passes; signals, flags and stalls do not touch the store.
-/
import Conduit.Proofs.Ring.Store
import Conduit.Ring.Channel

namespace Conduit.Ring

open Signal (Slim WaitKey)

/-! ### Histories -/

/-- Of the bytes `sent`, `got` were taken out and the rest is unread.  Cursors tell positions
    apart below 2^64 only, and so does this. -/
def Carries (sent got : List UInt8) (s : Store) : Prop :=
  s.Sized ∧ (sent.length < UInt64.size → ∃ q, sent = got ++ q ∧ s.Holds got.length q)

/-- The store took the bytes `put` in and gave the bytes `took` away.  The count of unread bytes
    is right even where cursors no longer tell positions apart. -/
structure Transfers (put took : List UInt8) (s s' : Store) : Prop where
  size : s'.storage.size = s.storage.size
  count : s.Sized → s'.Sized ∧ s.len.toNat + put.length = took.length + s'.len.toNat
  carries : ∀ sent got, Carries sent got s → Carries (sent ++ put) (got ++ took) s'

theorem Carries.exact {sent got : List UInt8} {s : Store} (h : Carries sent got s)
    (hshort : sent.length < UInt64.size) :
    got ++ s.unread = sent ∧ s.unread.length ≤ s.storage.size ∧
      s.len.toNat = s.unread.length := by
  obtain ⟨q, hsent, hq⟩ := h.2 hshort
  have hgot : got.length < UInt64.size := by
    rw [hsent, List.length_append] at hshort
    omega
  have hunread : s.unread = q := hq.unread (Or.inr hgot)
  rw [hunread]
  exact ⟨hsent.symm, hq.fits, hq.len_toNat⟩

theorem new_carries {capacity : Nat} (hpos : 0 < capacity) (hword : capacity < UInt64.size) :
    Carries [] [] (Store.new capacity) := by
  refine ⟨Store.new_sized hpos hword, ?_⟩
  intro _
  exact ⟨[], rfl, Store.new_holds hpos hword⟩

namespace Transfers

variable {s s' s'' : Store} {put took put' took' : List UInt8}

theorem refl (s : Store) : Transfers [] [] s s := by
  refine ⟨rfl, fun hsized => ⟨hsized, (Nat.zero_add _).symm⟩, ?_⟩
  intro sent got h
  rw [List.append_nil, List.append_nil]
  exact h

theorem trans (h : Transfers put took s s') (h' : Transfers put' took' s' s'') :
    Transfers (put ++ put') (took ++ took') s s'' := by
  refine ⟨h'.size.trans h.size, ?_, ?_⟩
  · intro hsized
    obtain ⟨hsized', hcount⟩ := h.count hsized
    obtain ⟨hsized'', hcount'⟩ := h'.count hsized'
    refine ⟨hsized'', ?_⟩
    rw [List.length_append, List.length_append]
    omega
  · intro sent got hs
    have hs'' := h'.carries _ _ (h.carries sent got hs)
    rw [List.append_assoc, List.append_assoc] at hs''
    exact hs''

end Transfers

theorem Store.tryWrite_transfers (s : Store) (src : List UInt8) :
    Transfers (src.take (s.tryWrite src).1) [] s (s.tryWrite src).2 := by
  have hsize : (s.tryWrite src).2.storage.size = s.storage.size := by
    show (overwrite (overwrite s.storage _ _) 0 _).size = _
    rw [overwrite_size, overwrite_size]
  refine ⟨hsize, ?_, ?_⟩
  · intro hsized
    obtain ⟨hn, hsized', _, hlen⟩ := hsized.tryWrite src
    refine ⟨hsized', ?_⟩
    rw [List.length_take, List.length_nil]
    omega
  · rintro sent got ⟨hsized, hholds⟩
    refine ⟨(hsized.tryWrite src).2.1, ?_⟩
    intro hshort
    rw [List.length_append] at hshort
    obtain ⟨q, hsent, hq⟩ := hholds (by omega)
    have hstraight : Straight s.storage.size (got.length + q.length) := by
      right
      rw [hsent, List.length_append] at hshort
      omega
    refine ⟨q ++ src.take (s.tryWrite src).1, ?_, ?_⟩
    · rw [hsent, List.append_nil, List.append_assoc]
    · rw [List.append_nil]
      exact (hq.tryWrite hstraight src).2

theorem Store.tryRead_transfers (s : Store) (limit : Nat) :
    Transfers [] (s.tryRead limit).1 s (s.tryRead limit).2 := by
  refine ⟨rfl, ?_, ?_⟩
  · intro hsized
    obtain ⟨hlength, hsized', _, hlen⟩ := hsized.tryRead limit
    refine ⟨hsized', ?_⟩
    rw [List.length_nil]
    omega
  · rintro sent got ⟨hsized, hholds⟩
    refine ⟨(hsized.tryRead limit).2.1, ?_⟩
    intro hshort
    rw [List.append_nil] at hshort
    obtain ⟨q, hsent, hq⟩ := hholds hshort
    have hstraight : Straight s.storage.size got.length := by
      right
      rw [hsent, List.length_append] at hshort
      omega
    obtain ⟨hbytes, hrest⟩ := hq.tryRead hstraight limit
    refine ⟨q.drop (min limit q.length), ?_, ?_⟩
    · rw [hbytes, List.append_nil, List.append_assoc, List.take_append_drop]
      exact hsent
    · have hcount : (got ++ (s.tryRead limit).1).length = got.length + min limit q.length := by
        rw [List.length_append, hbytes, List.length_take]
        omega
      rw [hcount]
      exact hrest

/-! ### Operations that move no bytes -/

namespace Channel

variable (c : Channel)

@[simp] theorem onData_store {α : Type} (o : Outcome α Slim) :
    (c.onData o).state.store = c.store := rfl

@[simp] theorem closeWriter_store : c.closeWriter.state.store = c.store := by
  rw [closeWriter]
  split <;> rfl

@[simp] theorem closeReader_store : c.closeReader.state.store = c.store := by
  rw [closeReader]
  split <;> rfl

/-! ### Single transfers -/

theorem tryWrite_answer (src : List UInt8) :
    (c.tryWrite src).answer = (c.store.tryWrite src).1 := by
  rw [tryWrite]
  split
  · rename_i store hnone
    rw [hnone]
    rfl
  · rename_i n store _ hcommit
    rw [hcommit]
    rfl

theorem tryWrite_store (src : List UInt8) :
    (c.tryWrite src).state.store = (c.store.tryWrite src).2 := by
  rw [tryWrite]
  split
  · rename_i store hnone
    exact (Store.tryWrite_none (congrArg Prod.fst hnone)).symm
  · rename_i n store _ hcommit
    rw [hcommit]
    rfl

theorem tryRead_answer (limit : Nat) :
    (c.tryRead limit).answer = (c.store.tryRead limit).1 := by
  rw [tryRead]
  split
  · rename_i store hnone
    rw [hnone]
    rfl
  · rename_i bytes store _ htaken
    rw [htaken]
    rfl

theorem tryRead_store {c : Channel} (h : c.store.Sized) (limit : Nat) :
    (c.tryRead limit).state.store = (c.store.tryRead limit).2 := by
  rw [tryRead]
  split
  · rename_i store hnone
    exact (h.tryRead_none (congrArg Prod.fst hnone)).symm
  · rename_i bytes store _ htaken
    rw [htaken]
    rfl

theorem tryWrite_transfers (src : List UInt8) :
    Transfers (src.take (c.tryWrite src).answer) [] c.store (c.tryWrite src).state.store := by
  rw [tryWrite]
  split
  · exact Transfers.refl c.store
  · rename_i n store hn hcommit
    have htransfers := c.store.tryWrite_transfers src
    rw [hcommit] at htransfers
    exact htransfers

theorem tryWrite_le (src : List UInt8) : (c.tryWrite src).answer ≤ src.length := by
  rw [tryWrite]
  split
  · exact Nat.zero_le _
  · rename_i n store hn hcommit
    have hle : (c.store.tryWrite src).1 ≤ src.length := Nat.min_le_left _ _
    rw [hcommit] at hle
    exact hle

theorem tryWrite_readerClosed (src : List UInt8) :
    (c.tryWrite src).state.readerClosed = c.readerClosed := by
  rw [tryWrite]
  split <;> rfl

theorem tryRead_transfers (limit : Nat) :
    Transfers [] (c.tryRead limit).answer c.store (c.tryRead limit).state.store := by
  rw [tryRead]
  split
  · exact Transfers.refl c.store
  · rename_i bytes store hbytes htaken
    have htransfers := c.store.tryRead_transfers limit
    rw [htaken] at htransfers
    exact htransfers

end Channel

/-! ### Reads -/

/-- The bytes that a polled read hands out. -/
def Poll.handed : Option (Poll (List UInt8)) → List UInt8
  | some (.ready bytes) => bytes
  | _ => []

/-- The bytes that a blocking read hands out. -/
def Blocking.handed : Option (Blocking (List UInt8)) → List UInt8
  | some (.returned bytes) => bytes
  | _ => []

/-- The bytes that a timed read hands out. -/
def handedInTime : Option (Except ReadTimeout (List UInt8)) → List UInt8
  | some (.ok bytes) => bytes
  | _ => []

/-- If each pass of a read hands out what it takes, so does the read, which hands out nothing when
    its passes are exhausted. -/
theorem reading_loop {σ β : Type} (store : σ → Store) {pass : σ → Outcome (Option β) σ}
    {handed : Option β → List UInt8} {stopped : β} (hnone : handed none = [])
    (hstopped : handed (some stopped) = [])
    (hpass : ∀ s, Transfers [] (handed (pass s).answer) (store s) (store (pass s).state))
    (bound : Nat) (s : σ) :
    Transfers [] (handed (some ((Outcome.loop pass bound s).answer.getD stopped))) (store s)
      (store (Outcome.loop pass bound s).state) := by
  apply Outcome.loop_rule (Q := fun s b s' =>
    Transfers [] (handed (some (b.getD stopped))) (store s) (store s'))
  · intro s
    rw [Option.getD_none, hstopped]
    exact Transfers.refl (store s)
  · intro s b hb
    have h := hpass s
    rw [hb] at h
    exact h
  · intro s b s' hb hrest
    have h := hpass s
    rw [hb, hnone] at h
    exact h.trans hrest

/-- An attempt to read that hands out what it takes, or takes nothing and goes on. -/
theorem attempt_transfers {σ α : Type} (store : σ → Store) (handed : α → List UInt8)
    {finish : List UInt8 → Channel → Outcome α σ} {rest : Channel → Outcome α σ}
    (hover : ∀ bytes c, handed (finish bytes c).answer = bytes ∧
      store (finish bytes c).state = c.store)
    (hrest : ∀ c, handed (rest c).answer = [] ∧ store (rest c).state = c.store)
    (limit : Nat) (c : Channel) (o : Outcome α σ)
    (ho : o = (c.tryRead limit).andThen fun bytes c =>
      if ¬ bytes.isEmpty ∨ c.writerClosed then finish bytes c else rest c) :
    Transfers [] (handed o.answer) c.store (store o.state) := by
  have h := c.tryRead_transfers limit
  subst ho
  simp only [Outcome.andThen_answer, Outcome.andThen_state]
  by_cases hstop : ¬ (c.tryRead limit).answer.isEmpty ∨ (c.tryRead limit).state.writerClosed
  · rw [if_pos hstop, (hover _ _).1, (hover _ _).2]
    exact h
  · rw [if_neg hstop, (hrest _).1, (hrest _).2]
    rw [not_or, not_not, List.isEmpty_iff] at hstop
    rw [hstop.1] at h
    exact h

theorem readPass_transfers (w : Waker) (limit : Nat) (s : Keyed) :
    Transfers [] (Poll.handed (readPass w limit s).answer) s.1.store
      (readPass w limit s).state.1.store := by
  refine attempt_transfers (fun s : Keyed => s.1.store) Poll.handed ?_ ?_ limit s.1 _ rfl
  · intro bytes c
    exact ⟨rfl, rfl⟩
  · intro c
    simp only [Outcome.andThen_answer, Outcome.andThen_state]
    split
    · exact ⟨rfl, rfl⟩
    · exact ⟨rfl, rfl⟩

theorem blockingReadPass_transfers (limit : Nat) (c : Channel) :
    Transfers [] (Blocking.handed (blockingReadPass limit c).answer) c.store
      (blockingReadPass limit c).state.store := by
  refine attempt_transfers Channel.store Blocking.handed ?_ ?_ limit c _ rfl
  · intro bytes c
    exact ⟨rfl, rfl⟩
  · intro c
    simp only [Outcome.andThen_answer, Outcome.andThen_state, Outcome.map_answer]
    split
    · exact ⟨rfl, rfl⟩
    · exact ⟨rfl, rfl⟩

theorem timedReadPass_transfers (limit : Nat) (c : Channel) :
    Transfers [] (handedInTime (timedReadPass limit c).answer) c.store
      (timedReadPass limit c).state.store := by
  refine attempt_transfers Channel.store handedInTime ?_ ?_ limit c _ rfl
  · intro bytes c
    exact ⟨rfl, rfl⟩
  · intro c
    simp only [Outcome.andThen_answer, Outcome.andThen_state, Outcome.map_answer]
    split
    · exact ⟨rfl, rfl⟩
    · exact ⟨rfl, rfl⟩

theorem pollRead_transfers (w : Waker) (limit : Nat) (s : Keyed) :
    Transfers [] (Poll.handed (some (pollRead w limit s).answer)) s.1.store
      (pollRead w limit s).state.1.store := by
  rw [pollRead]
  by_cases hzero : limit = 0
  · rw [if_pos hzero]
    exact Transfers.refl s.1.store
  · rw [if_neg hzero]
    exact reading_loop (fun s : Keyed => s.1.store) rfl rfl (readPass_transfers w limit) _ s

theorem blockingRead_transfers (limit : Nat) (c : Channel) :
    Transfers [] (Blocking.handed (some (blockingRead limit c).answer)) c.store
      (blockingRead limit c).state.store := by
  rw [blockingRead]
  by_cases hzero : limit = 0
  · rw [if_pos hzero]
    exact Transfers.refl c.store
  · rw [if_neg hzero]
    exact reading_loop Channel.store rfl rfl (blockingReadPass_transfers limit) _ c

theorem timedRead_transfers (limit : Nat) (c : Channel) :
    Transfers [] (handedInTime (some (timedRead limit c).answer)) c.store
      (timedRead limit c).state.store := by
  rw [timedRead]
  by_cases hzero : limit = 0
  · rw [if_pos hzero]
    exact Transfers.refl c.store
  · rw [if_neg hzero]
    exact reading_loop Channel.store rfl rfl (timedReadPass_transfers limit) _ c

theorem resumeRead_transfers (limit : Nat) (c : Channel) :
    Transfers [] (Blocking.handed (some (resumeRead limit c).answer)) c.store
      (resumeRead limit c).state.store := by
  simp only [resumeRead, Outcome.andThen_answer, Outcome.andThen_state]
  split
  · exact blockingRead_transfers limit _
  · exact Transfers.refl c.store

theorem timeUpRead_transfers (limit : Nat) (c : Channel) :
    Transfers [] (handedInTime (some (timeUpRead limit c).answer)) c.store
      (timeUpRead limit c).state.store := by
  rw [← c.onData_store (c.dataReady.timeUp (threadOf .reader))]
  simp only [timeUpRead, Outcome.andThen_answer, Outcome.andThen_state]
  generalize (c.onData (c.dataReady.timeUp (threadOf .reader))).state = c'
  split
  · exact timedRead_transfers limit c'
  · refine attempt_transfers Channel.store (fun r => handedInTime (some r)) ?_ ?_ limit c' _ rfl
    · intro bytes c
      exact ⟨rfl, rfl⟩
    · intro c
      exact ⟨rfl, rfl⟩

/-! ### Partial writes -/

/-- What an answer says about a partial write: how many bytes it committed, or none. -/
def Commits (src : List UInt8) (s s' : Store) : Except RingClosed Nat → Prop
  | .ok n => n ≤ src.length ∧ Transfers (src.take n) [] s s'
  | .error e => e.written = 0 ∧ Transfers [] [] s s'

/-- What a poll says about a partial write, which commits nothing while it waits. -/
def PollCommits (src : List UInt8) (s s' : Store) :
    Option (Poll (Except RingClosed Nat)) → Prop
  | some (.ready r) => Commits src s s' r
  | _ => Transfers [] [] s s'

theorem offer_commits (src : List UInt8) (c : Channel) :
    Commits src c.store (c.offer src).state.store (c.offer src).answer := by
  rw [Channel.offer]
  split
  · exact ⟨rfl, Transfers.refl c.store⟩
  · exact ⟨c.tryWrite_le src, c.tryWrite_transfers src⟩

theorem writePass_commits (w : Waker) (src : List UInt8) (s : Keyed) :
    PollCommits src s.1.store (writePass w src s).state.1.store (writePass w src s).answer := by
  rw [writePass]
  split
  · exact ⟨rfl, Transfers.refl s.1.store⟩
  · have hmoved := s.1.tryWrite_transfers src
    have hle := s.1.tryWrite_le src
    simp only [Outcome.andThen_answer, Outcome.andThen_state]
    by_cases hsome : 0 < (s.1.tryWrite src).answer
    · rw [if_pos hsome]
      exact ⟨hle, hmoved⟩
    · rw [if_neg hsome]
      have hnone : (s.1.tryWrite src).answer = 0 := by omega
      rw [hnone, List.take_zero] at hmoved
      simp only [Outcome.andThen_answer, Outcome.andThen_state]
      split
      · exact hmoved
      · exact hmoved

theorem PollCommits.after {src : List UInt8} {s s' s'' : Store}
    {r : Option (Poll (Except RingClosed Nat))} (h : Transfers [] [] s s')
    (hr : PollCommits src s' s'' r) : PollCommits src s s'' r := by
  rcases r with _ | ⟨_ | _⟩ | _
  · exact h.trans hr
  · exact ⟨hr.1, h.trans hr.2⟩
  · exact ⟨hr.1, h.trans hr.2⟩
  · exact h.trans hr

theorem pollWrite_commits (w : Waker) (src : List UInt8) (s : Keyed) :
    PollCommits src s.1.store (pollWrite w src s).state.1.store
      (some (pollWrite w src s).answer) := by
  rw [pollWrite]
  split
  · exact ⟨rfl, Transfers.refl s.1.store⟩
  · split
    · exact ⟨Nat.zero_le _, Transfers.refl s.1.store⟩
    · rw [Outcome.map_answer, Outcome.map_state]
      apply Outcome.loop_rule (Q := fun (s : Keyed) b (s' : Keyed) =>
        PollCommits src s.1.store s'.1.store (some (b.getD .pending)))
      · intro s
        exact Transfers.refl s.1.store
      · intro s b hb
        have h := writePass_commits w src s
        rw [hb] at h
        exact h
      · intro s b s' hb hrest
        have h := writePass_commits w src s
        rw [hb] at h
        exact PollCommits.after h hrest

/-! ### Writes under way -/

/-- A write of `data` that had committed `before` bytes has now committed `after`. -/
structure Writes (data : List UInt8) (before after : Nat) (s s' : Store) : Prop where
  le : before ≤ after
  within : before ≤ data.length → after ≤ data.length
  transfers : Transfers ((data.drop before).take (after - before)) [] s s'

namespace Writes

variable {data : List UInt8} {i j k : Nat} {s s' s'' : Store}

theorem refl (data : List UInt8) (i : Nat) (s : Store) : Writes data i i s s := by
  refine ⟨Nat.le_refl i, id, ?_⟩
  rw [Nat.sub_self, List.take_zero]
  exact Transfers.refl s

theorem trans (h : Writes data i j s s') (h' : Writes data j k s' s'') :
    Writes data i k s s'' := by
  refine ⟨Nat.le_trans h.le h'.le, fun hi => h'.within (h.within hi), ?_⟩
  have hle := h.le
  have hle' := h'.le
  have hsplit : (data.drop i).take (k - i)
      = (data.drop i).take (j - i) ++ (data.drop j).take (k - j) := by
    have hk : k - i = (j - i) + (k - j) := by omega
    have hj : i + (j - i) = j := by omega
    rw [hk, List.take_add, List.drop_drop, hj]
  rw [hsplit]
  exact h.transfers.trans h'.transfers

/-- A partial write of what is left. -/
theorem of_rest {n : Nat} (hn : n ≤ (data.drop i).length)
    (h : Transfers ((data.drop i).take n) [] s s') : Writes data i (i + n) s s' := by
  rw [List.length_drop] at hn
  refine ⟨Nat.le_add_right i n, ?_, ?_⟩
  · intro hi
    omega
  · rw [Nat.add_sub_cancel_left]
    exact h

/-- The bytes that are committed now are those that were and those that were put in. -/
theorem take_append (h : Writes data i j s s') :
    data.take i ++ (data.drop i).take (j - i) = data.take j := by
  rw [← List.take_add, Nat.add_sub_cancel' h.le]

end Writes

/-- What the answer of a polled write of a whole buffer says about the bytes it committed. -/
def Writing.Reports (data : List UInt8) (written : Nat) :
    Option (Poll (Except RingClosed Unit)) → Prop
  | some (.ready (.ok ())) => data.length ≤ written
  | some (.ready (.error e)) => e.written = written
  | _ => True

theorem writeAllPass_writes (w : Waker) (data : List UInt8) (s : Writing) :
    Writes data s.2 (writeAllPass w data s).state.2 s.1.1.store
        (writeAllPass w data s).state.1.1.store ∧
      Writing.Reports data (writeAllPass w data s).state.2 (writeAllPass w data s).answer := by
  rw [writeAllPass]
  by_cases hall : data.length ≤ s.2
  · rw [if_pos hall]
    exact ⟨Writes.refl data s.2 s.1.1.store, hall⟩
  · rw [if_neg hall]
    have h := pollWrite_commits w (data.drop s.2) s.1
    simp only [Outcome.andThen_answer, Outcome.andThen_state]
    rcases hr : (pollWrite w (data.drop s.2) s.1).answer with (e | n) | _
    · rw [hr] at h
      exact ⟨Writes.of_rest (n := 0) (Nat.zero_le _) h.2, rfl⟩
    · rw [hr] at h
      exact ⟨Writes.of_rest h.1 h.2, trivial⟩
    · rw [hr] at h
      exact ⟨Writes.of_rest (n := 0) (Nat.zero_le _) h, trivial⟩

theorem pollWriteAll_writes (w : Waker) (data : List UInt8) (s : Writing) :
    Writes data s.2 (pollWriteAll w data s).state.2 s.1.1.store
        (pollWriteAll w data s).state.1.1.store ∧
      Writing.Reports data (pollWriteAll w data s).state.2
        (some (pollWriteAll w data s).answer) := by
  rw [pollWriteAll, Outcome.map_answer, Outcome.map_state]
  apply Outcome.loop_rule (Q := fun (s : Writing) b (s' : Writing) =>
    Writes data s.2 s'.2 s.1.1.store s'.1.1.store ∧
      Writing.Reports data s'.2 (some (b.getD .pending)))
  · intro s
    exact ⟨Writes.refl data s.2 s.1.1.store, trivial⟩
  · intro s b hb
    have h := writeAllPass_writes w data s
    rw [hb] at h
    exact h
  · intro s b s' hb hrest
    exact ⟨(writeAllPass_writes w data s).1.trans hrest.1, hrest.2⟩

/-! ### Blocking writes -/

/-- What the answer of a blocking write says about the bytes it committed.  A write that meets a
    closed ring meets it before it commits anything: the ring was closed while it slept, or
    before it began. -/
def WriteMode.Reports (mode : WriteMode) (data : List UInt8) (before after : Nat) (closed : Bool) :
    Option (Blocking (Except RingClosed Nat)) → Prop
  | some (.returned (.ok n)) => n = after ∧ mode.isOver after data.length
  | some (.returned (.error e)) => closed = true ∧ after = before ∧ e.written = mode.reported before
  | _ => True

theorem blockingWritePass_writes (mode : WriteMode) (data : List UInt8) (s : Committing) :
    Writes data s.2 (blockingWritePass mode data s).state.2 s.1.store
        (blockingWritePass mode data s).state.1.store ∧
      mode.Reports data s.2 (blockingWritePass mode data s).state.2 s.1.readerClosed
        (blockingWritePass mode data s).answer := by
  rw [blockingWritePass]
  by_cases hover : mode.isOver s.2 data.length
  · rw [if_pos hover]
    exact ⟨Writes.refl data s.2 s.1.store, rfl, hover⟩
  · rw [if_neg hover]
    by_cases hclosed : s.1.readerClosed
    · rw [if_pos hclosed]
      exact ⟨Writes.refl data s.2 s.1.store, hclosed, rfl, rfl⟩
    · rw [if_neg hclosed]
      have hmoved := s.1.tryWrite_transfers (data.drop s.2)
      have hle := s.1.tryWrite_le (data.drop s.2)
      simp only [Outcome.andThen_answer, Outcome.andThen_state]
      by_cases hsome : 0 < (s.1.tryWrite (data.drop s.2)).answer
      · rw [if_pos hsome]
        exact ⟨Writes.of_rest hle hmoved, trivial⟩
      · rw [if_neg hsome]
        have hnone : (s.1.tryWrite (data.drop s.2)).answer = 0 := by omega
        rw [hnone] at hmoved
        simp only [Outcome.andThen_answer, Outcome.andThen_state, Outcome.map_answer]
        refine ⟨Writes.of_rest (n := 0) (Nat.zero_le _) hmoved, ?_⟩
        split
        · trivial
        · trivial

/-- A pass that asks for another found the ring open, and leaves it so. -/
theorem blockingWritePass_open (mode : WriteMode) (data : List UInt8) (s : Committing)
    (h : (blockingWritePass mode data s).answer = none) :
    s.1.readerClosed = false ∧ (blockingWritePass mode data s).state.1.readerClosed = false := by
  revert h
  rw [blockingWritePass]
  split
  · intro h
    cases h
  · split
    · intro h
      cases h
    · rename_i hopen
      have hkeeps := s.1.tryWrite_readerClosed (data.drop s.2)
      rw [Bool.not_eq_true] at hopen
      rw [hopen] at hkeeps
      intro _
      refine ⟨hopen, ?_⟩
      simp only [Outcome.andThen_state]
      split
      · exact hkeeps
      · exact hkeeps

theorem blockingWrite_writes (mode : WriteMode) (data : List UInt8) (s : Committing) :
    Writes data s.2 (blockingWrite mode data s).state.2 s.1.store
        (blockingWrite mode data s).state.1.store ∧
      mode.Reports data s.2 (blockingWrite mode data s).state.2 s.1.readerClosed
        (some (blockingWrite mode data s).answer) := by
  rw [blockingWrite, Outcome.map_answer, Outcome.map_state]
  apply Outcome.loop_rule (Q := fun (s : Committing) b (s' : Committing) =>
    Writes data s.2 s'.2 s.1.store s'.1.store ∧
      mode.Reports data s.2 s'.2 s.1.readerClosed (some (b.getD .asleep)))
  · intro s
    exact ⟨Writes.refl data s.2 s.1.store, trivial⟩
  · intro s b hb
    have h := blockingWritePass_writes mode data s
    rw [hb] at h
    exact h
  · rintro s b s' hb ⟨hmoved, hreport⟩
    refine ⟨(blockingWritePass_writes mode data s).1.trans hmoved, ?_⟩
    obtain ⟨_, hopen⟩ := blockingWritePass_open mode data s hb
    rw [hopen] at hreport
    rcases b with _ | (e | n) | _
    · trivial
    · cases hreport.1
    · exact hreport
    · trivial

theorem resumeWrite_writes (mode : WriteMode) (data : List UInt8) (s : Committing) :
    Writes data s.2 (resumeWrite mode data s).state.2 s.1.store
        (resumeWrite mode data s).state.1.store ∧
      mode.Reports data s.2 (resumeWrite mode data s).state.2 s.1.readerClosed
        (some (resumeWrite mode data s).answer) := by
  simp only [resumeWrite, Outcome.andThen_answer, Outcome.andThen_state]
  split
  · exact blockingWrite_writes mode data ((s.1.onSpace s.1.spaceReady.resume).state, s.2)
  · exact ⟨Writes.refl data s.2 s.1.store, trivial⟩

end Conduit.Ring

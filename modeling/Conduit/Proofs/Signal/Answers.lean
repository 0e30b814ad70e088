/-
  Conduit/Proofs/Signal/Answers.lean
  ==================================
  **Every request is answered.**

  One lemma for each kind of request, all for the same conclusion (`Answered`): the
  operations on the signal alone, those of threads, those on a wait, those on a key.
  `request_answered` puts them together.
-/
import Conduit.Proofs.Signal.Roster

namespace Conduit.Signal.Session

open Tracked Staged

variable {σ ω τ : Type} [Facilities σ ω] [Staged ω τ] [Tracked σ ω τ] [LawfulSignal σ ω τ]
variable {s : Session σ ω} {orphans : List τ} {age : Nat}

/-- A refused request changes nothing. -/
theorem refused (hfits : Fits orphans age s) {r : Request} {reply : Reply}
    (hmoves : s.moves r reply = []) (hpolls : ∀ h, s.ticket? h ≠ none → r.polls h = none) :
    Answered orphans age s r (.pure reply s) :=
  answered_untouched hfits rfl rfl rfl rfl hmoves hpolls

/-! ### The signal alone -/

theorem set_answered (hfits : Fits orphans age s) (sparse : Sparse s.signal) :
    Answered orphans age s .set (s.request .set) := by
  obtain ⟨hsound, hturn⟩ := LawfulSignal.set hfits.sound sparse
  exact answered_alone hfits rfl rfl hfits.threads hsound hturn fun _ _ => rfl

theorem tryWait_answered (hfits : Fits orphans age s) :
    Answered orphans age s .tryWait (s.request .tryWait) := by
  obtain ⟨hsound, hturn⟩ := LawfulSignal.tryWait hfits.sound
  refine answered_alone hfits rfl rfl hfits.threads hsound ?_ fun _ _ => rfl
  show Turn _ _ _ (s.moves .tryWait (.truth (AutoReset.tryWait s.signal).answer)) none
  cases hanswer : (AutoReset.tryWait s.signal).answer with
  | true =>
    rw [hanswer] at hturn
    exact hturn
  | false =>
    rw [hanswer] at hturn
    exact hturn

/-! ### Threads -/

/-- A wait that is over at once, asked for by either request for it. -/
theorem expired_answered (hfits : Fits orphans age s) (sparse : Sparse s.signal) {r : Request}
    {expire : σ → Outcome Bool σ}
    (hoffered : Facilities.expire? = some expire ∨ Facilities.pastDeadline? = some expire)
    (hmoves : ∀ b, s.moves r (.truth b) = if b then [.take] else [.join, .withdraw])
    (hpolls : ∀ h, r.polls h = none) :
    Answered orphans age s r ((s.onSignal (expire s.signal)).map .truth) := by
  obtain ⟨hsound, hturn⟩ := LawfulSignal.expire hoffered hfits.sound sparse
  refine answered_alone hfits rfl rfl hfits.threads hsound ?_ fun h _ => hpolls h
  show Turn _ _ _ (s.moves r (.truth (expire s.signal).answer)) none
  rw [hmoves]
  exact hturn

theorem expire_answered (hfits : Fits orphans age s) (sparse : Sparse s.signal) :
    Answered orphans age s .expire (s.request .expire) := by
  simp only [request, offered]
  cases hoffered : Facilities.expire? (σ := σ) with
  | none => exact refused hfits rfl fun _ _ => rfl
  | some expire =>
    refine expired_answered hfits sparse (Or.inl hoffered) (fun b => ?_) fun _ => rfl
    cases b <;> rfl

theorem pastDeadline_answered (hfits : Fits orphans age s) (sparse : Sparse s.signal) :
    Answered orphans age s .pastDeadline (s.request .pastDeadline) := by
  simp only [request, offered]
  cases hoffered : Facilities.pastDeadline? (σ := σ) with
  | none => exact refused hfits rfl fun _ _ => rfl
  | some expire =>
    refine expired_answered hfits sparse (Or.inr hoffered) (fun b => ?_) fun _ => rfl
    cases b <;> rfl

theorem block_answered (hfits : Fits orphans age s) (sparse : Sparse s.signal) (id : Thread) :
    Answered orphans age s (.block id) (s.request (.block id)) := by
  simp only [request, offered]
  cases hoffered : Facilities.block? (σ := σ) with
  | none => exact refused hfits rfl fun _ _ => rfl
  | some block =>
    simp only []
    cases hbusy : s.blocked.contains id with
    | true =>
      rw [if_pos rfl]
      exact refused hfits rfl fun _ _ => rfl
    | false =>
      rw [if_neg (by simp)]
      have hfree : id ∉ s.blocked := fun hmem => by
        rw [List.contains_iff_mem.mpr hmem] at hbusy
        exact absurd hbusy (by decide)
      rcases LawfulSignal.block hoffered id hfits.sound sparse with
        ⟨hanswer, hsound, hturn⟩ | ⟨hanswer, hsound, hturn⟩
      · have hcase : ((s.onSignal (block id s.signal)).andThen fun released s =>
            if released then .pure Reply.released s
            else .pure Reply.started { s with blocked := s.blocked ++ [id] })
            = (s.onSignal (block id s.signal)).map fun _ => Reply.released := by
          simp only [onSignal, Outcome.andThen, Outcome.lift, hanswer, if_true, Outcome.pure,
            Outcome.map, List.append_nil]
        rw [hcase]
        exact answered_alone hfits rfl rfl hfits.threads hsound hturn fun _ _ => rfl
      · have hcase : ((s.onSignal (block id s.signal)).andThen fun released s =>
            if released then .pure Reply.released s
            else .pure Reply.started { s with blocked := s.blocked ++ [id] })
            = (s.onSignal (block id s.signal)).andThen fun _ s =>
              .pure Reply.started { s with blocked := s.blocked ++ [id] } := by
          simp only [onSignal, Outcome.andThen, Outcome.lift, hanswer, Bool.false_eq_true,
            if_false]
        rw [hcase]
        have hperm : (id :: s.blocked).Perm (s.blocked ++ [id]) :=
          (List.perm_append_singleton id _).symm
        refine answered_alone hfits rfl rfl ?_ ?_ ?_ fun _ _ => rfl
        · exact hperm.nodup_iff.mp (List.nodup_cons.mpr ⟨hfree, hfits.threads⟩)
        · exact LawfulSignal.perm (.refl _) hperm hsound
        · simp only [onSignal, Outcome.andThen, Outcome.lift, Outcome.pure, List.append_nil]
          exact hturn

theorem timeUp_answered (hfits : Fits orphans age s) (rested : Rested s.signal) (id : Thread) :
    Answered orphans age s (.timeUp id) (s.request (.timeUp id)) := by
  simp only [request, offered]
  cases hoffered : Facilities.timeUp? (σ := σ) with
  | none => exact refused hfits rfl fun _ _ => rfl
  | some timeUp =>
    simp only []
    cases hbusy : s.blocked.contains id with
    | false =>
      rw [if_neg (by simp)]
      exact refused hfits rfl fun _ _ => rfl
    | true =>
      rw [if_pos rfl]
      have hperm : s.blocked.Perm (id :: s.blocked.erase id) :=
        List.perm_cons_erase (List.contains_iff_mem.mp hbusy)
      obtain ⟨hsound, hturn⟩ := LawfulSignal.timeUp hoffered
        (LawfulSignal.perm (.refl _) hperm hfits.sound) rested
      refine answered_alone hfits rfl rfl (hfits.threads.erase id) hsound ?_ fun _ _ => rfl
      show Turn _ _ _ (s.moves (.timeUp id) (.truth (timeUp id s.signal).answer)) none
      have hmoves : ∀ b, s.moves (.timeUp id) (.truth b)
          = if b then [.resolve] else [.withdraw] := fun b => by cases b <;> rfl
      rw [hmoves]
      simpa [onSignal] using hturn

/-! ### Waits -/

/-- The tickets beside a wait's name, with the wait's own in front. -/
theorem sound_at (hfits : Fits orphans age s) (h : Handle) :
    Sound age ((s.ticket? h).toList ++ s.beside orphans h) s.blocked s.signal :=
  LawfulSignal.perm (tickets_perm hfits.names hfits.key_names orphans h) (.refl _) hfits.sound

/-- A name is given a wait that has not begun; the one that it held is dropped. -/
theorem replace_answered (hfits : Fits orphans age s) {r : Request} {id : String} {held : Held ω}
    (hidle : stage held.wait = .idle) (cancellations : Named Cancellation)
    (hmoves : ∀ reply, s.moves r reply = s.dropMoves id) (hpolls : ∀ h, r.polls h = none) :
    Answered orphans age s r
      (({ s with cancellations := cancellations } : Session σ ω).replace id held) := by
  have hticket : heldTicket? held = none := by
    unfold heldTicket?
    rw [hidle]
    rfl
  have hseat := sound_at hfits (.wait id)
  simp only [replace]
  cases hget : s.waits.get? id with
  | none =>
    simp only [ticket?, hget, Option.bind_none, Option.toList_none, List.nil_append] at hseat
    simp only [dropMoves, hget] at hmoves
    refine answered_at (h := .wait id) hfits
      (elsewhere_wait hfits (hfits.names.put id held) (Named.erase_put _ _ _) rfl rfl) ?_ ?_
      (fun _ _ _ _ hasleep => Or.inl hasleep) ?_ fun h _ => hpolls h
    · simp only [Outcome.pure_state, ticket?, Named.get?_put_self, Option.bind_some, hticket]
      exact LawfulSignal.older hseat
    · rw [hmoves]
      exact .nil _
    · intro _ t ht
      simp [ticket?, hticket] at ht
  | some old =>
    simp only [ticket?, hget, Option.bind_some] at hseat
    simp only [dropMoves, hget] at hmoves
    obtain ⟨hsound, hturn⟩ := drop_seat _ hseat
    refine answered_at (h := .wait id) hfits
      (elsewhere_wait hfits (hfits.names.put id held) (Named.erase_put _ _ _) rfl rfl) ?_ ?_ ?_ ?_
      fun h _ => hpolls h
    · simp only [onSignal, Outcome.map_state, Outcome.lift_state, ticket?, Named.get?_put_self,
        Option.bind_some, hticket]
      exact LawfulSignal.older hsound
    · rw [hmoves]
      exact hturn.counts
    · exact fun hyoung => hturn.heeded (LawfulSignal.distinct hseat (young_of_succ hyoung))
    · intro _ t ht
      simp [onSignal, ticket?, hticket] at ht

theorem drop_answered (hfits : Fits orphans age s) (id : String) :
    Answered orphans age s (.drop id) (s.request (.drop id)) := by
  have hseat := sound_at hfits (.wait id)
  simp only [request]
  cases hget : s.waits.get? id with
  | none => exact refused hfits (by simp [moves, dropMoves, hget]) fun _ _ => rfl
  | some held =>
    simp only [ticket?, hget, Option.bind_some] at hseat
    obtain ⟨hsound, hturn⟩ := drop_seat _ hseat
    have hmoves : ∀ reply, s.moves (.drop id) reply = (stage held.wait).dropMoves := fun reply => by
      simp only [moves, dropMoves, hget]
    refine answered_at (h := .wait id) hfits
      (elsewhere_wait hfits (hfits.names.erase id) (Named.erase_erase _ _) rfl rfl) ?_ ?_ ?_ ?_
      fun _ _ => rfl
    · simp only [onSignal, Outcome.map_state, Outcome.lift_state, ticket?, Named.get?_erase_self,
        Option.bind_none]
      exact LawfulSignal.older hsound
    · rw [hmoves]
      exact hturn.counts
    · exact fun hyoung => hturn.heeded (LawfulSignal.distinct hseat (young_of_succ hyoung))
    · intro _ t ht
      simp [onSignal, ticket?, Named.get?_erase_self] at ht

theorem polls_wait_ne {id : String} {w : Waker} {h : Handle} (hne : h ≠ .wait id) :
    (Request.poll id w).polls h = none := by
  cases h with
  | wait id' => exact if_neg fun heq => hne (congrArg _ heq)
  | key id' => rfl

theorem polls_key_ne {id : String} {w : Waker} {h : Handle} (hne : h ≠ .key id) :
    (Request.pollKey id w).polls h = none := by
  cases h with
  | wait id' => rfl
  | key id' => exact if_neg fun heq => hne (congrArg _ heq)

/-- A poll under a name for waits, from what the poll did to the wait. -/
theorem polled_answered (hfits : Fits orphans age s) {id : String} {w : Waker} {held : Held ω}
    {o : Outcome Reply (Session σ ω)} (hget : s.waits.get? id = some held)
    (hnames : o.state.waits.Distinct) (herase : o.state.waits.erase id = s.waits.erase id)
    (hkeys : o.state.keys = s.keys) (hblocked : o.state.blocked = s.blocked)
    (hpolled : Polled age w (stage held.wait) (s.beside orphans (.wait id)) s.blocked s.signal
      o.state.signal o.effects o.answer (o.state.ticket? (.wait id))) :
    Answered orphans age s (.poll id w) o := by
  refine answered_at (h := .wait id) hfits (elsewhere_wait hfits hnames herase hkeys hblocked)
    hpolled.sound ?_ hpolled.heeded (fun hyoung t ht => ?_) fun h hne => polls_wait_ne hne
  · simp only [moves, hget]
    exact hpolled.counts
  · exact ⟨w, if_pos rfl, hpolled.asleep hyoung t ht⟩

theorem poll_answered (hfits : Fits orphans age s) (sparse : Sparse s.signal) (id : String)
    (w : Waker) : Answered orphans age s (.poll id w) (s.request (.poll id w)) := by
  have hseat := sound_at hfits (.wait id)
  simp only [request, poll]
  cases hget : s.waits.get? id with
  | none =>
    refine refused hfits (by simp [moves, hget]) fun h hticket => polls_wait_ne fun heq => ?_
    exact hticket (by simp [heq, ticket?, hget])
  | some held =>
    simp only [ticket?, hget, Option.bind_some] at hseat
    cases held with
    | plain wait =>
      obtain ⟨hpolled, _, _⟩ := poll_polled w wait hseat sparse
      refine polled_answered hfits hget ?_ ?_ rfl rfl ?_
      · exact hfits.names.put id _
      · exact Named.erase_put _ _ _
      · simp only [onSignal, Outcome.andThen, Outcome.lift, Outcome.pure, ticket?,
          Named.get?_put_self, Option.bind_some, List.append_nil]
        exact hpolled
    | cancellable wait =>
      have hpolled := race_polled w wait
        ((s.cancellations.get? id).getD ⟨false, none⟩) hseat sparse
      simp only [] at hpolled
      cases hrace : (raceCancel w wait ((s.cancellations.get? id).getD ⟨false, none⟩)
          s.signal).answer.1 with
      | released | cancelled =>
        rw [hrace] at hpolled
        simp only [onSignal, Outcome.andThen, Outcome.lift, hrace, Outcome.pure, List.append_nil]
        refine polled_answered hfits hget (hfits.names.erase id) (Named.erase_erase _ _) rfl rfl ?_
        simp only [ticket?, Named.get?_erase_self, Option.bind_none]
        exact hpolled
      | pending wait' =>
        rw [hrace] at hpolled
        simp only [onSignal, Outcome.andThen, Outcome.lift, hrace, Outcome.pure, List.append_nil]
        refine polled_answered hfits hget (hfits.names.put id _) (Named.erase_put _ _ _) rfl rfl ?_
        simp only [ticket?, Named.get?_put_self, Option.bind_some]
        exact hpolled

/-! ### Keys -/

/-- What is known of a key that a session holds: the signal offers keys, and the key's moves are
    those of the wait that it stands for. -/
theorem key_offered (hfits : Fits orphans age s) {id : String} {key : WaitKey}
    (hget : s.keys.get? id = some key) :
    ∃ pollKey, Facilities.pollKey? (σ := σ) = some pollKey ∧
      ∃ f : UInt64 → τ, ∀ key : WaitKey, stage (ofKey σ key) = (stage key).map f := by
  cases hoffered : Facilities.pollKey? (σ := σ) with
  | none =>
    rw [hfits.keyless hoffered] at hget
    exact absurd hget (by simp [Named.get?])
  | some pollKey => exact ⟨pollKey, rfl, LawfulSignal.key_stage hoffered⟩

/-- A fresh key has no ticket. -/
theorem fresh_ticket {pollKey : Waker → WaitKey → σ → Outcome (Bool × WaitKey) σ}
    (hoffered : Facilities.pollKey? = some pollKey) : keyTicket? σ .fresh = none := by
  obtain ⟨f, hf⟩ := LawfulSignal.key_stage (σ := σ) hoffered
  unfold keyTicket?
  rw [hf]
  rfl

theorem newKey_answered (hfits : Fits orphans age s) (id : String) :
    Answered (s.orphaned (.newKey id) ++ orphans) age s (.newKey id) (s.request (.newKey id)) := by
  simp only [request, offered]
  cases hoffered : Facilities.pollKey? (σ := σ) with
  | none =>
    have hnone : s.orphaned (.newKey id) = [] := by
      simp [orphaned, ticket?, hfits.keyless hoffered, Named.get?]
    rw [hnone]
    exact refused hfits rfl fun _ _ => rfl
  | some pollKey =>
    -- the ticket of the key that is thrown away joins the orphans
    have hfits' : Fits (s.orphaned (.newKey id) ++ orphans) age
        ({ s with keys := s.keys.put id .fresh } : Session σ ω) := by
      have hseat := sound_at hfits (.key id)
      refine
        { names := hfits.names
          key_names := hfits.key_names.put id .fresh
          keyless := fun hnone => absurd (hoffered.symm.trans hnone) (by simp)
          threads := hfits.threads
          sound := LawfulSignal.perm ?_ (.refl _) hseat }
      have hput : (s.keys.put id .fresh).collect (keyTicket? σ)
          = (s.keys.erase id).collect (keyTicket? σ) := by
        rw [Named.collect_put, fresh_ticket hoffered]
        rfl
      simp only [tickets, hput, beside, orphaned]
      generalize (s.ticket? (.key id)).toList = A
      generalize (s.keys.erase id).collect (keyTicket? σ) = E
      generalize s.waits.collect heldTicket? = W
      have hswap : (A ++ (E ++ W)).Perm ((W ++ E) ++ A) :=
        List.perm_append_comm.trans (List.perm_append_comm.append_right _)
      simpa only [List.append_assoc] using hswap.append_right orphans
    have helse : Elsewhere (.key id) s ({ s with keys := s.keys.put id .fresh } : Session σ ω) :=
      elsewhere_key hfits (hfits.key_names.put id .fresh) (Named.erase_put _ _ _) rfl
        (by rw [hoffered]; simp) rfl
    exact
      { fits := { hfits' with sound := LawfulSignal.older hfits'.sound }
        counts := .nil _
        attended := fun _ h t ht => by
          by_cases hh : h = .key id
          · rw [hh] at ht
            simp [ticket?, fresh_ticket hoffered] at ht
          · simp only [Outcome.pure_state, helse.others h hh] at ht
            exact Or.inr ⟨rfl, ht, fun w hasleep => Or.inl hasleep⟩ }

theorem pollKey_answered (hfits : Fits orphans age s) (sparse : Sparse s.signal) (id : String)
    (w : Waker) : Answered orphans age s (.pollKey id w) (s.request (.pollKey id w)) := by
  have hseat := sound_at hfits (.key id)
  simp only [request, offered]
  cases hget : s.keys.get? id with
  | none =>
    have hrefused : ∀ m, Answered orphans age s (.pollKey id w) (.pure (.misuse m) s) := fun m => by
      refine refused hfits (by simp [moves, hget]) fun h hticket => polls_key_ne fun heq => ?_
      exact hticket (by simp [heq, ticket?, hget])
    cases Facilities.pollKey? (σ := σ) with
    | none => exact hrefused _
    | some pollKey => exact hrefused _
  | some key =>
    obtain ⟨pollKey, hoffered, f, hf⟩ := key_offered hfits hget
    simp only [ticket?, hget, Option.bind_some] at hseat
    obtain ⟨hpolled, _, _⟩ := poll_polled w (ofKey σ key) hseat sparse
    simp only [hoffered, LawfulSignal.pollKey hoffered]
    refine answered_at (h := .key id) hfits
      (elsewhere_key hfits (hfits.key_names.put id _) (Named.erase_put _ _ _) rfl
        (by rw [hoffered]; simp) rfl) ?_ ?_ ?_ ?_ fun h hne => polls_key_ne hne
    · simp only [onSignal, Outcome.andThen, Outcome.lift, Outcome.map, Outcome.pure, ticket?,
        Named.get?_put_self, Option.bind_some, keyTicket?, LawfulSignal.ofKey_toKey hoffered]
      exact hpolled.sound
    · have hmoves : ∀ reply, s.moves (.pollKey id w) reply
          = (stage (ofKey σ key)).pollMoves reply := fun reply => by
        simp only [moves, hget, hf, Stage.pollMoves_map]
      rw [hmoves]
      exact hpolled.counts
    · simp only [onSignal, Outcome.andThen, Outcome.lift, Outcome.map, Outcome.pure,
        List.append_nil]
      exact hpolled.heeded
    · intro hyoung t ht
      simp only [onSignal, Outcome.andThen, Outcome.lift, Outcome.map, Outcome.pure, ticket?,
        Named.get?_put_self, Option.bind_some, keyTicket?,
        LawfulSignal.ofKey_toKey hoffered] at ht
      exact ⟨w, if_pos rfl, hpolled.asleep hyoung t ht⟩

theorem cancelKey_answered (hfits : Fits orphans age s) (id : String) :
    Answered orphans age s (.cancelKey id) (s.request (.cancelKey id)) := by
  have hseat := sound_at hfits (.key id)
  simp only [request, offered]
  cases hcancel : Facilities.cancelKey? (σ := σ) with
  | none => exact refused hfits rfl fun _ _ => rfl
  | some cancelKey =>
    cases hget : s.keys.get? id with
    | none => exact refused hfits rfl fun _ _ => rfl
    | some key =>
      obtain ⟨pollKey, hoffered, f, hf⟩ := key_offered hfits hget
      simp only [ticket?, hget, Option.bind_some] at hseat
      obtain ⟨hsound, hturn⟩ := drop_seat (ofKey σ key) hseat
      simp only [LawfulSignal.cancelKey hcancel]
      refine answered_at (h := .key id) hfits
        (elsewhere_key hfits (hfits.key_names.put id .fresh) (Named.erase_put _ _ _) rfl
          (by rw [hoffered]; simp) rfl) ?_ ?_ ?_ ?_ fun _ _ => rfl
      · simp only [onSignal, Outcome.map, Outcome.lift, ticket?, Named.get?_put_self,
          Option.bind_some, fresh_ticket hoffered]
        exact LawfulSignal.older hsound
      · have hmoves : s.moves (.cancelKey id) .nothing = (stage (ofKey σ key)).dropMoves := by
          simp only [moves, hget, hf, Stage.dropMoves_map]
        simp only [Outcome.map_answer, hmoves]
        exact hturn.counts
      · exact fun hyoung => hturn.heeded (LawfulSignal.distinct hseat (young_of_succ hyoung))
      · intro _ t ht
        simp [onSignal, ticket?, fresh_ticket hoffered] at ht

/-! ### All requests -/

theorem request_answered (hfits : Fits orphans age s) (rested : Rested s.signal)
    (sparse : Sparse s.signal) (r : Request) :
    Answered (s.orphaned r ++ orphans) age s r (s.request r) := by
  cases r with
  | set => exact set_answered hfits sparse
  | tryWait => exact tryWait_answered hfits
  | wait id =>
    exact replace_answered hfits LawfulSignal.wait_idle s.cancellations (fun _ => rfl) fun _ => rfl
  | waitOrCancel id fired =>
    exact replace_answered hfits LawfulSignal.wait_idle _ (fun _ => rfl) fun _ => rfl
  | fire id =>
    simp only [request]
    cases s.cancellations.get? id with
    | none => exact refused hfits rfl fun _ _ => rfl
    | some c => exact answered_untouched hfits rfl rfl rfl rfl rfl fun _ _ => rfl
  | poll id w => exact poll_answered hfits sparse id w
  | drop id => exact drop_answered hfits id
  | debug id =>
    simp only [request]
    cases s.waits.get? id with
    | none => exact refused hfits rfl fun _ _ => rfl
    | some held => cases held <;> exact refused hfits rfl fun _ _ => rfl
  | newKey id => exact newKey_answered hfits id
  | pollKey id w => exact pollKey_answered hfits sparse id w
  | cancelKey id => exact cancelKey_answered hfits id
  | keyInfo id =>
    simp only [request, offered]
    cases s.keys.get? id <;> exact refused hfits rfl fun _ _ => rfl
  | waiters =>
    simp only [request, offered]
    cases Facilities.waiters? (σ := σ) <;> exact refused hfits rfl fun _ _ => rfl
  | isSet =>
    simp only [request, offered]
    cases Facilities.isSet? (σ := σ) <;> exact refused hfits rfl fun _ _ => rfl
  | expire => exact expire_answered hfits sparse
  | pastDeadline => exact pastDeadline_answered hfits sparse
  | block id => exact block_answered hfits sparse id
  | timeUp id => exact timeUp_answered hfits rested id
  | unknown => exact refused hfits rfl fun _ _ => rfl

end Conduit.Signal.Session

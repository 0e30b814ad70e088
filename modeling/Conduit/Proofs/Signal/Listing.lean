/-
  Conduit/Proofs/Signal/Listing.lean
  ==================================
  **Whom the signal in a single word has on its lists.**

  A task is queued for a registration of its own, and a blocked thread is asleep or
  roused.  The word has no part in this, so it holds however many waits are registered and
  however many keys were given out; where keys have come round, two registrations may go
  by one key, and then the queue may hold that key twice, but no more often than it is
  registered.
-/
import Conduit.Proofs.Signal.Dated

namespace Conduit.Signal

namespace Slim

/-- These threads are in a blocking wait: each is asleep, or was roused and has not run. -/
def Houses (T : List Thread) (s : Slim) : Prop := T.Perm (s.asleep ++ s.roused)

/-- Each queued task has a registration of its own among these keys, and these threads are in a
    blocking wait. -/
structure Lists (K : List UInt64) (T : List Thread) (s : Slim) : Prop where
  tasks : (s.tasks.map Prod.fst).Subperm K
  threads : s.Houses T

variable {s s' : Slim} {K K' : List UInt64} {T T' : List Thread} {k : UInt64} {t : Thread}

/-! ### Threads -/

namespace Houses

theorem perm (h : s.Houses T) (hT : T.Perm T') : s.Houses T' := hT.symm.trans h

/-- The word and the tasks have no part in it. -/
theorem recount (h : s.Houses T) (word : Word) (next : UInt64) (tasks : List (UInt64 × Waker)) :
    Houses T { s with word := word, nextKey := next, tasks := tasks } := h

theorem wakeOne (h : s.Houses T) : s.wakeOne.state.Houses T := h.trans s.wakeOne_threads

theorem tryWait (h : s.Houses T) : s.tryWait.state.Houses T := by
  unfold Slim.tryWait
  split
  · exact h
  · exact h.recount _ _ _
  · exact (h.recount _ _ _).wakeOne

theorem set (h : s.Houses T) : s.set.state.Houses T := by
  unfold Slim.set
  split
  · exact (h.recount _ _ _).wakeOne
  · exact h.recount _ _ _

theorem withdraw (key : WaitKey) (h : s.Houses T) : (s.withdraw key).state.Houses T := by
  obtain ⟨_ | k⟩ := key
  · exact h
  · have hwithout : (s.without k).Houses T := by
      rw [Houses, without_asleep, without_roused]
      exact h
    rcases withdraw_cases k s with hcase | ⟨_, hcase⟩
    · rw [hcase, Outcome.map_state]
      exact hwithout.wakeOne
    · rw [hcase, Outcome.pure_state]
      exact hwithout

theorem expire (h : s.Houses T) : s.expire.state.Houses T := by
  rw [Slim.expire, Outcome.andThen_state]
  split
  · exact h.tryWait
  · exact h.tryWait.recount _ _ _

/-- A thread that falls asleep joins the others. -/
theorem sleep (h : s.Houses T) (word : Word) (t : Thread) :
    Houses (t :: T) { s with word := word, asleep := s.asleep ++ [t] } := by
  have hlast : (t :: (s.asleep ++ s.roused)).Perm ((s.asleep ++ [t]) ++ s.roused) := by
    rw [List.append_assoc]
    exact List.perm_middle.symm
  exact (h.cons t).trans hlast

/-- A thread that is not let through falls asleep. -/
theorem block (t : Thread) (h : s.Houses T) :
    (s.block t).answer = true ∧ (s.block t).state.Houses T ∨
      (s.block t).answer = false ∧ (s.block t).state.Houses (t :: T) := by
  rw [Slim.block, Outcome.andThen_answer, Outcome.andThen_state]
  cases s.tryWait.answer with
  | true => exact Or.inl ⟨rfl, h.tryWait⟩
  | false => exact Or.inr ⟨rfl, h.tryWait.sleep _ t⟩

/-- A thread whose time is over leaves. -/
theorem timeUp (h : s.Houses T) (hasleep : t ∈ s.asleep) :
    (s.timeUp t).state.Houses (T.erase t) := by
  have hleft : Houses (T.erase t) { s with asleep := s.asleep.erase t } := by
    have herased := h.erase t
    rw [List.erase_append_left _ hasleep] at herased
    exact herased
  rw [Slim.timeUp, Outcome.andThen_state]
  exact hleft.tryWait.recount _ _ _

/-- A roused thread returns, or falls asleep again. -/
theorem resume (h : s.Houses T) :
    ∃ T', T.Perm (s.resume.answer.toList ++ T') ∧ s.resume.state.Houses T' := by
  unfold Slim.resume
  split
  · exact ⟨T, .refl _, h⟩
  · next t rest hroused =>
    have hfirst : T.Perm (t :: (s.asleep ++ rest)) := by
      rw [Houses, hroused] at h
      exact h.trans List.perm_middle
    have hothers : Houses (s.asleep ++ rest) { s with roused := rest } := List.Perm.refl _
    rw [Outcome.andThen_answer, Outcome.andThen_state]
    split
    · exact ⟨_, hfirst, hothers.tryWait.recount _ _ _⟩
    · exact ⟨t :: (s.asleep ++ rest), hfirst, hothers.tryWait.sleep _ t⟩

theorem runRoused (fuel : Nat) : ∀ {s : Slim} {T : List Thread}, s.Houses T →
    ∃ T', T.Perm ((s.runRoused fuel).answer ++ T') ∧ (s.runRoused fuel).state.Houses T' := by
  induction fuel with
  | zero =>
    intro s T h
    exact ⟨T, .refl _, h⟩
  | succ fuel ih =>
    intro s T h
    rw [Slim.runRoused]
    split
    · exact ⟨T, .refl _, h⟩
    · obtain ⟨T₁, hT₁, h₁⟩ := h.resume
      obtain ⟨T₂, hT₂, h₂⟩ := ih h₁
      refine ⟨T₂, ?_, h₂⟩
      rw [Outcome.andThen_answer, Outcome.map_answer, List.append_assoc]
      exact hT₁.trans (hT₂.append_left _)

end Houses

theorem unrest_recount (s : Slim) (word : Word) : unrest { s with word := word } = s.unrest := rfl

theorem unrest_sleep (s : Slim) (t : Thread) :
    unrest { s with asleep := s.asleep ++ [t] } = s.unrest + 2 := by
  simp only [unrest, List.length_append, List.length_cons, List.length_nil]
  omega

/-- At most one thread that is asleep is roused at a time. -/
theorem wakeOne_unrest (s : Slim) : s.wakeOne.state.unrest ≤ s.unrest + 1 := by
  unfold wakeOne
  split
  · exact Nat.le_succ _
  · next htasks hasleep =>
    simp only [unrest, Outcome.pure_state, hasleep, List.length_append, List.length_cons,
      List.length_nil]
    omega
  · exact Nat.le_succ _

theorem tryWait_unrest (s : Slim) : s.tryWait.state.unrest ≤ s.unrest + 1 := by
  unfold tryWait
  split
  · exact Nat.le_succ _
  · exact Nat.le_succ _
  · next word _ => exact wakeOne_unrest { s with word := word }

/-- A run takes a roused thread off the lists, or puts it to sleep. -/
theorem resume_unrest (hroused : s.roused ≠ []) : s.resume.state.unrest < s.unrest := by
  obtain ⟨t, rest, hrest⟩ := List.exists_cons_of_ne_nil hroused
  have hbefore : s.unrest = unrest { s with roused := rest } + 3 := by
    simp only [unrest, hrest, List.length_cons]
    omega
  have hvain := tryWait_vain (s := { s with roused := rest })
  have htried := tryWait_unrest { s with roused := rest }
  unfold resume
  rw [hrest, hbefore]
  simp only []
  rw [Outcome.andThen_state]
  split
  · refine Nat.lt_of_le_of_lt (Nat.le_of_eq (unrest_recount _ _)) ?_
    omega
  · next hanswer =>
    -- an attempt in vain rouses nobody, so the thread is all that moved
    obtain ⟨_, hnothing⟩ := hvain (Bool.eq_false_iff.mpr hanswer)
    rw [hnothing]
    refine Nat.lt_of_le_of_lt (Nat.le_of_eq (unrest_sleep _ t)) ?_
    exact Nat.lt_succ_self _

theorem runRoused_rested (fuel : Nat) : ∀ {s : Slim}, s.unrest ≤ fuel →
    (s.runRoused fuel).state.roused = [] := by
  induction fuel with
  | zero =>
    intro s hfuel
    apply List.eq_nil_of_length_eq_zero
    rw [unrest] at hfuel
    rw [runRoused, Outcome.pure_state]
    omega
  | succ fuel ih =>
    intro s hfuel
    rw [runRoused]
    split
    · next hempty => exact List.isEmpty_iff.mp hempty
    · next hsome =>
      have hless := resume_unrest (s := s) fun hnil => hsome (List.isEmpty_iff.mpr hnil)
      rw [Outcome.andThen_state, Outcome.map_state]
      exact ih (by omega)

/-! ### Tasks -/

theorem new_lists (observer : Observer) : (Slim.new observer).Lists [] [] :=
  ⟨.refl _, .refl _⟩

namespace Lists

theorem perm (h : s.Lists K T) (hK : K.Perm K') (hT : T.Perm T') : s.Lists K' T' :=
  ⟨h.tasks.trans hK.subperm, h.threads.perm hT⟩

/-- Nobody is queued by an operation that wanes. -/
theorem wanes (h : s.Lists K T) (hwanes : s.Wanes s') (hthreads : s'.Houses T') :
    s'.Lists K T' :=
  ⟨(hwanes.tasks.map Prod.fst).subperm.trans h.tasks, hthreads⟩

theorem set (h : s.Lists K T) : s.set.state.Lists K T := h.wanes s.set_wanes h.threads.set

theorem tryWait (h : s.Lists K T) : s.tryWait.state.Lists K T :=
  h.wanes s.tryWait_wanes h.threads.tryWait

theorem expire (h : s.Lists K T) : s.expire.state.Lists K T :=
  h.wanes s.expire_wanes h.threads.expire

end Lists

theorem map_eraseP (l : List (UInt64 × Waker)) (k : UInt64) :
    (l.eraseP fun t => t.1 == k).map Prod.fst = (l.map Prod.fst).erase k := by
  induction l with
  | nil => rfl
  | cons t l ih =>
    by_cases hk : t.1 = k
    · simp [hk]
    · simp [beq_eq_false_iff_ne.mpr hk, ih]

/-- A registration that is given up takes its task off the queue. -/
theorem Lists.withdraw {key : WaitKey} (h : s.Lists (key.id.toList ++ K) T) :
    (s.withdraw key).state.Lists K T := by
  refine ⟨?_, h.threads.withdraw key⟩
  obtain ⟨_ | k⟩ := key
  · exact h.tasks
  · have herased := h.tasks.erase k
    simp only [Option.toList_some, List.singleton_append, List.erase_cons_head] at herased
    have hwithout : ((s.without k).tasks.map Prod.fst).Subperm K := by
      simp only [without_tasks, map_eraseP]
      exact herased
    rcases withdraw_cases k s with hcase | ⟨_, hcase⟩
    · simp only [hcase, Outcome.map_state]
      exact ((wakeOne_wanes _).tasks.map Prod.fst).subperm.trans hwithout
    · simp only [hcase, Outcome.pure_state]
      exact hwithout

theorem Lists.cancelWait {key : WaitKey} (h : s.Lists (key.id.toList ++ K) T) :
    (s.cancelWait key).state.Lists K T := by
  simp only [Slim.cancelWait, Outcome.andThen_state]
  exact h.withdraw

/-- A key that is not queued leaves room in its registration. -/
theorem subperm_of_absent {l : List UInt64} (hout : k ∉ l) (h : l.Subperm (k :: K)) :
    (k :: l).Subperm (k :: K) := by
  have herased := h.erase k
  simp only [List.erase_of_not_mem hout, List.erase_cons_head] at herased
  exact (List.subperm_cons k).mpr herased

/-- Registering under a key queues the task once for the registration of the key. -/
theorem Lists.register {key : WaitKey} (w : Waker) (h : s.Lists (key.id.toList ++ K) T) :
    (s.register w key).state.Lists ((s.register w key).answer.id.toList ++ K) T := by
  obtain ⟨_ | k⟩ := key
  · refine ⟨?_, h.threads.recount _ _ _⟩
    simp only [Slim.register, Outcome.pure_answer, Outcome.pure_state, List.map_append,
      List.map_cons, List.map_nil, Option.toList_some, List.singleton_append]
    exact (List.perm_append_singleton _ _).subperm.trans ((List.subperm_cons _).mpr h.tasks)
  · rcases register_old_cases w k s with ⟨_, hcase⟩ | ⟨hout, hcase⟩
    · simp only [hcase, Outcome.pure_answer, Outcome.pure_state]
      refine ⟨?_, h.threads⟩
      simp only [map_renew_keys]
      exact h.tasks
    · simp only [hcase, Outcome.pure_answer, Outcome.pure_state]
      refine ⟨?_, h.threads⟩
      have habsent : k ∉ s.tasks.map Prod.fst := by
        intro hmem
        obtain ⟨t, ht, hk⟩ := List.mem_map.mp hmem
        exact hout t ht hk
      simp only [List.map_append, List.map_cons, List.map_nil]
      exact (List.perm_append_singleton _ _).subperm.trans (subperm_of_absent habsent h.tasks)

theorem Lists.pollWait {key : WaitKey} (w : Waker) (h : s.Lists (key.id.toList ++ K) T) :
    (s.pollWait w key).state.Lists ((s.pollWait w key).answer.2.id.toList ++ K) T := by
  simp only [Slim.pollWait, Outcome.andThen_answer, Outcome.andThen_state]
  split
  · exact h.tryWait.withdraw
  · exact h.tryWait.register w

theorem pollWait_fresh (w : Waker) (key : WaitKey) (h : (s.pollWait w key).answer.1 = true) :
    (s.pollWait w key).answer.2 = .fresh := by
  cases hgot : s.tryWait.answer with
  | true =>
    rw [pollWait_got w key hgot]
    rfl
  | false =>
    rw [pollWait_vain w key hgot] at h
    cases h

theorem stage_ticket (wait : Slim.Wait) : (Staged.stage wait).ticket? = wait.key.id := by
  obtain ⟨⟨_ | k⟩⟩ := wait
  · rfl
  · rfl

/-- A poll that a cancellation may have ended. -/
theorem Lists.race (w : Waker) (wait : Slim.Wait) (c : Cancellation)
    (h : s.Lists (wait.key.id.toList ++ K) T) :
    (raceCancel w wait c s).state.Lists
      ((Race.ticket? (raceCancel w wait c s).answer.1).toList ++ K) T := by
  have hpolled := h.pollWait w
  have hfresh := pollWait_fresh (s := s) w wait.key
  simp only [raceCancel, AutoReset.poll, Outcome.andThen_answer, Outcome.andThen_state,
    Outcome.map_answer, Outcome.map_state]
  generalize s.pollWait w wait.key = o at hpolled hfresh ⊢
  obtain ⟨⟨_ | _, key⟩, s', effects⟩ := o
  case true =>
    obtain rfl : key = .fresh := hfresh rfl
    exact hpolled
  case false =>
    simp only [Bool.false_eq_true, if_false]
    split
    · exact hpolled.cancelWait
    · simp only [Outcome.pure_answer, Outcome.pure_state, Race.ticket?, stage_ticket]
      exact hpolled

end Slim

/-! ### Sessions -/

namespace Session

/-- The tickets of the keys that were thrown away in a run while they were registered. -/
def overwritten {σ ω τ : Type} [Facilities σ ω] [Staged ω τ] [Tracked σ ω τ]
    (s : Session σ ω) : List Request → List τ
  | [] => []
  | r :: rs => overwritten (s.step r).state rs ++ s.orphaned r

open Slim (Lists)

variable {s : Session Slim Slim.Wait} {lost : List UInt64}

/-- The signal has on its lists what the session holds and the keys that were thrown away while
    they were registered. -/
structure Listed (lost : List UInt64) (s : Session Slim Slim.Wait) : Prop where
  names : s.waits.Distinct
  key_names : s.keys.Distinct
  threads : s.blocked.Nodup
  lists : s.signal.Lists (s.tickets ++ lost) s.blocked

theorem new_listed (observer : Observer) :
    (Session.new observer : Session Slim Slim.Wait).Listed [] where
  names := Named.distinct_nil
  key_names := Named.distinct_nil
  threads := .nil
  lists := Slim.new_lists observer

theorem heldTicket_eq (held : Held Slim.Wait) : heldTicket? held = held.wait.key.id :=
  Slim.stage_ticket held.wait

theorem keyTicket_eq (key : WaitKey) : keyTicket? Slim key = key.id := Slim.stage_ticket ⟨key⟩

/-- The ticket of one handle in front of the others. -/
theorem Listed.seat (h : s.Listed lost) (handle : Handle) :
    s.signal.Lists ((s.ticket? handle).toList ++ s.beside lost handle) s.blocked :=
  h.lists.perm (tickets_perm h.names h.key_names lost handle) (.refl _)

/-- What one name holds is changed, and the signal with it. -/
theorem Listed.hold {id : String} {waits : Named (Held Slim.Wait)} {signal : Slim}
    (h : s.Listed lost) (cancellations : Named Cancellation) (hnames : waits.Distinct)
    (herase : waits.erase id = s.waits.erase id)
    (hlists : signal.Lists (((waits.get? id).bind heldTicket?).toList
      ++ s.beside lost (.wait id)) s.blocked) :
    Listed lost { s with signal := signal, waits := waits, cancellations := cancellations } := by
  refine ⟨hnames, h.key_names, h.threads, hlists.perm ?_ (.refl _)⟩
  have hperm := tickets_perm
    (s := { s with signal := signal, waits := waits, cancellations := cancellations })
    hnames h.key_names lost (.wait id)
  simp only [ticket?, beside, herase] at hperm ⊢
  exact hperm.symm

theorem Listed.keep {id : String} {keys : Named WaitKey} {signal : Slim} (h : s.Listed lost)
    (hnames : keys.Distinct) (herase : keys.erase id = s.keys.erase id)
    (hlists : signal.Lists (((keys.get? id).bind (keyTicket? Slim)).toList
      ++ s.beside lost (.key id)) s.blocked) :
    Listed lost { s with signal := signal, keys := keys } := by
  refine ⟨h.names, hnames, h.threads, hlists.perm ?_ (.refl _)⟩
  have hperm := tickets_perm (s := { s with signal := signal, keys := keys })
    h.names hnames lost (.key id)
  simp only [ticket?, beside, herase] at hperm ⊢
  exact hperm.symm

/-- An operation on the signal alone. -/
theorem Listed.alone {signal : Slim} (h : s.Listed lost)
    (hlists : signal.Lists (s.tickets ++ lost) s.blocked) :
    Listed lost { s with signal := signal } :=
  ⟨h.names, h.key_names, h.threads, hlists⟩

/-- An operation of threads. -/
theorem Listed.crowd {signal : Slim} {blocked : List Thread} (h : s.Listed lost)
    (hthreads : blocked.Nodup) (hlists : signal.Lists (s.tickets ++ lost) blocked) :
    Listed lost { s with signal := signal, blocked := blocked } :=
  ⟨h.names, h.key_names, hthreads, hlists⟩

/-- A name is given a wait that has not begun; the one that it held is dropped. -/
theorem replace_listed (h : s.Listed lost) (id : String) {held : Held Slim.Wait}
    (hidle : held.wait.key.id = none) (cancellations : Named Cancellation) :
    (({ s with cancellations := cancellations } : Session Slim Slim.Wait).replace
      id held).state.Listed lost := by
  have hseat := h.seat (.wait id)
  have hnone : heldTicket? held = none := (heldTicket_eq held).trans hidle
  simp only [replace]
  split
  · next old hget =>
    simp only [ticket?, hget, Option.bind_some, heldTicket_eq] at hseat
    refine h.hold cancellations (h.names.put id held) (Named.erase_put _ _ _) ?_
    simp only [Named.get?_put_self, Option.bind_some, hnone]
    exact hseat.cancelWait
  · next hget =>
    simp only [ticket?, hget, Option.bind_none] at hseat
    refine h.hold cancellations (h.names.put id held) (Named.erase_put _ _ _) ?_
    simp only [Named.get?_put_self, Option.bind_some, hnone]
    exact hseat

theorem poll_listed (h : s.Listed lost) (id : String) (w : Waker) :
    (s.poll id w).state.Listed lost := by
  have hseat := h.seat (.wait id)
  simp only [poll]
  split
  · exact h
  · next wait hget =>
    simp only [ticket?, hget, Option.bind_some, heldTicket_eq] at hseat
    refine h.hold s.cancellations (h.names.put id _) (Named.erase_put _ _ _) ?_
    simp only [Named.get?_put_self, Option.bind_some, heldTicket_eq]
    exact hseat.pollWait w
  · next wait hget =>
    simp only [ticket?, hget, Option.bind_some, heldTicket_eq] at hseat
    have hraced := Lists.race w wait ((s.cancellations.get? id).getD ⟨false, none⟩) hseat
    simp only [Outcome.andThen_state, onSignal, Outcome.lift_state, Outcome.lift_answer]
    generalize raceCancel w wait ((s.cancellations.get? id).getD ⟨false, none⟩) s.signal = o
      at hraced ⊢
    cases hrace : o.answer.1 with
    | released =>
      rw [hrace] at hraced
      refine h.hold _ (h.names.erase id) (Named.erase_erase _ _) ?_
      simp only [Named.get?_erase_self, Option.bind_none]
      exact hraced
    | cancelled =>
      rw [hrace] at hraced
      refine h.hold _ (h.names.erase id) (Named.erase_erase _ _) ?_
      simp only [Named.get?_erase_self, Option.bind_none]
      exact hraced
    | pending wait' =>
      rw [hrace] at hraced
      refine h.hold _ (h.names.put id _) (Named.erase_put _ _ _) ?_
      simp only [Named.get?_put_self, Option.bind_some]
      exact hraced

/-- A key that is thrown away while it is registered is lost. -/
theorem newKey_listed (h : s.Listed lost) (id : String) :
    (s.request (.newKey id)).state.Listed (s.orphaned (.newKey id) ++ lost) := by
  have hseat := h.seat (.key id)
  have hput : (s.keys.put id .fresh).collect (keyTicket? Slim)
      = (s.keys.erase id).collect (keyTicket? Slim) := by
    rw [Named.collect_put, keyTicket_eq]
    rfl
  refine ⟨h.names, h.key_names.put id .fresh, h.threads, hseat.perm ?_ (.refl _)⟩
  simp only [tickets, hput, beside, orphaned, request, offered, Facilities.pollKey?,
    Outcome.pure_state]
  generalize (s.ticket? (.key id)).toList = A
  generalize (s.keys.erase id).collect (keyTicket? Slim) = E
  generalize s.waits.collect heldTicket? = W
  have hswap : (A ++ (E ++ W)).Perm ((W ++ E) ++ A) :=
    List.perm_append_comm.trans (List.perm_append_comm.append_right _)
  simpa only [List.append_assoc] using hswap.append_right lost

/-- Whatever is requested, the signal has on its lists what is held then. -/
theorem request_listed (h : s.Listed lost) (rested : s.signal.roused = []) (r : Request) :
    (s.request r).state.Listed (s.orphaned r ++ lost) := by
  cases r with
  | set => exact h.alone h.lists.set
  | tryWait => exact h.alone h.lists.tryWait
  | wait id => exact replace_listed h id rfl s.cancellations
  | waitOrCancel id fired => exact replace_listed h id rfl _
  | fire id =>
    simp only [request]
    split
    · exact ⟨h.names, h.key_names, h.threads, h.lists⟩
    · exact h
  | poll id w => exact poll_listed h id w
  | drop id =>
    have hseat := h.seat (.wait id)
    simp only [request]
    split
    · next held hget =>
      simp only [ticket?, hget, Option.bind_some, heldTicket_eq] at hseat
      refine h.hold s.cancellations (h.names.erase id) (Named.erase_erase _ _) ?_
      simp only [Named.get?_erase_self, Option.bind_none]
      exact hseat.cancelWait
    · exact h
  | debug id =>
    simp only [request]
    split <;> exact h
  | newKey id => exact newKey_listed h id
  | pollKey id w =>
    have hseat := h.seat (.key id)
    simp only [request, offered, Facilities.pollKey?]
    cases hget : s.keys.get? id with
    | none => exact h
    | some key =>
      simp only [ticket?, hget, Option.bind_some, keyTicket_eq] at hseat
      refine h.keep (h.key_names.put id _) (Named.erase_put _ _ _) ?_
      simp only [Named.get?_put_self, Option.bind_some, keyTicket_eq]
      exact hseat.pollWait w
  | cancelKey id =>
    have hseat := h.seat (.key id)
    simp only [request, offered, Facilities.cancelKey?]
    cases hget : s.keys.get? id with
    | none => exact h
    | some key =>
      simp only [ticket?, hget, Option.bind_some, keyTicket_eq] at hseat
      refine h.keep (h.key_names.put id .fresh) (Named.erase_put _ _ _) ?_
      simp only [Named.get?_put_self, Option.bind_some, keyTicket_eq]
      exact hseat.cancelWait
  | keyInfo id =>
    simp only [request, offered]
    cases s.keys.get? id <;> exact h
  | waiters => exact h
  | isSet => exact h
  | expire => exact h.alone h.lists.expire
  | pastDeadline => exact h.alone h.lists.expire
  | block id =>
    have hwanes := Slim.block_wanes id s.signal
    simp only [request, offered, Facilities.block?]
    split
    · exact h
    · next hfree =>
      simp only [Outcome.andThen_state, onSignal, Outcome.lift_state, Outcome.lift_answer]
      rcases h.lists.threads.block id with ⟨hanswer, hhouses⟩ | ⟨hanswer, hhouses⟩
      · simp only [hanswer, if_true]
        exact h.alone (h.lists.wanes hwanes hhouses)
      · simp only [hanswer, Bool.false_eq_true, if_false]
        have hperm := (List.perm_append_singleton id s.blocked).symm
        have hnew : id ∉ s.blocked := fun hmem => hfree (List.contains_iff_mem.mpr hmem)
        exact h.crowd (hperm.nodup_iff.mp (List.nodup_cons.mpr ⟨hnew, h.threads⟩))
          (h.lists.wanes hwanes (hhouses.perm hperm))
  | timeUp id =>
    have hoffered : Facilities.timeUp? = some Slim.timeUp := rfl
    rw [request_timeUp_state hoffered]
    split
    · next hbusy =>
      have hasleep : id ∈ s.signal.asleep := by
        have hmem := h.lists.threads.mem_iff.mp (List.contains_iff_mem.mp hbusy)
        rw [rested, List.append_nil] at hmem
        exact hmem
      exact h.crowd (h.threads.erase id) (h.lists.wanes (Slim.timeUp_wanes id s.signal)
        (h.lists.threads.timeUp hasleep))
    · exact h
  | unknown => exact h

/-- Once roused threads have run, each has returned or is asleep. -/
theorem settle_listed (h : s.Listed lost) :
    s.settle.state.Listed lost ∧ s.settle.state.signal.roused = [] := by
  obtain ⟨T, hT, hhouses⟩ := h.lists.threads.runRoused s.signal.unrest
  have hwanes := Slim.runRoused_wanes s.signal.unrest s.signal
  have hperm := filter_returned h.threads hT
  refine ⟨h.crowd (h.threads.filter _) (h.lists.wanes hwanes (hhouses.perm hperm)), ?_⟩
  exact Slim.runRoused_rested s.signal.unrest (Nat.le_refl _)

theorem step_listed (h : s.Listed lost) (rested : s.signal.roused = []) (r : Request) :
    (s.step r).state.Listed (s.orphaned r ++ lost) ∧ (s.step r).state.signal.roused = [] :=
  settle_listed (request_listed h rested r)

theorem after_listed (rs : List Request) (h : s.Listed lost) (rested : s.signal.roused = []) :
    (s.after rs).Listed (s.overwritten rs ++ lost) ∧ (s.after rs).signal.roused = [] := by
  induction rs generalizing s lost with
  | nil => exact ⟨h, rested⟩
  | cons r rs ih =>
    obtain ⟨hlisted, hrested⟩ := step_listed h rested r
    have hafter := ih hlisted hrested
    rw [overwritten, List.append_assoc]
    exact hafter

end Session

end Conduit.Signal

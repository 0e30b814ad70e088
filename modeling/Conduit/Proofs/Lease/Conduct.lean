/-
  Conduit/Proofs/Lease/Conduct.lean
  =================================
  **What holds of every event, whatever state it meets.**

  A slot keeps its home, its place for continuations and its observer.  The turn goes up
  by one when the slot is recycled, and only then is the slot seen to go home; apart from
  that, tasks are woken and the observer is told of the lease.
-/
import Conduit.Proofs.Lease.Phase
import Conduit.Proofs.Lease.Tenancy

namespace Conduit

/-! ### What an operation on a slot does outside -/

namespace Effect

/-- Nothing but tasks that are woken, and reports on a lease. -/
def Quiet (es : List Effect) : Prop :=
  ∀ e ∈ es, (∃ w, e = .woken w) ∨ (∃ o, e = .reported o .doubleCompletion) ∨
    ∃ o, e = .reported o .futureAbandoned

theorem quiet_nil : Quiet [] := fun _ h => absurd h List.not_mem_nil

theorem quiet_of_nil {es : List Effect} (h : es = []) : Quiet es := h ▸ quiet_nil

theorem quiet_cons {e : Effect} {es : List Effect}
    (he : (∃ w, e = .woken w) ∨ (∃ o, e = .reported o .doubleCompletion) ∨
      ∃ o, e = .reported o .futureAbandoned) (hes : Quiet es) : Quiet (e :: es) :=
  List.forall_mem_cons.mpr ⟨he, hes⟩

theorem Quiet.append {es fs : List Effect} (hes : Quiet es) (hfs : Quiet fs) : Quiet (es ++ fs) :=
  List.forall_mem_append.mpr ⟨hes, hfs⟩

theorem recyclings_append (es fs : List Effect) :
    recyclings (es ++ fs) = recyclings es ++ recyclings fs := List.filterMap_append

theorem Quiet.recyclings_eq {es : List Effect} (h : Quiet es) : recyclings es = [] := by
  refine List.filterMap_eq_nil_iff.mpr fun e he => ?_
  obtain ⟨w, rfl⟩ | ⟨o, rfl⟩ | ⟨o, rfl⟩ := h e he <;> rfl

end Effect

namespace Lease

namespace Slot

variable {α κ : Type}

theorem publish_quiet (s : Slot α κ) (v : Verdict α) : Effect.Quiet (s.publish v).effects := by
  simp only [publish, due]
  split
  · split <;> exact Effect.quiet_nil
  · split
    · exact Effect.quiet_nil
    · cases s.waker with
      | none => exact Effect.quiet_nil
      | some w => exact Effect.quiet_cons (Or.inl ⟨w, rfl⟩) Effect.quiet_nil

theorem complete_quiet (s : Slot α κ) (g : UInt32) (v : Verdict α) :
    Effect.Quiet (s.complete g v).effects := by
  rw [complete]
  split
  · exact publish_quiet _ v
  · exact Effect.quiet_cons (Or.inr (Or.inl ⟨_, rfl⟩)) Effect.quiet_nil

theorem dismiss_quiet (s : Slot α κ) (g : UInt32) : Effect.Quiet (s.dismiss g).effects := by
  simp only [dismiss]
  split
  · exact Effect.quiet_nil
  · split
    · exact Effect.quiet_cons (Or.inr (Or.inr ⟨_, rfl⟩)) (publish_quiet _ _)
    · exact Effect.quiet_nil

theorem lease_effects (s : Slot α κ) : s.lease.effects = [] := by
  rw [lease]
  split <;> rfl

theorem enlist_effects (s : Slot α κ) (g : UInt32) (n : Nat) : (s.enlist g n).effects = [] := by
  rw [enlist]
  split <;> rfl

theorem take_effects (s : Slot α κ) : s.take.effects = [] := by
  rw [take]
  split <;> rfl

theorem poll_effects (s : Slot α κ) (w : Waker) : (s.poll w).effects = [] := by
  rw [poll, Outcome.andThen_effects, take_effects]
  split <;> rfl

theorem register_effects (s : Slot α κ) (k : κ) : (s.register k).effects = [] := by
  simp only [register, due]
  split
  · split <;> rfl
  · rfl

theorem detach_effects (s : Slot α κ) : s.detach.effects = [] := by
  simp only [detach]
  split <;> rfl

end Slot

/-! ### Events -/

namespace Tenancy

variable {α κ : Type} {t : Tenancy α κ}

/-- What can be expected of any step from a slot in its turn. -/
structure Behaves (s : Slot α κ) (turn : Nat) (o : Step α κ) : Prop where
  alike : s.Alike o.state.slot
  turn : o.state.turn = turn + o.answer.recycled.toNat
  effects : ∃ es, Effect.Quiet es ∧
    o.effects = es ++ if o.answer.recycled then o.state.slot.homecoming else []

/-- The slot is seen to go home when it is recycled. -/
theorem Behaves.recyclings_eq {s : Slot α κ} {turn : Nat} {o : Step α κ} (h : Behaves s turn o) :
    Effect.recyclings o.effects
      = if o.answer.recycled then Effect.recyclings o.state.slot.homecoming else [] := by
  obtain ⟨es, hquiet, heffects⟩ := h.effects
  rw [heffects, Effect.recyclings_append, hquiet.recyclings_eq, List.nil_append]
  split <;> rfl

/-- The slot of a depot goes home unseen. -/
theorem Behaves.quiet {s : Slot α κ} {turn : Nat} {o : Step α κ} (h : Behaves s turn o)
    (hhome : o.state.slot.home = .depot) : Effect.Quiet o.effects := by
  obtain ⟨es, hquiet, heffects⟩ := h.effects
  have hnone : o.state.slot.homecoming = [] := by
    rw [Slot.homecoming, hhome]
  rw [heffects, hnone, ite_self, List.append_nil]
  exact hquiet

theorem reply_behaves (t : Tenancy α κ) (a : Answer α) : Behaves t.slot t.turn (t.reply a) :=
  ⟨.refl _, rfl, [], Effect.quiet_nil, rfl⟩

theorem goHome_behaves (t : Tenancy α κ) (a : Answer α) : Behaves t.slot t.turn (t.goHome a) :=
  ⟨.refl _, rfl, [], Effect.quiet_nil, rfl⟩

/-- A step that begins with a quiet operation on the slot. -/
theorem onSlot_behaves {β : Type} {o : Outcome β (Slot α κ)} {f : β → Tenancy α κ → Step α κ}
    (halike : t.slot.Alike o.state) (hquiet : Effect.Quiet o.effects)
    (h : Behaves (slot { t with slot := o.state }) (Books.turn t.toBooks)
      (f o.answer { t with slot := o.state })) :
    Behaves t.slot t.turn ((t.onSlot o).andThen f) where
  alike := halike.trans h.alike
  turn := h.turn
  effects := by
    obtain ⟨es, hes, heffects⟩ := h.effects
    refine ⟨o.effects ++ es, hquiet.append hes, ?_⟩
    have happend : ((t.onSlot o).andThen f).effects
        = o.effects ++ (f o.answer { t with slot := o.state }).effects := rfl
    rw [happend, heffects, List.append_assoc]
    rfl

theorem follow_behaves (t : Tenancy α κ) (a : Answer α) (mayDefer : Bool) (next : Sequel α κ) :
    Behaves t.slot t.turn (t.follow a mayDefer next) := by
  cases next with
  | nothing => exact reply_behaves t a
  | home => exact goHome_behaves t a
  | resume k v =>
    rw [follow]
    split <;> exact ⟨.refl _, rfl, [], Effect.quiet_nil, rfl⟩

theorem received_behaves (t : Tenancy α κ) (lease : Nat) (a : Answer α) (v : Option (Verdict α)) :
    Behaves t.slot t.turn (t.received lease a v) := by
  cases v with
  | none => exact reply_behaves t a
  | some v => exact goHome_behaves { t with futures := t.futures.erase lease } _

theorem withCompleter_behaves {lease : Nat} {use : Pass → Step α κ}
    (h : ∀ c, Behaves t.slot t.turn (use c)) :
    Behaves t.slot t.turn (t.withCompleter lease use) := by
  rw [withCompleter]
  split
  · exact h _
  · exact reply_behaves t _

theorem withFuture_behaves {lease : Nat} {use : Step α κ} (h : Behaves t.slot t.turn use) :
    Behaves t.slot t.turn (t.withFuture lease use) := by
  rw [withFuture]
  split
  · exact h
  · exact reply_behaves t _

theorem withDue_behaves {jobs : List (Due α κ)} {lease : Nat} {use : Due α κ → Step α κ}
    (h : ∀ j, Behaves t.slot t.turn (use j)) :
    Behaves t.slot t.turn (t.withDue jobs lease use) := by
  rw [withDue]
  split
  · exact h _
  · exact reply_behaves t _

theorem step_behaves (t : Tenancy α κ) (e : Event α κ) : Behaves t.slot t.turn (t.step e) := by
  match e with
  | .lease =>
    rw [step]
    refine onSlot_behaves t.slot.lease_alike (Effect.quiet_of_nil t.slot.lease_effects) ?_
    split <;> exact ⟨.refl _, rfl, [], Effect.quiet_nil, rfl⟩
  | .act lease (.complete v) =>
    refine withCompleter_behaves fun c => onSlot_behaves (t.slot.complete_alike _ v)
      (t.slot.complete_quiet _ v) ?_
    split
    · exact follow_behaves _ _ _ _
    · exact reply_behaves _ _
  | .act lease .clone =>
    refine withCompleter_behaves fun c => onSlot_behaves (t.slot.enlist_alike _ 1)
      (Effect.quiet_of_nil (t.slot.enlist_effects _ 1)) ?_
    split <;> exact ⟨.refl _, rfl, [], Effect.quiet_nil, rfl⟩
  | .act lease .drop =>
    exact withCompleter_behaves fun c =>
      onSlot_behaves (t := { t with completers := t.completers.erase c })
        (t.slot.dismiss_alike _) (t.slot.dismiss_quiet _) (follow_behaves _ _ _ _)
  | .act lease .isSettled => exact withCompleter_behaves fun c => reply_behaves t _
  | .act lease (.poll w) =>
    exact withFuture_behaves <| onSlot_behaves (t.slot.poll_alike w)
      (Effect.quiet_of_nil (t.slot.poll_effects w)) (received_behaves _ _ _ _)
  | .act lease .tryResult =>
    exact withFuture_behaves <| onSlot_behaves t.slot.take_alike
      (Effect.quiet_of_nil t.slot.take_effects) (received_behaves _ _ _ _)
  | .act lease (.register k) =>
    exact withFuture_behaves <| onSlot_behaves (t := { t with futures := t.futures.erase lease })
      (t.slot.register_alike k) (Effect.quiet_of_nil (t.slot.register_effects k))
      (follow_behaves _ _ _ _)
  | .act lease .detach =>
    exact withFuture_behaves <| onSlot_behaves (t := { t with futures := t.futures.erase lease })
      t.slot.detach_alike (Effect.quiet_of_nil t.slot.detach_effects) (follow_behaves _ _ _ _)
  | .act lease .start => exact withDue_behaves fun j => ⟨.refl _, rfl, [], Effect.quiet_nil, rfl⟩
  | .act lease .finish => exact withDue_behaves fun j =>
    ⟨t.slot.recycle_alike, rfl, [], Effect.quiet_nil, rfl⟩
  | .act lease .fail => exact withDue_behaves fun j => ⟨.refl _, rfl, [], Effect.quiet_nil, rfl⟩
  | .act lease .discard => exact withDue_behaves fun j => ⟨.refl _, rfl, [], Effect.quiet_nil, rfl⟩

theorem after_alike (t : Tenancy α κ) (es : List (Event α κ)) :
    t.slot.Alike (t.after es).slot := by
  induction es generalizing t with
  | nil => exact .refl _
  | cons e es ih => exact (step_behaves t e).alike.trans (ih _)

/-- A history of no more than 2^32 events leaves no completer the time to be late. -/
theorem timely_of_length_le {es : List (Event α κ)} (h : t.turn + es.length ≤ 4294967296) :
    t.Timely es := by
  induction es generalizing t with
  | nil => trivial
  | cons e es ih =>
    rw [List.length_cons] at h
    refine ⟨?_, ih ?_⟩
    · cases e with
      | lease => trivial
      | act lease a =>
        intro _
        omega
    · rw [(step_behaves t e).turn]
      have hone := Bool.toNat_le (t.step e).answer.recycled
      omega

end Tenancy

end Lease

end Conduit

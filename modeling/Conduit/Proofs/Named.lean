/-
  Conduit/Proofs/Named.lean
  =========================
  **Names hold one thing at a time.**

  What a name holds is what was put under it last.  `collect` gathers something from
  everything that is held; with distinct names it gathers exactly what the names hold,
  and freeing a name takes out exactly that name's share.
-/
import Conduit.Named
import Mathlib.Data.List.Perm.Subperm

namespace Conduit.Named

variable {α β : Type} {m : Named α} {k k' : String} {a : α}

/-- No name is there twice. -/
def Distinct (m : Named α) : Prop := (m.map Prod.fst).Nodup

theorem distinct_nil : Distinct ([] : Named α) := List.nodup_nil

theorem Distinct.erase (h : m.Distinct) (k : String) : (m.erase k).Distinct :=
  h.sublist (List.filter_sublist.map Prod.fst)

theorem Distinct.put (h : m.Distinct) (k : String) (a : α) : (m.put k a).Distinct := by
  refine List.nodup_cons.mpr ⟨fun hmem => ?_, h.erase k⟩
  obtain ⟨e, he, heq⟩ := List.mem_map.mp hmem
  have hne := (List.mem_filter.mp he).2
  exact absurd heq (bne_iff_ne.mp hne)

@[simp] theorem erase_erase (m : Named α) (k : String) : (m.erase k).erase k = m.erase k := by
  simp [erase]

@[simp] theorem erase_put (m : Named α) (k : String) (a : α) :
    (m.put k a).erase k = m.erase k := by
  simp [put, erase]

/-! ### What a name holds -/

theorem get?_cons_eq (e : String × α) (m : Named α) (h : e.1 = k) :
    get? (e :: m) k = some e.2 := by
  subst h
  exact List.lookup_cons_self

theorem get?_cons_ne (e : String × α) (m : Named α) (h : e.1 ≠ k) :
    get? (e :: m) k = m.get? k := by
  obtain ⟨k₀, a₀⟩ := e
  have hne : (k == k₀) = false := beq_eq_false_iff_ne.mpr (Ne.symm h)
  simp only [get?, List.lookup_cons, hne]

theorem erase_cons_eq (e : String × α) (m : Named α) (h : e.1 = k) :
    erase (e :: m) k = m.erase k := by
  simp [erase, h]

theorem erase_cons_ne (e : String × α) (m : Named α) (h : e.1 ≠ k) :
    erase (e :: m) k = e :: m.erase k := by
  simp [erase, h]

theorem get?_erase_self (m : Named α) (k : String) : (m.erase k).get? k = none := by
  rw [get?, List.lookup_eq_none_iff]
  intro e he
  have hne := (List.mem_filter.mp he).2
  exact bne_iff_ne.mpr (bne_iff_ne.mp hne).symm

theorem get?_erase_ne (m : Named α) (h : k' ≠ k) : (m.erase k).get? k' = m.get? k' := by
  induction m with
  | nil => rfl
  | cons e m ih =>
    by_cases hk : e.1 = k
    · rw [erase_cons_eq e m hk, get?_cons_ne e m (hk ▸ h.symm), ih]
    · rw [erase_cons_ne e m hk]
      by_cases hk' : e.1 = k'
      · rw [get?_cons_eq e _ hk', get?_cons_eq e _ hk']
      · rw [get?_cons_ne e _ hk', get?_cons_ne e _ hk', ih]

@[simp] theorem get?_put_self (m : Named α) (k : String) (a : α) : (m.put k a).get? k = some a :=
  get?_cons_eq (k, a) _ rfl

theorem get?_put_ne (m : Named α) (a : α) (h : k' ≠ k) : (m.put k a).get? k' = m.get? k' := by
  rw [put, get?_cons_ne (k, a) _ (Ne.symm h), get?_erase_ne m h]

theorem mem_of_get? (h : m.get? k = some a) : (k, a) ∈ m := by
  induction m with
  | nil => exact absurd h (by simp [get?])
  | cons e m ih =>
    by_cases hk : e.1 = k
    · rw [get?_cons_eq e m hk] at h
      obtain rfl := Option.some.inj h
      exact hk ▸ List.mem_cons_self
    · rw [get?_cons_ne e m hk] at h
      exact List.mem_cons_of_mem _ (ih h)

/-- A name that holds nothing is free already. -/
theorem erase_of_get?_none (h : m.get? k = none) : m.erase k = m := by
  rw [get?, List.lookup_eq_none_iff] at h
  refine List.filter_eq_self.mpr fun e he => ?_
  exact bne_iff_ne.mpr (bne_iff_ne.mp (h e he)).symm

/-- Freeing a name leaves everything else. -/
theorem perm_erase (hm : m.Distinct) (h : m.get? k = some a) : m.Perm ((k, a) :: m.erase k) := by
  induction m with
  | nil => exact absurd h (by simp [get?])
  | cons e m ih =>
    rw [Distinct, List.map_cons, List.nodup_cons] at hm
    by_cases hk : e.1 = k
    · rw [get?_cons_eq e m hk] at h
      obtain rfl := Option.some.inj h
      have habsent : get? m k = none := by
        rw [get?, List.lookup_eq_none_iff]
        intro e' he'
        refine bne_iff_ne.mpr fun heq => hm.1 ?_
        exact List.mem_map.mpr ⟨e', he', heq.symm.trans hk.symm⟩
      rw [erase_cons_eq e m hk, erase_of_get?_none habsent, ← hk]
    · rw [get?_cons_ne e m hk] at h
      rw [erase_cons_ne e m hk]
      exact ((ih hm.2 h).cons e).trans (List.Perm.swap _ _ _)

/-! ### Agreement -/

section Agreement

variable {m' : Named α}

/-- All names but one hold the same. -/
def AgreeBut (k : String) (m m' : Named α) : Prop := ∀ k', k' ≠ k → m'.get? k' = m.get? k'

theorem AgreeBut.put (h : AgreeBut k m m') (k' : String) (a : α) :
    AgreeBut k (m.put k' a) (m'.put k' a) := by
  intro j hj
  by_cases heq : j = k'
  · rw [heq, get?_put_self, get?_put_self]
  · rw [get?_put_ne m' a heq, get?_put_ne m a heq, h j hj]

theorem AgreeBut.erase (h : AgreeBut k m m') (k' : String) :
    AgreeBut k (m.erase k') (m'.erase k') := by
  intro j hj
  by_cases heq : j = k'
  · rw [heq, get?_erase_self, get?_erase_self]
  · rw [get?_erase_ne m' heq, get?_erase_ne m heq, h j hj]

theorem agreeBut_put (m : Named α) (k : String) (a : α) : AgreeBut k m (m.put k a) :=
  fun _ hj => get?_put_ne m a hj

end Agreement

/-! ### Gathering -/

/-- What `f` finds in everything that is held. -/
def collect (f : α → Option β) (m : Named α) : List β := m.filterMap fun e => f e.2

variable {f : α → Option β} {b : β}

theorem collect_put (f : α → Option β) (m : Named α) (k : String) (a : α) :
    (m.put k a).collect f = (f a).toList ++ (m.erase k).collect f := by
  cases h : f a <;> simp [put, collect, h]

/-- What is gathered is the share of one name and the rest. -/
theorem collect_perm (f : α → Option β) (hm : m.Distinct) (k : String) :
    (m.collect f).Perm (((m.get? k).bind f).toList ++ (m.erase k).collect f) := by
  cases h : m.get? k with
  | none => rw [erase_of_get?_none h, Option.bind_none, Option.toList_none, List.nil_append]
  | some a =>
    have hperm := (perm_erase hm h).filterMap fun e => f e.2
    cases hf : f a <;> simpa [collect, hf] using hperm

theorem mem_collect (hm : m.Distinct) :
    b ∈ m.collect f ↔ ∃ k, (m.get? k).bind f = some b := by
  constructor
  · intro hb
    obtain ⟨e, he, hf⟩ := List.mem_filterMap.mp hb
    refine ⟨e.1, ?_⟩
    have hget : m.get? e.1 = some e.2 := by
      induction m with
      | nil => exact absurd he (by simp)
      | cons e' m ih =>
        rw [Distinct, List.map_cons, List.nodup_cons] at hm
        rcases List.mem_cons.mp he with rfl | hmem
        · exact get?_cons_eq e m rfl
        · have hne : e'.1 ≠ e.1 := fun heq => hm.1 (List.mem_map.mpr ⟨e, hmem, heq.symm⟩)
          rw [get?_cons_ne e' m hne]
          exact ih hm.2 (List.mem_filterMap.mpr ⟨e, hmem, hf⟩) hmem
    rw [hget, Option.bind_some]
    exact hf
  · rintro ⟨k, hk⟩
    obtain ⟨a, ha, hf⟩ := Option.bind_eq_some_iff.mp hk
    exact List.mem_filterMap.mpr ⟨(k, a), mem_of_get? ha, hf⟩

end Conduit.Named

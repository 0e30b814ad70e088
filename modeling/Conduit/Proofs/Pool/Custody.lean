/-
  Conduit/Proofs/Pool/Custody.lean
  ================================
  **Who has an item of a pool.**

  An item is known by its number.  An item that comes into being, made by the generator or
  brought from elsewhere, is parked, is lent, or is destroyed; no operation of a pool makes
  a second one of it or forgets it, and none that panics touches more than one item.

  The balance of an operation lists numbers on both sides: what came and what was parked
  before, and what went, what was destroyed and what is parked after it.
-/
import Conduit.Pool.Session
import Conduit.Proofs.Pool.Row

namespace Conduit

namespace Effect

@[simp] theorem destructions_nil : destructions [] = [] := rfl

@[simp] theorem destructions_append (es es' : List Effect) :
    destructions (es ++ es') = destructions es ++ destructions es' := List.filterMap_append

@[simp] theorem destructions_reported (o : Observer) (e : Event) (es : List Effect) :
    destructions (.reported o e :: es) = destructions es := rfl

end Effect

namespace Pool

/-! ### What the generator made -/

/-- The calls of a generator from `i` on and below `j` that made an item. -/
def made {α : Type} (make : Nat → Except Panic α) (i j : Nat) : List Nat :=
  (List.range' i (j - i)).filter fun n => (make n).isOk

section Made

variable {α : Type} (make : Nat → Except Panic α)

@[simp] theorem made_self (i : Nat) : made make i i = [] := by
  simp [made]

theorem made_append {i j k : Nat} (hij : i ≤ j) (hjk : j ≤ k) :
    made make i j ++ made make j k = made make i k := by
  have hstart : j = i + (j - i) := by omega
  have hlength : k - i = (j - i) + (k - j) := by omega
  rw [made, made, made, ← List.filter_append, hlength, ← List.range'_append_1, ← hstart]

theorem nodup_made (i j : Nat) : (made make i j).Nodup :=
  List.Nodup.sublist List.filter_sublist List.nodup_range'

theorem made_one (i : Nat) :
    made make i (i + 1) = if (make i).isOk then [i] else [] := by
  rw [made, Nat.add_sub_cancel_left, List.range'_one, List.filter_cons, List.filter_nil]

end Made

/-! ### Numbered items -/

/-- Items that can be told apart: each has a number, which stays the same when the item is lent,
    changed or given back, and which it leaves when it is destroyed.  Whether a hook fails may
    depend on anything in the item. -/
class Numbered (α : Type) extends Specimen α where
  number : α → Nat
  number_make : ∀ n text, number (make n text) = n
  number_push : ∀ front text a, number (push front text a) = number a
  number_onBorrow : ∀ a b, onBorrow a = .ok b → number b = number a
  number_reset : ∀ a b, reset a = .ok b → number b = number a
  mark_eq : ∀ a, mark? a = some (number a)

instance : Numbered Tracked where
  number := Tracked.id
  number_make _ _ := rfl
  number_push _ _ _ := rfl
  number_onBorrow a b h := by
    simp only [Poolable.onBorrow] at h
    split at h
    · cases h
    · cases h
      rfl
  number_reset a b h := by
    simp only [Poolable.reset] at h
    split at h
    · cases h
    · cases h
      rfl
  mark_eq _ := rfl

/-- What is in a box is known by the same number. -/
instance {α : Type} [Numbered α] : Numbered (Boxed α) where
  number b := Numbered.number b.content
  number_make n text := Numbered.number_make n text
  number_push front text b := Numbered.number_push front text b.content
  number_onBorrow b c h := by
    cases hcontent : Poolable.onBorrow b.content with
    | error e =>
      simp only [Poolable.onBorrow, hcontent] at h
      cases h
    | ok a =>
      simp only [Poolable.onBorrow, hcontent] at h
      cases h
      exact Numbered.number_onBorrow _ _ hcontent
  number_reset b c h := by
    cases hcontent : Poolable.reset b.content with
    | error e =>
      simp only [Poolable.reset, hcontent] at h
      cases h
    | ok a =>
      simp only [Poolable.reset, hcontent] at h
      cases h
      exact Numbered.number_reset _ _ hcontent
  mark_eq b := Numbered.mark_eq b.content

open Numbered (number)

variable {α : Type} [Numbered α]

@[simp] theorem destructions_destroy (a : α) : Effect.destructions (destroy a) = [number a] := by
  rw [destroy, Numbered.mark_eq]
  rfl

theorem destructions_destroy_all (items : List α) :
    Effect.destructions (items.flatMap fun a => destroy a) = items.map number := by
  induction items with
  | nil => rfl
  | cons a items ih =>
    rw [List.flatMap_cons, Effect.destructions_append, destructions_destroy, ih]
    rfl

/-- The generator numbers what it makes by its calls. -/
def Counted (p : Pool α) : Prop := ∀ n a, p.make n = .ok a → number a = n

/-! ### Slots -/

namespace Slots

/-- The numbers of the parked items. -/
def numbers (slots : Slots α) : List Nat := (parked slots).map number

/-- Taking empties one slot, which held what is taken. -/
theorem take?_at {β : Type} {slots rest : Slots β} {a : β} (h : slots.take? = some (a, rest)) :
    ∃ i : Nat, slots[i]? = some (some a) ∧ rest = slots.set i none := by
  induction slots generalizing rest with
  | nil => cases h
  | cons b slots ih =>
    cases b with
    | some b =>
      cases h
      exact ⟨0, rfl, rfl⟩
    | none =>
      rw [take?, Option.map_eq_some_iff] at h
      obtain ⟨⟨a', rest'⟩, hrest, heq⟩ := h
      cases heq
      obtain ⟨i, hi, rfl⟩ := ih hrest
      exact ⟨i + 1, hi, rfl⟩

/-- With no number parked twice, no two slots hold the same item. -/
theorem place_unique {slots : Slots α} (hnodup : (numbers slots).Nodup) {i j : Nat} {a b : α}
    (hi : slots[i]? = some (some a)) (hj : slots[j]? = some (some b))
    (hab : number a = number b) : i = j := by
  induction slots generalizing i j with
  | nil => cases hi
  | cons c slots ih =>
    have hmem {k : Nat} {d : α} (hk : slots[k]? = some (some d)) : number d ∈ numbers slots :=
      List.mem_map_of_mem (List.mem_filterMap.mpr ⟨some d, List.mem_of_getElem? hk, rfl⟩)
    have hrest : (numbers slots).Nodup := by
      cases c with
      | none => exact hnodup
      | some c => exact (List.nodup_cons.mp hnodup).2
    cases i with
    | zero =>
      obtain rfl : c = some a := Option.some.inj hi
      cases j with
      | zero => rfl
      | succ j => exact absurd (hab ▸ hmem hj) (List.nodup_cons.mp hnodup).1
    | succ i =>
      cases j with
      | zero =>
        obtain rfl : c = some b := Option.some.inj hj
        exact absurd (hab ▸ hmem hi) (List.nodup_cons.mp hnodup).1
      | succ j => exact congrArg (· + 1) (ih hrest hi hj)

end Slots

/-! ### Operations -/

/-- An operation on a pool that took the numbers `came` in and gave the numbers `went` away:
    nothing is lost, and nothing is there twice. -/
structure Conserves (came : List Nat) (p : Pool α) (went : List Nat) (es : List Effect)
    (p' : Pool α) : Prop where
  make : p'.make = p.make
  calls : p.calls ≤ p'.calls
  balance : (came ++ made p.make p.calls p'.calls ++ Slots.numbers p.slots).Perm
    (went ++ Effect.destructions es ++ Slots.numbers p'.slots)

/-- A panic destroys one item at most; a slot that is not as before held that item. -/
structure Spares (before : Slots α) (es : List Effect) (after : Slots α) : Prop where
  atMostOne : (Effect.destructions es).length ≤ 1
  others : ∀ i : Nat, after[i]? = before[i]? ∨
    ∃ a, before[i]? = some (some a) ∧ after[i]? = some none ∧
      Effect.destructions es = [number a]

theorem Spares.same {slots : Slots α} {es : List Effect}
    (h : (Effect.destructions es).length ≤ 1) : Spares slots es slots :=
  ⟨h, fun _ => Or.inl rfl⟩

/-- The number that an answer lends. -/
def lent : Except Panic α → List Nat
  | .ok a => [number a]
  | .error _ => []

/-- An item that is lent goes to its borrower, or is destroyed when it refuses. -/
theorem lend_cases (a : α) (p : Pool α) :
    (∃ b, lend a p = .pure (.ok b) p ∧ number b = number a) ∨
      ∃ e, lend a p = ⟨.error e, p, destroy a⟩ := by
  rw [lend]
  cases hlent : Poolable.onBorrow a with
  | ok b => exact Or.inl ⟨b, rfl, Numbered.number_onBorrow a b hlent⟩
  | error e => exact Or.inr ⟨e, rfl⟩

theorem lend_lent (a : α) (p : Pool α) :
    lent (lend a p).answer ++ Effect.destructions (lend a p).effects = [number a] ∧
      (lend a p).state = p := by
  obtain ⟨b, hlend, hb⟩ | ⟨e, hlend⟩ := lend_cases a p
  · simp [hlend, lent, hb]
  · simp [hlend, lent]

theorem borrow_conserves {p : Pool α} (hp : p.Counted) :
    Conserves [] p (lent p.borrow.answer) p.borrow.effects p.borrow.state := by
  obtain ⟨a, rest, htake, hborrow⟩ | ⟨a, htake, hmake, hborrow⟩ | ⟨e, htake, hmake, hborrow⟩ :=
    borrow_cases p
  · obtain ⟨hlent, hstate⟩ := lend_lent a { p with slots := rest }
    have hparked : Slots.numbers p.slots = number a :: Slots.numbers rest := by
      rw [Slots.numbers, (Slots.take?_some htake).1]
      rfl
    rw [hborrow]
    constructor
    · rw [hstate]
    · apply Nat.le_of_eq
      rw [hstate]
    · rw [hstate, hlent, hparked, made_self]
      exact .refl _
  · obtain ⟨hlent, hstate⟩ := lend_lent a { p with calls := p.calls + 1 }
    rw [hborrow]
    constructor
    · rw [hstate]
    · rw [hstate]
      exact Nat.le_succ _
    · rw [Effect.destructions_reported, hlent, hstate, made_one, hmake, hp _ _ hmake]
      exact .refl _
  · rw [hborrow]
    constructor
    · rfl
    · exact Nat.le_succ _
    · show (made p.make p.calls (p.calls + 1) ++ Slots.numbers p.slots).Perm (Slots.numbers p.slots)
      rw [made_one, hmake]
      exact .refl _

theorem borrow_spares {p : Pool α} {e : Panic} (h : p.borrow.answer = .error e) :
    Spares p.slots p.borrow.effects p.borrow.state.slots := by
  obtain ⟨a, rest, htake, hborrow⟩ | ⟨a, htake, hmake, hborrow⟩ | ⟨e, htake, hmake, hborrow⟩ :=
    borrow_cases p
  · obtain ⟨i, hi, rfl⟩ := Slots.take?_at htake
    rw [hborrow] at h ⊢
    obtain ⟨b, hlend, hb⟩ | ⟨e, hlend⟩ := lend_cases a { p with slots := p.slots.set i none }
    · rw [hlend] at h
      cases h
    · rw [hlend]
      constructor
      · rw [destructions_destroy]
        exact Nat.le_refl 1
      · intro j
        by_cases hij : i = j
        · subst hij
          have hlt := (List.getElem?_eq_some_iff.mp hi).1
          exact Or.inr ⟨a, hi, List.getElem?_set_self hlt, destructions_destroy a⟩
        · exact Or.inl (List.getElem?_set_ne hij)
  · obtain ⟨hlent, hstate⟩ := lend_lent a { p with calls := p.calls + 1 }
    have hone := congrArg List.length hlent
    rw [List.length_append, List.length_singleton] at hone
    rw [hborrow, hstate]
    apply Spares.same
    rw [Effect.destructions_reported]
    omega
  · rw [hborrow]
    exact Spares.same (Nat.zero_le _)

/-- What becomes of an item that is given back: it is parked or destroyed as it is or was reset, or
    destroyed because it cannot be reset. -/
theorem release_cases (a : α) (p : Pool α) :
    (∃ b, number b = number a ∧ p.release a = p.park b) ∨
      ∃ e, p.release a = ⟨.error e, p, destroy a⟩ := by
  rw [release]
  split
  · exact Or.inl ⟨a, rfl, rfl⟩
  · cases hreset : Poolable.reset a with
    | ok b => exact Or.inl ⟨b, Numbered.number_reset a b hreset, rfl⟩
    | error e => exact Or.inr ⟨e, rfl⟩

theorem park_conserves (a : α) (p : Pool α) :
    Conserves [number a] p [] (p.park a).effects (p.park a).state := by
  obtain ⟨slots, hput, hpark⟩ | hpark := park_cases a p
  · have hparked := (Slots.put?_some hput).1.map number
    rw [hpark]
    refine ⟨rfl, Nat.le_refl _, ?_⟩
    show (number a :: (made p.make p.calls p.calls ++ Slots.numbers p.slots)).Perm
      (Slots.numbers slots)
    rw [made_self]
    exact hparked.symm
  · rw [hpark]
    refine ⟨rfl, Nat.le_refl _, ?_⟩
    rw [Effect.destructions_reported, destructions_destroy, made_self]
    exact .refl _

theorem release_conserves (a : α) (p : Pool α) :
    Conserves [number a] p [] (p.release a).effects (p.release a).state := by
  obtain ⟨b, hb, hrelease⟩ | ⟨e, hrelease⟩ := release_cases a p
  · rw [hrelease, ← hb]
    exact park_conserves b p
  · rw [hrelease]
    refine ⟨rfl, Nat.le_refl _, ?_⟩
    rw [destructions_destroy, made_self]
    exact .refl _

theorem release_spares {a : α} {p : Pool α} {e : Panic} (h : (p.release a).answer = .error e) :
    Spares p.slots (p.release a).effects (p.release a).state.slots ∧
      Effect.destructions (p.release a).effects = [number a] := by
  obtain ⟨b, hb, hrelease⟩ | ⟨e, hrelease⟩ := release_cases a p
  · rw [hrelease] at h
    obtain ⟨slots, hput, hpark⟩ | hpark := park_cases b p
    · rw [hpark] at h
      cases h
    · rw [hpark] at h
      cases h
  · rw [hrelease]
    have hone := destructions_destroy a
    exact ⟨Spares.same (Nat.le_of_eq (congrArg List.length hone)), hone⟩

/-- Dropping a pool destroys every parked item. -/
theorem clear_conserves (p : Pool α) :
    Conserves [] p [] p.clear.effects p.clear.state ∧ Slots.numbers p.clear.state.slots = [] := by
  have hempty : Slots.numbers p.clear.state.slots = [] := by
    show (List.filterMap id (p.slots.map fun _ => none)).map number = []
    simp
  have hdestroyed : Effect.destructions p.clear.effects = Slots.numbers p.slots :=
    destructions_destroy_all _
  refine ⟨⟨rfl, Nat.le_refl _, ?_⟩, hempty⟩
  show (made p.make p.calls p.calls ++ Slots.numbers p.slots).Perm
    (Effect.destructions p.clear.effects ++ Slots.numbers p.clear.state.slots)
  rw [hempty, hdestroyed, made_self, List.append_nil]
  exact .refl _

theorem Conserves.refl (p : Pool α) : Conserves [] p [] [] p :=
  ⟨rfl, Nat.le_refl _, by rw [made_self]; exact .refl _⟩

/-- One operation after the other, where what the first one gave away goes into the second. -/
theorem Conserves.trans {came kept went : List Nat} {es es' : List Effect} {p p' p'' : Pool α}
    (h : Conserves came p kept es p') (h' : Conserves kept p' went es' p'') :
    Conserves came p went (es ++ es') p'' := by
  refine ⟨h'.make.trans h.make, Nat.le_trans h.calls h'.calls, ?_⟩
  have hbalance := h.balance
  have hbalance' := h'.balance
  rw [h.make] at hbalance'
  rw [← made_append p.make h.calls h'.calls, Effect.destructions_append]
  rw [List.perm_iff_count] at hbalance hbalance' ⊢
  intro n
  have hn := hbalance n
  have hn' := hbalance' n
  simp only [List.count_append] at hn hn' ⊢
  omega

/-- Filling the slots parks what the generator makes; when the generator panics, all of it is
    destroyed. -/
theorem fill_conserves (n : Nat) {p : Pool α} (hp : p.Counted) :
    Conserves [] p [] (p.fill n).effects (p.fill n).state ∧
      ∀ e, (p.fill n).answer = .error e → Slots.numbers (p.fill n).state.slots = [] := by
  induction n generalizing p with
  | zero =>
    refine ⟨Conserves.refl p, ?_⟩
    intro e h
    cases h
  | succ n ih =>
    rw [fill]
    cases hmake : p.make p.calls with
    | error e =>
      have hgenerate : p.generate = .pure (.error e) { p with calls := p.calls + 1 } := by
        rw [generate, hmake]
      have hcalled : Conserves [] p [] [] { p with calls := p.calls + 1 } := by
        refine ⟨rfl, Nat.le_succ _, ?_⟩
        rw [made_one, hmake]
        exact .refl _
      rw [hgenerate]
      obtain ⟨hclear, hempty⟩ := clear_conserves { p with calls := p.calls + 1 }
      exact ⟨hcalled.trans hclear, fun _ _ => hempty⟩
    | ok a =>
      have hgenerate : p.generate = .pure (.ok a) { p with calls := p.calls + 1 } := by
        rw [generate, hmake]
      have hmade : Conserves [] p [number a] [] { p with calls := p.calls + 1 } := by
        refine ⟨rfl, Nat.le_succ _, ?_⟩
        rw [made_one, hmake, hp _ _ hmake]
        exact .refl _
      rw [hgenerate]
      have hparked := hmade.trans (park_conserves a { p with calls := p.calls + 1 })
      have hcounted : (park a { p with calls := p.calls + 1 }).state.Counted := by
        rw [Counted, hparked.make]
        exact hp
      obtain ⟨hfill, hempty⟩ := ih hcounted
      exact ⟨hparked.trans hfill, hempty⟩

end Pool

end Conduit

/-
  Conduit/Proofs/Pool/Row.lean
  ============================
  **What a row of slots has parked.**

  A row lends the first item that it has parked, and none if it has none.  It parks an
  item as long as there are fewer parked than there are slots, and keeps all others.  The
  operations of a pool go by that, whatever the items.
-/
import Conduit.Pool.Basic

namespace Conduit.Pool

namespace Slots

variable {α : Type} {slots rest : Slots α} {a : α}

theorem parked_length_le (slots : Slots α) : (parked slots).length ≤ slots.length :=
  List.length_filterMap_le id slots

theorem parked_replicate (n : Nat) : parked (List.replicate n (none : Option α)) = [] := by
  simp [parked]

/-- What is taken is the first parked item; the others stay. -/
theorem take?_some (h : slots.take? = some (a, rest)) :
    parked slots = a :: parked rest ∧ rest.length = slots.length := by
  induction slots generalizing rest with
  | nil => cases h
  | cons b slots ih =>
    cases b with
    | some b =>
      cases h
      exact ⟨rfl, rfl⟩
    | none =>
      rw [take?, Option.map_eq_some_iff] at h
      obtain ⟨⟨a', rest'⟩, hrest, heq⟩ := h
      cases heq
      obtain ⟨hparked, hlength⟩ := ih hrest
      exact ⟨hparked, congrArg (· + 1) hlength⟩

theorem take?_none (h : slots.take? = none) : parked slots = [] := by
  induction slots with
  | nil => rfl
  | cons b slots ih =>
    cases b with
    | some b => cases h
    | none => exact ih (Option.map_eq_none_iff.mp h)

/-- What is put is parked with the others. -/
theorem put?_some (h : slots.put? a = some rest) :
    (parked rest).Perm (a :: parked slots) ∧ rest.length = slots.length := by
  induction slots generalizing rest with
  | nil => cases h
  | cons b slots ih =>
    cases b with
    | none =>
      cases h
      exact ⟨.refl _, rfl⟩
    | some b =>
      rw [put?, Option.map_eq_some_iff] at h
      obtain ⟨rest', hrest, rfl⟩ := h
      obtain ⟨hparked, hlength⟩ := ih hrest
      exact ⟨(hparked.cons b).trans (.swap a b _), congrArg (· + 1) hlength⟩

/-- There is no room only if every slot is taken. -/
theorem put?_none (h : slots.put? a = none) : (parked slots).length = slots.length := by
  induction slots with
  | nil => rfl
  | cons b slots ih =>
    cases b with
    | none => cases h
    | some b => exact congrArg (· + 1) (ih (Option.map_eq_none_iff.mp h))

theorem put?_room (slots : Slots α) (a : α) (h : (parked slots).length < slots.length) :
    ∃ rest, slots.put? a = some rest := by
  cases hput : slots.put? a with
  | none => exact absurd (put?_none hput) (Nat.ne_of_lt h)
  | some rest => exact ⟨rest, rfl⟩

end Slots

variable {α : Type} [Poolable α]

/-! ### Operations -/

/-- What a borrow does: it lends an item off a slot or one that the generator makes, or the
    generator panics. -/
theorem borrow_cases (p : Pool α) :
    (∃ a rest, p.slots.take? = some (a, rest) ∧ p.borrow = lend a { p with slots := rest }) ∨
    (∃ a, p.slots.take? = none ∧ p.make p.calls = .ok a ∧
      p.borrow =
        { lend a { p with calls := p.calls + 1 } with
          effects := .reported p.observer (.poolMiss p.label)
            :: (lend a { p with calls := p.calls + 1 }).effects }) ∨
    ∃ e, p.slots.take? = none ∧ p.make p.calls = .error e ∧
      p.borrow = ⟨.error e, { p with calls := p.calls + 1 },
        [.reported p.observer (.poolMiss p.label)]⟩ := by
  rw [borrow]
  cases htake : p.slots.take? with
  | some taken => exact Or.inl ⟨taken.1, taken.2, rfl, rfl⟩
  | none =>
    cases hmake : p.make p.calls with
    | ok a =>
      refine Or.inr (Or.inl ⟨a, rfl, rfl, ?_⟩)
      simp only [generate, Outcome.andThen, Outcome.pure, hmake, List.nil_append,
        List.singleton_append]
    | error e =>
      refine Or.inr (Or.inr ⟨e, rfl, rfl, ?_⟩)
      simp only [generate, Outcome.andThen, Outcome.pure, hmake, List.append_nil]

/-- An item is parked, or destroyed because every slot is taken. -/
theorem park_cases (a : α) (p : Pool α) :
    (∃ slots, p.slots.put? a = some slots ∧ p.park a = .pure (.ok ()) { p with slots := slots }) ∨
      p.park a = ⟨.ok (), p, .reported p.observer (.poolOverflow p.label) :: destroy a⟩ := by
  rw [park]
  cases hput : p.slots.put? a with
  | some slots => exact Or.inl ⟨slots, rfl, rfl⟩
  | none => exact Or.inr rfl

/-- A fill that comes by an item and has a slot for it goes on from there. -/
theorem fill_succ (n : Nat) {p : Pool α} {a : α} {rest : Slots α}
    (hmake : p.make p.calls = .ok a) (hput : p.slots.put? a = some rest) :
    p.fill (n + 1) = fill n { p with slots := rest, calls := p.calls + 1 } := by
  have hgenerate : p.generate = .pure (.ok a) { p with calls := p.calls + 1 } := by
    rw [generate, hmake]
  have hpark : park a { p with calls := p.calls + 1 }
      = .pure (.ok ()) { p with slots := rest, calls := p.calls + 1 } := by
    rw [park, hput]
  rw [fill, hgenerate, Outcome.pure_andThen]
  show (park _ _).andThen _ = _
  rw [hpark, Outcome.pure_andThen]

/-- A fill with room for all of it parks what the generator makes, one item after the other, and
    does nothing else. -/
theorem fill_parks (make : Nat → α) (n : Nat) (p : Pool α) (hmake : p.make = fun i => .ok (make i))
    (hroom : (Slots.parked p.slots).length + n ≤ p.slots.length) :
    ∃ slots, p.fill n = .pure (.ok ()) { p with slots := slots, calls := p.calls + n } ∧
      (Slots.parked slots).Perm
        (((List.range' p.calls n).map make) ++ Slots.parked p.slots) ∧
      slots.length = p.slots.length := by
  induction n generalizing p with
  | zero => exact ⟨p.slots, rfl, .refl _, rfl⟩
  | succ n ih =>
    obtain ⟨rest, hput⟩ := Slots.put?_room p.slots (make p.calls) (by omega)
    obtain ⟨hparked, hlength⟩ := Slots.put?_some hput
    have hcount : (Slots.parked rest).length = (Slots.parked p.slots).length + 1 :=
      hparked.length_eq
    let q : Pool α := { p with slots := rest, calls := p.calls + 1 }
    obtain ⟨slots, hfill, hperm, hslots⟩ := ih q hmake (by
      show (Slots.parked rest).length + n ≤ rest.length
      omega)
    have hone : p.make p.calls = .ok (make p.calls) := by
      rw [hmake]
    have hstep : p.fill (n + 1) = q.fill n := fill_succ n hone hput
    refine ⟨slots, ?_, ?_, hslots.trans hlength⟩
    · rw [hstep, hfill, ← Nat.add_right_comm p.calls n 1]
      rfl
    · rw [List.range'_succ, List.map_cons, List.cons_append]
      exact (hperm.trans (hparked.append_left _)).trans List.perm_middle

end Conduit.Pool

/-
  Conduit/Proofs/Lease/Stock.lean
  ===============================
  **A depot and the leases on its slots.**

  A stock is a depot with the books on each of its slots.  Slots are rented, and the
  holders of leases act on them in any order; a slot that is recycled goes back to the
  shelf in the same event.

  The slots that are out are those rented and not yet recycled.  They are the ones that
  are not idle; none of them is parked, and no slot is out or parked twice.  Every slot
  that was made is parked, is out, or was turned away at a full shelf.
-/
import Conduit.Lease.Depot
import Conduit.Proofs.Lease.Resolution
import Conduit.Proofs.Pool.Row

namespace Conduit.Lease

/-- A depot, and the books on the slot of each number. -/
structure Stock (α κ : Type) where
  depot : Depot α κ
  books : Nat → Books α κ

/-- A slot is rented, or the holder of a lease of the slot of that number acts. -/
inductive Deal (α κ : Type)
  | rent
  | act (slot lease : Nat) (a : Act α κ)

/-- What is known of a deal: which slot was rented, and with which generation, or what an act on
    a slot led to. -/
inductive Notice (α κ : Type)
  | rented (r : Except Panic (Nat × UInt32))
  | acted (slot : Nat) (r : Receipt α κ)

/-- The slots that are out, when one more deal is known. -/
def Notice.enter {α κ : Type} (out : List Nat) : Notice α κ → List Nat
  | .rented (.ok (n, _)) => n :: out
  | .rented (.error _) => out
  | .acted n r => if r.recycled then out.erase n else out

/-- The slots that were rented and not recycled since. -/
def outstanding {α κ : Type} (notices : List (Notice α κ)) : List Nat :=
  notices.foldl Notice.enter []

namespace Stock

variable {α κ : Type}

/-- A depot that has just been opened. -/
def opened (capacity : Nat) (preInitialize deferred : Bool) (label : String)
    (observer : Observer) : Stock α κ :=
  ⟨(Depot.assemble capacity preInitialize deferred label observer).state, fun _ => .new⟩

def parked (s : Stock α κ) : List Nat := Pool.Slots.parked s.depot.shelf.slots

def tenancy (s : Stock α κ) (n : Nat) : Tenancy α κ := { s.books n with slot := s.depot.slot n }

def enter (s : Stock α κ) (n : Nat) (books : Books α κ) : Stock α κ :=
  { s with books := fun m => if m = n then books else s.books m }

def onDepot {β : Type} (s : Stock α κ) (o : Outcome β (Depot α κ)) : Outcome β (Stock α κ) :=
  o.lift fun d => { s with depot := d }

/-- Puts a slot back with its books. -/
def keep (s : Stock α κ) (n : Nat) (t : Tenancy α κ) : Stock α κ :=
  enter { s with depot := { s.depot with slots := s.depot.slots.set n t.slot } } n t.toBooks

def step (s : Stock α κ) : Deal α κ → Outcome (Notice α κ) (Stock α κ)
  | .rent =>
    (s.onDepot s.depot.rent).andThen fun
      | .ok (n, generation), s =>
        .pure (.rented (.ok (n, generation))) (s.enter n ((s.books n).sign generation))
      | .error p, s => .pure (.rented (.error p)) s
  | .act n lease a =>
    (((s.tenancy n).step (.act lease a)).lift (s.keep n)).andThen fun r s =>
      if r.recycled then (s.onDepot (s.depot.shelve n)).map fun _ => .acted n r
      else .pure (.acted n r) s

/-- Deals one after the other. -/
def run (s : Stock α κ) : List (Deal α κ) → Outcome (List (Notice α κ)) (Stock α κ)
  | [] => .pure [] s
  | e :: es => (s.step e).andThen fun n s => (run s es).map (n :: ·)

def InTime (s : Stock α κ) : Deal α κ → Prop
  | .rent => True
  | .act n lease a => (s.tenancy n).InTime (.act lease a)

/-- Every completer is used in time. -/
def Timely (s : Stock α κ) : List (Deal α κ) → Prop
  | [] => True
  | e :: es => s.InTime e ∧ Timely (s.step e).state es

/-! ### What is kept -/

/-- The books of a stock of which the slots of these numbers are out. -/
structure Sound (s : Stock α κ) (out : List Nat) : Prop where
  isOpen : s.depot.isOpen = true
  made : s.depot.shelf.calls = s.depot.slots.length
  numbered : s.depot.shelf.make = .ok
  parks : s.depot.shelf.ignoreDispose = true
  home : ∀ n, (s.depot.slot n).home = .depot
  stands : ∀ n, ∃ p, (s.tenancy n).Stands p ∧ (p = .idle ↔ n ∉ out)
  distinct : (s.parked ++ out).Nodup
  known : ∀ n ∈ s.parked ++ out, n < s.depot.slots.length
  unmade : ∀ n, s.depot.slots.length ≤ n → s.books n = .new

variable {s : Stock α κ} {out : List Nat} {n : Nat}

theorem Sound.unparked (h : s.Sound out) (hn : n ∈ out) : n ∉ s.parked := fun hparked =>
  (List.nodup_append.mp h.distinct).2.2 n hparked n hn rfl

theorem Sound.not_out (h : s.Sound out) (hn : n ∈ s.parked) : n ∉ out := fun hout =>
  (List.nodup_append.mp h.distinct).2.2 n hn n hout rfl

/-- The numbers of the slots do not move when new slots are made. -/
theorem slot_append (d : Depot α κ) (k m : Nat) :
    Depot.slot { d with slots := d.slots ++ List.replicate k d.blank } m = d.slot m := by
  rw [Depot.slot, Depot.slot]
  rcases Nat.lt_or_ge m d.slots.length with hlt | hge
  · simp [List.getD_eq_getElem?_getD, List.getElem?_append_left hlt]
  · simp only [List.getD_eq_getElem?_getD, List.getElem?_append_right hge,
      List.getElem?_eq_none hge, List.getElem?_replicate]
    split <;> rfl

theorem slot_set (d : Depot α κ) (hn : n < d.slots.length) (slot : Slot α κ) (m : Nat) :
    Depot.slot { d with slots := d.slots.set n slot } m = if m = n then slot else d.slot m := by
  rw [Depot.slot, Depot.slot]
  by_cases hm : m = n
  · subst hm
    simp [List.getD_eq_getElem?_getD, List.getElem?_set_self hn]
  · simp [List.getD_eq_getElem?_getD, List.getElem?_set_ne (Ne.symm hm), hm]

theorem tenancy_keep (s : Stock α κ) (hn : n < s.depot.slots.length) (t : Tenancy α κ) (m : Nat) :
    (s.keep n t).tenancy m = if m = n then t else s.tenancy m := by
  have hslot : (s.keep n t).depot.slot m = if m = n then t.slot else s.depot.slot m :=
    slot_set s.depot hn t.slot m
  have hbooks : (s.keep n t).books m = if m = n then t.toBooks else s.books m := rfl
  rw [tenancy, hslot, hbooks]
  by_cases hm : m = n
  · simp only [if_pos hm]
  · simp only [if_neg hm]
    rfl

/-- A slot that is put back changes whether it is out, and nothing else. -/
theorem Sound.keep (h : s.Sound out) (hn : n < s.depot.slots.length) {t : Tenancy α κ}
    {p : Phase α κ} (ht : t.Stands p) (hhome : t.slot.home = .depot) {out' : List Nat}
    (hp : p = .idle ↔ n ∉ out') (hothers : ∀ m, m ≠ n → (m ∈ out' ↔ m ∈ out))
    (hdistinct : (s.parked ++ out').Nodup) : (s.keep n t).Sound out' where
  isOpen := h.isOpen
  made := by
    rw [Stock.keep, enter, List.length_set]
    exact h.made
  numbered := h.numbered
  parks := h.parks
  home m := by
    have hslot : (s.keep n t).depot.slot m = if m = n then t.slot else s.depot.slot m :=
      slot_set s.depot hn t.slot m
    rw [hslot]
    split
    · exact hhome
    · exact h.home m
  stands m := by
    rw [tenancy_keep s hn]
    by_cases hm : m = n
    · rw [if_pos hm, hm]
      exact ⟨p, ht, hp⟩
    · rw [if_neg hm, hothers m hm]
      exact h.stands m
  distinct := hdistinct
  known m hm := by
    rw [Stock.keep, enter, List.length_set]
    by_cases heq : m = n
    · exact heq ▸ hn
    · refine h.known m (List.mem_append.mpr ?_)
      rw [← hothers m heq]
      exact List.mem_append.mp hm
  unmade m hm := by
    rw [Stock.keep, enter, List.length_set] at hm
    have hne : m ≠ n := Nat.ne_of_gt (Nat.lt_of_lt_of_le hn hm)
    show (if m = n then t.toBooks else s.books m) = .new
    rw [if_neg hne]
    exact h.unmade m hm

/-! ### Renting -/

/-- A parked slot is taken off the shelf. -/
theorem borrow_parked {d : Depot α κ} (hmade : d.shelf.calls = d.slots.length)
    {rest : Pool.Slots Nat} (htake : d.shelf.slots.take? = some (n, rest)) :
    d.onShelf d.shelf.borrow = .pure (.ok n) { d with shelf := { d.shelf with slots := rest } } := by
  have hborrow : d.shelf.borrow = .pure (.ok n) { d.shelf with slots := rest } := by
    rw [Pool.borrow, htake]
    rfl
  rw [hborrow]
  simp [Depot.onShelf, Depot.stock, hmade, Outcome.lift, Outcome.pure]

/-- With no slot parked a new one is made, and the miss is reported. -/
theorem borrow_new {d : Depot α κ} (hmade : d.shelf.calls = d.slots.length)
    (hnumbered : d.shelf.make = .ok) (htake : d.shelf.slots.take? = none) :
    d.onShelf d.shelf.borrow
      = ⟨.ok d.slots.length,
          { d with
            slots := d.slots ++ List.replicate 1 d.blank
            shelf := { d.shelf with calls := d.shelf.calls + 1 } },
          [.reported d.shelf.observer (.poolMiss d.shelf.label)]⟩ := by
  have hborrow : d.shelf.borrow
      = ⟨.ok d.slots.length, { d.shelf with calls := d.shelf.calls + 1 },
          [.reported d.shelf.observer (.poolMiss d.shelf.label)]⟩ := by
    simp [Pool.borrow, htake, Pool.generate, hnumbered, hmade, Outcome.andThen, Outcome.pure,
      Pool.lend, Pool.Poolable.onBorrow]
  rw [hborrow]
  simp [Depot.onShelf, Depot.stock, hmade, Outcome.lift]

/-- A slot that is neither parked nor out can be leased, and then it is out. -/
theorem Sound.lend (h : s.Sound out) (hn : n < s.depot.slots.length) (hparked : n ∉ s.parked)
    (hout : n ∉ out) :
    ∃ generation slot,
      (s.depot.slot n).IsFresh generation ∧
      s.depot.onSlot n Slot.lease
        = .pure (.ok generation) { s.depot with slots := s.depot.slots.set n slot } ∧
      (s.keep n { (s.books n).sign generation with slot := slot }).Sound (n :: out) := by
  obtain ⟨p, hp, hidle⟩ := h.stands n
  obtain rfl := hidle.mpr hout
  obtain ⟨slot, hlease, hslot⟩ := Slot.lease_idle hp.slot
  refine ⟨generationOf (s.books n).turn, slot, hp.slot.isFresh, ?_, ?_⟩
  · rw [Depot.onSlot]
    show ((s.tenancy n).slot.lease).lift _ = _
    rw [hlease]
    rfl
  · refine h.keep hn (hp.sign hslot) ?_ ?_ ?_ ?_
    · have halike := Slot.lease_alike (s.tenancy n).slot
      rw [hlease] at halike
      exact halike.home.trans (h.home n)
    · exact ⟨(nomatch ·), fun hnot => absurd List.mem_cons_self hnot⟩
    · intro m hm
      rw [List.mem_cons, or_iff_right hm]
    · refine List.perm_middle.nodup_iff.mpr (List.nodup_cons.mpr ⟨?_, h.distinct⟩)
      rw [List.mem_append, not_or]
      exact ⟨hparked, hout⟩

/-! ### Counting slots -/

/-- How often these effects tell of a miss, or of an overflow, of the shelf. -/
def misses (s : Stock α κ) (es : List Effect) : Nat :=
  es.count (.reported s.depot.shelf.observer (.poolMiss s.depot.shelf.label))

def overflows (s : Stock α κ) (es : List Effect) : Nat :=
  es.count (.reported s.depot.shelf.observer (.poolOverflow s.depot.shelf.label))

theorem misses_quiet (s : Stock α κ) {es : List Effect} (h : Effect.Quiet es) :
    s.misses es = 0 := by
  refine List.count_eq_zero.mpr fun hmem => ?_
  obtain ⟨w, heq⟩ | ⟨o, heq⟩ | ⟨o, heq⟩ := h _ hmem <;> cases heq

theorem overflows_quiet (s : Stock α κ) {es : List Effect} (h : Effect.Quiet es) :
    s.overflows es = 0 := by
  refine List.count_eq_zero.mpr fun hmem => ?_
  obtain ⟨w, heq⟩ | ⟨o, heq⟩ | ⟨o, heq⟩ := h _ hmem <;> cases heq

/-- From one stock to another with these effects: a slot was made for each miss, and one was given
    up for each overflow. -/
structure Passes (s : Stock α κ) (out : List Nat) (es : List Effect) (s' : Stock α κ)
    (out' : List Nat) : Prop where
  capacity : s'.depot.shelf.slots.length = s.depot.shelf.slots.length
  label : s'.depot.shelf.label = s.depot.shelf.label
  observer : s'.depot.shelf.observer = s.depot.shelf.observer
  made : s'.depot.slots.length = s.depot.slots.length + s.misses es
  held : s'.parked.length + out'.length + s.overflows es
    = s.parked.length + out.length + s.misses es

theorem Passes.refl (s : Stock α κ) (out : List Nat) : Passes s out [] s out :=
  ⟨rfl, rfl, rfl, rfl, rfl⟩

theorem Passes.trans {s' s'' : Stock α κ} {out' out'' : List Nat} {es es' : List Effect}
    (h : Passes s out es s' out') (h' : Passes s' out' es' s'' out'') :
    Passes s out (es ++ es') s'' out'' := by
  have hmisses : s.misses (es ++ es') = s.misses es + s'.misses es' := by
    rw [misses, misses, misses, List.count_append, h.label, h.observer]
  have hoverflows : s.overflows (es ++ es') = s.overflows es + s'.overflows es' := by
    rw [overflows, overflows, overflows, List.count_append, h.label, h.observer]
  refine ⟨h'.capacity.trans h.capacity, h'.label.trans h.label,
    h'.observer.trans h.observer, ?_, ?_⟩
  · rw [h'.made, h.made, hmisses, Nat.add_assoc]
  · have hheld := h.held
    have hheld' := h'.held
    omega

/-- A rent leases the slot that the shelf has handed out. -/
theorem step_rent {d : Depot α κ} {es : List Effect} {generation : UInt32} {slot : Slot α κ}
    (hborrow : s.depot.onShelf s.depot.shelf.borrow = ⟨.ok n, d, es⟩)
    (hlease : d.onSlot n Slot.lease = .pure (.ok generation) { d with slots := d.slots.set n slot }) :
    s.step .rent
      = ⟨.rented (.ok (n, generation)),
          Stock.keep { s with depot := d } n
            { (s.books n).sign generation with slot := slot }, es⟩ := by
  have hrent : s.depot.rent
      = ⟨.ok (n, generation), { d with slots := d.slots.set n slot }, es⟩ := by
    rw [Depot.rent, hborrow]
    simp [Outcome.andThen, hlease, Outcome.pure, Outcome.map, Except.map]
  rw [step, hrent]
  show Outcome.mk _ _ (es ++ []) = _
  rw [List.append_nil]
  rfl

/-- The shelf has handed out a slot that is neither parked nor out, and told of a miss if it was a
    new one. -/
structure Lends (s : Stock α κ) (out : List Nat) (n : Nat) (d : Depot α κ) (es : List Effect) :
    Prop where
  borrow : s.depot.onShelf s.depot.shelf.borrow = ⟨.ok n, d, es⟩
  sound : Sound { s with depot := d } out
  slot : d.slot n = s.depot.slot n
  known : n < d.slots.length
  unparked : n ∉ Pool.Slots.parked d.shelf.slots
  notOut : n ∉ out
  capacity : d.shelf.slots.length = s.depot.shelf.slots.length
  label : d.shelf.label = s.depot.shelf.label
  observer : d.shelf.observer = s.depot.shelf.observer
  made : d.slots.length = s.depot.slots.length + s.misses es
  held : (Pool.Slots.parked d.shelf.slots).length + 1 = s.parked.length + s.misses es
  overflows : s.overflows es = 0

theorem Sound.lends_parked (h : s.Sound out) {rest : Pool.Slots Nat}
    (htake : s.depot.shelf.slots.take? = some (n, rest)) :
    s.Lends out n { s.depot with shelf := { s.depot.shelf with slots := rest } } [] := by
  obtain ⟨hparked, hlength⟩ := Pool.Slots.take?_some htake
  have hall : s.parked = n :: Pool.Slots.parked rest := hparked
  have hdistinct := h.distinct
  rw [hall, List.cons_append] at hdistinct
  obtain ⟨hfree, hrest⟩ := List.nodup_cons.mp hdistinct
  rw [List.mem_append, not_or] at hfree
  have hknown : ∀ m ∈ n :: (Pool.Slots.parked rest ++ out), m < s.depot.slots.length := by
    intro m hm
    refine h.known m ?_
    rw [hall]
    exact hm
  exact
    { borrow := borrow_parked h.made htake
      sound :=
        { h with distinct := hrest, known := fun m hm => hknown m (List.mem_cons_of_mem n hm) }
      slot := rfl
      known := hknown n List.mem_cons_self
      unparked := hfree.1
      notOut := hfree.2
      capacity := hlength
      label := rfl
      observer := rfl
      made := rfl
      held := by
        rw [hall]
        rfl
      overflows := rfl }

/-- The depot with one slot more, which is idle, not parked and not out. -/
theorem Sound.more (h : s.Sound out) :
    Sound
      { s with
        depot :=
          { s.depot with
            slots := s.depot.slots ++ List.replicate 1 s.depot.blank
            shelf := { s.depot.shelf with calls := s.depot.shelf.calls + 1 } } } out := by
  have hlength : (s.depot.slots ++ List.replicate 1 s.depot.blank).length
      = s.depot.slots.length + 1 := by
    rw [List.length_append, List.length_replicate]
  have hslot := slot_append s.depot 1
  refine ⟨h.isOpen, ?_, h.numbered, h.parks, fun m => ?_, fun m => ?_, h.distinct, fun m hm => ?_,
    fun m hm => h.unmade m ?_⟩
  · show s.depot.shelf.calls + 1 = (s.depot.slots ++ List.replicate 1 s.depot.blank).length
    rw [hlength, h.made]
  · exact (congrArg Slot.home (hslot m)).trans (h.home m)
  · obtain ⟨p, hp, hidle⟩ := h.stands m
    refine ⟨p, ?_, hidle⟩
    show Tenancy.Stands ⟨s.books m, Depot.slot { s.depot with
      slots := s.depot.slots ++ List.replicate 1 s.depot.blank } m⟩ p
    rw [hslot]
    exact hp
  · show m < (s.depot.slots ++ List.replicate 1 s.depot.blank).length
    rw [hlength]
    exact Nat.lt_succ_of_lt (h.known m hm)
  · have hle : (s.depot.slots ++ List.replicate 1 s.depot.blank).length ≤ m := hm
    rw [hlength] at hle
    exact Nat.le_of_succ_le hle

theorem Sound.lends_new (h : s.Sound out) (htake : s.depot.shelf.slots.take? = none) :
    s.Lends out s.depot.slots.length
      { s.depot with
        slots := s.depot.slots ++ List.replicate 1 s.depot.blank
        shelf := { s.depot.shelf with calls := s.depot.shelf.calls + 1 } }
      [.reported s.depot.shelf.observer (.poolMiss s.depot.shelf.label)] := by
  have hnone : Pool.Slots.parked s.depot.shelf.slots = [] := Pool.Slots.take?_none htake
  have hlength : (s.depot.slots ++ List.replicate 1 s.depot.blank).length
      = s.depot.slots.length + 1 := by
    rw [List.length_append, List.length_replicate]
  have hmisses : s.misses [.reported s.depot.shelf.observer (.poolMiss s.depot.shelf.label)] = 1 := by
    rw [misses, List.count_singleton_self]
  refine ⟨borrow_new h.made h.numbered htake, h.more, slot_append s.depot 1 _, ?_, ?_,
    fun hout => ?_, rfl, rfl, rfl, ?_, ?_, ?_⟩
  · show _ < (s.depot.slots ++ List.replicate 1 s.depot.blank).length
    rw [hlength]
    exact Nat.lt_succ_self _
  · show _ ∉ Pool.Slots.parked s.depot.shelf.slots
    rw [hnone]
    exact List.not_mem_nil
  · exact absurd (h.known _ (List.mem_append_right _ hout)) (Nat.lt_irrefl _)
  · rw [hmisses]
    exact hlength
  · rw [hmisses]
    rfl
  · exact List.count_eq_zero.mpr fun hmem => by cases List.mem_singleton.mp hmem

/-- **A rent is answered with a slot that is not out.** -/
theorem Sound.rent (h : s.Sound out) :
    ∃ n generation, (s.step .rent).answer = .rented (.ok (n, generation)) ∧ n ∉ out ∧
      (s.depot.slot n).IsFresh generation ∧ (s.step .rent).state.Sound (n :: out) ∧
      Passes s out (s.step .rent).effects (s.step .rent).state (n :: out) := by
  obtain ⟨n, d, es, hlends⟩ : ∃ n d es, s.Lends out n d es := by
    cases htake : s.depot.shelf.slots.take? with
    | some r => exact ⟨r.1, _, _, h.lends_parked htake⟩
    | none => exact ⟨_, _, _, h.lends_new htake⟩
  obtain ⟨generation, slot, hfresh, hlease, hsound⟩ :=
    hlends.sound.lend hlends.known hlends.unparked hlends.notOut
  rw [step_rent hlends.borrow hlease]
  refine ⟨n, generation, rfl, hlends.notOut, hlends.slot ▸ hfresh, hsound, hlends.capacity,
    hlends.label, hlends.observer, ?_, ?_⟩
  · rw [Stock.keep, enter, List.length_set]
    exact hlends.made
  · have hheld := hlends.held
    show (Pool.Slots.parked d.shelf.slots).length + (out.length + 1) + s.overflows es
      = s.parked.length + out.length + s.misses es
    rw [hlends.overflows]
    omega

/-! ### Acting -/

theorem shelve_parks {d : Depot α κ} (hopen : d.isOpen = true)
    (hmade : d.shelf.calls = d.slots.length) (hparks : d.shelf.ignoreDispose = true)
    {slots : Pool.Slots Nat} (hput : d.shelf.slots.put? n = some slots) :
    d.shelve n = .pure () { d with shelf := { d.shelf with slots := slots } } := by
  have hrelease : d.shelf.release n = .pure (.ok ()) { d.shelf with slots := slots } := by
    rw [Pool.release, if_pos hparks, Pool.park, hput]
  rw [Depot.shelve, if_pos hopen, hrelease]
  simp [Depot.onShelf, Depot.stock, hmade, Outcome.lift, Outcome.pure, Outcome.map]

/-- A slot that finds the shelf full is given up, and the overflow is reported. -/
theorem shelve_overflows {d : Depot α κ} (hopen : d.isOpen = true)
    (hmade : d.shelf.calls = d.slots.length) (hparks : d.shelf.ignoreDispose = true)
    (hput : d.shelf.slots.put? n = none) :
    d.shelve n = ⟨(), d, [.reported d.shelf.observer (.poolOverflow d.shelf.label)]⟩ := by
  have hrelease : d.shelf.release n
      = ⟨.ok (), d.shelf, [.reported d.shelf.observer (.poolOverflow d.shelf.label)]⟩ := by
    rw [Pool.release, if_pos hparks, Pool.park, hput]
    rfl
  rw [Depot.shelve, if_pos hopen, hrelease]
  simp [Depot.onShelf, Depot.stock, hmade, Outcome.lift, Outcome.map]

/-- A slot that comes home is parked, or given up if the shelf is full. -/
theorem Sound.shelve (h : s.Sound out) (hn : n < s.depot.slots.length) (hparked : n ∉ s.parked)
    (hout : n ∉ out) :
    (s.onDepot (s.depot.shelve n)).state.Sound out ∧
      Passes s (n :: out) (s.onDepot (s.depot.shelve n)).effects
        (s.onDepot (s.depot.shelve n)).state out := by
  cases hput : s.depot.shelf.slots.put? n with
  | some slots =>
    obtain ⟨hperm, hlength⟩ := Pool.Slots.put?_some hput
    rw [shelve_parks h.isOpen h.made h.parks hput]
    have hall : (Pool.Slots.parked slots ++ out).Perm (n :: (s.parked ++ out)) :=
      hperm.append_right out
    refine ⟨⟨h.isOpen, h.made, h.numbered, h.parks, h.home, h.stands, ?_, fun m hm => ?_, h.unmade⟩,
      hlength, rfl, rfl, rfl, ?_⟩
    · refine hall.nodup_iff.mpr (List.nodup_cons.mpr ⟨?_, h.distinct⟩)
      rw [List.mem_append, not_or]
      exact ⟨hparked, hout⟩
    · rcases List.mem_cons.mp (hall.mem_iff.mp hm) with rfl | hm
      · exact hn
      · exact h.known m hm
    · have hcount : (Pool.Slots.parked slots).length = s.parked.length + 1 := hperm.length_eq
      show (Pool.Slots.parked slots).length + out.length + 0 = s.parked.length + (out.length + 1) + 0
      omega
  | none =>
    rw [shelve_overflows h.isOpen h.made h.parks hput]
    let full := Effect.reported s.depot.shelf.observer (.poolOverflow s.depot.shelf.label)
    have hmisses : s.misses [full] = 0 := by
      simp [misses, full]
    have hoverflows : s.overflows [full] = 1 := by
      rw [overflows, List.count_singleton_self]
    refine ⟨h, rfl, rfl, rfl, ?_, ?_⟩
    · show s.depot.slots.length = s.depot.slots.length + s.misses [full]
      rw [hmisses, Nat.add_zero]
    · show s.parked.length + out.length + s.overflows [full]
        = s.parked.length + (out.length + 1) + s.misses [full]
      rw [hmisses, hoverflows]
      omega

/-- Nobody has a handle on a slot that was not made yet. -/
theorem step_unmade (h : s.Sound out) (hn : s.depot.slots.length ≤ n) (lease : Nat) (a : Act α κ) :
    s.step (.act n lease a) = .pure (.acted n ⟨.absent, none, false⟩) s := by
  have hbooks := h.unmade n hn
  have habsent : (s.tenancy n).step (.act lease a) = (s.tenancy n).reply .absent := by
    rw [tenancy, hbooks]
    cases a <;> rfl
  have hkeep : s.keep n (s.tenancy n) = s := by
    have hfun : (fun m => if m = n then (s.tenancy n).toBooks else s.books m) = s.books := by
      funext m
      split
      · next heq =>
        subst heq
        rfl
      · rfl
    rw [keep, enter, hfun, List.set_eq_of_length_le hn]
  have hlift : ((s.tenancy n).step (.act lease a)).lift (s.keep n)
      = .pure ⟨.absent, none, false⟩ s := by
    rw [habsent, Tenancy.reply, Outcome.lift]
    exact congrArg (Outcome.pure _) hkeep
  rw [step, hlift]
  rfl

/-- An act in the course of a lease. -/
theorem Sound.act_lasting (h : s.Sound out) (hn : n < s.depot.slots.length) {t : Tenancy α κ}
    {p : Phase α κ} (ht : t.Stands p) (hhome : t.slot.home = .depot) (hp : p = .idle ↔ n ∉ out)
    {es : List Effect} (hes : Effect.Quiet es) :
    (s.keep n t).Sound out ∧ Passes s out es (s.keep n t) out := by
  refine ⟨h.keep hn ht hhome hp (fun _ _ => Iff.rfl) h.distinct, rfl, rfl, rfl, ?_, ?_⟩
  · rw [misses_quiet s hes]
    exact List.length_set
  · rw [misses_quiet s hes, overflows_quiet s hes]
    rfl

/-- An act that ends a lease. -/
theorem Sound.act_last (h : s.Sound out) (hn : n < s.depot.slots.length) (hout : n ∈ out)
    {t : Tenancy α κ} (ht : t.Stands .idle) (hhome : t.slot.home = .depot) {es : List Effect}
    (hes : Effect.Quiet es) :
    let o := (s.keep n t).onDepot ((s.keep n t).depot.shelve n)
    o.state.Sound (out.erase n) ∧ Passes s out (es ++ o.effects) o.state (out.erase n) := by
  obtain ⟨_, hnodup, _⟩ := List.nodup_append.mp h.distinct
  have hnot : n ∉ out.erase n := hnodup.not_mem_erase
  have hsound : (s.keep n t).Sound (out.erase n) := by
    refine h.keep hn ht hhome ⟨fun _ => hnot, fun _ => rfl⟩ ?_ ?_
    · intro m hm
      exact List.mem_erase_of_ne hm
    · exact h.distinct.sublist ((List.erase_sublist).append_left s.parked)
  have hlength : (s.keep n t).depot.slots.length = s.depot.slots.length := List.length_set
  obtain ⟨hshelved, hpasses⟩ := hsound.shelve (hlength.symm ▸ hn) (h.unparked hout) hnot
  have hbefore : Passes s out es (s.keep n t) (n :: out.erase n) := by
    refine ⟨rfl, rfl, rfl, ?_, ?_⟩
    · rw [misses_quiet s hes]
      exact hlength
    · rw [misses_quiet s hes, overflows_quiet s hes, (List.perm_cons_erase hout).length_eq]
      rfl
  exact ⟨hshelved, hbefore.trans hpasses⟩

/-- An act that does not recycle the slot puts it back. -/
theorem step_act {lease : Nat} {a : Act α κ} {o : Tenancy.Step α κ}
    (ho : (s.tenancy n).step (.act lease a) = o) (hrecycled : o.answer.recycled = false) :
    s.step (.act n lease a) = ⟨.acted n o.answer, s.keep n o.state, o.effects⟩ := by
  rw [step, ho]
  simp [Outcome.andThen, Outcome.lift, hrecycled, Outcome.pure]

/-- One that does sends it to the shelf. -/
theorem step_act_home {lease : Nat} {a : Act α κ} {o : Tenancy.Step α κ}
    (ho : (s.tenancy n).step (.act lease a) = o) (hrecycled : o.answer.recycled = true) :
    let shelved := (s.keep n o.state).onDepot ((s.keep n o.state).depot.shelve n)
    s.step (.act n lease a)
      = ⟨.acted n o.answer, shelved.state, o.effects ++ shelved.effects⟩ := by
  rw [step, ho]
  simp [Outcome.andThen, Outcome.lift, hrecycled, Outcome.map]

/-- **An act on a lease leaves the stock in order.** -/
theorem Sound.act (h : s.Sound out) {lease : Nat} {a : Act α κ}
    (htime : s.InTime (.act n lease a)) :
    ∃ r, (s.step (.act n lease a)).answer = .acted n r ∧
      (s.step (.act n lease a)).state.Sound (if r.recycled then out.erase n else out) ∧
      Passes s out (s.step (.act n lease a)).effects (s.step (.act n lease a)).state
        (if r.recycled then out.erase n else out) := by
  rcases Nat.lt_or_ge n s.depot.slots.length with hn | hn
  · obtain ⟨p, hp, hidle⟩ := h.stands n
    have htime' : (s.tenancy n).InTime (.act lease a) := htime
    obtain ⟨p', hadvances⟩ := Tenancy.step_advances hp htime'
    have hbehaves := Tenancy.step_behaves (s.tenancy n) (.act lease a)
    have hhome := hbehaves.alike.home.trans (h.home n)
    refine ⟨((s.tenancy n).step (.act lease a)).answer, ?_⟩
    cases hrecycled : ((s.tenancy n).step (.act lease a)).answer.recycled with
    | false =>
      rw [step_act rfl hrecycled]
      exact ⟨rfl, h.act_lasting hn hadvances.stands hhome
        ((hadvances.idle_iff hrecycled).trans hidle) (hbehaves.quiet hhome)⟩
    | true =>
      obtain ⟨hne, rfl⟩ := hadvances.recycled_idle hrecycled
      have hout : n ∈ out := Decidable.byContradiction fun hnot => hne (hidle.mpr hnot)
      rw [step_act_home rfl hrecycled]
      exact ⟨rfl, h.act_last hn hout hadvances.stands hhome (hbehaves.quiet hhome)⟩
  · rw [step_unmade h hn]
    exact ⟨_, rfl, h, .refl s out⟩

/-! ### Runs -/

/-- **A deal leaves the stock in order.** -/
theorem Sound.step (h : s.Sound out) {e : Deal α κ} (htime : s.InTime e) :
    (s.step e).state.Sound ((s.step e).answer.enter out) ∧
      Passes s out (s.step e).effects (s.step e).state ((s.step e).answer.enter out) := by
  cases e with
  | rent =>
    obtain ⟨n, generation, hanswer, _, _, hsound, hpasses⟩ := h.rent
    rw [hanswer]
    exact ⟨hsound, hpasses⟩
  | act n lease a =>
    obtain ⟨r, hanswer, hsound, hpasses⟩ := h.act htime
    rw [hanswer]
    exact ⟨hsound, hpasses⟩

theorem Sound.run (h : s.Sound out) {deals : List (Deal α κ)} (htimely : s.Timely deals) :
    (s.run deals).state.Sound ((s.run deals).answer.foldl Notice.enter out) ∧
      Passes s out (s.run deals).effects (s.run deals).state
        ((s.run deals).answer.foldl Notice.enter out) := by
  induction deals generalizing s out with
  | nil => exact ⟨h, .refl s out⟩
  | cons e es ih =>
    obtain ⟨hsound, hpasses⟩ := h.step htimely.1
    obtain ⟨hsound', hpasses'⟩ := ih hsound htimely.2
    exact ⟨hsound', hpasses.trans hpasses'⟩

/-- No deal recycles a slot twice. -/
theorem step_turn_le (s : Stock α κ) (e : Deal α κ) (m : Nat) :
    ((s.step e).state.books m).turn ≤ (s.books m).turn + 1 := by
  cases e with
  | rent =>
    rw [step, Outcome.andThen_state]
    split
    · next n generation _ =>
      show (if m = n then (s.books n).sign generation else s.books m).turn ≤ _
      split
      · next heq =>
        subst heq
        exact Nat.le_succ _
      · exact Nat.le_succ _
    · exact Nat.le_succ _
  | act n lease a =>
    let o := (s.tenancy n).step (.act lease a)
    have hbooks : (s.step (.act n lease a)).state.books m
        = if m = n then o.state.toBooks else s.books m := by
      rw [step, Outcome.andThen_state]
      split <;> rfl
    rw [hbooks]
    split
    · next heq =>
      subst heq
      show o.state.turn ≤ (s.tenancy m).turn + 1
      rw [(Tenancy.step_behaves (s.tenancy m) (.act lease a)).turn]
      exact Nat.add_le_add_left (Bool.toNat_le _) _
    · exact Nat.le_succ _

/-- A history of no more than 2^32 deals leaves no completer the time to be late. -/
theorem timely_of_length_le {deals : List (Deal α κ)}
    (h : ∀ n, (s.books n).turn + deals.length ≤ 4294967296) : s.Timely deals := by
  induction deals generalizing s with
  | nil => trivial
  | cons e es ih =>
    simp only [List.length_cons] at h
    refine ⟨?_, ih fun n => ?_⟩
    · cases e with
      | rent => trivial
      | act n lease a =>
        cases hact : a.ofCompleter with
        | false => exact fun htrue => absurd htrue (by simp [hact])
        | true =>
          intro _
          have hn := h n
          show (s.books n).turn < lease + 4294967296
          omega
    · have hn := h n
      have hle := step_turn_le s e n
      omega

/-! ### Opening -/

/-- A shelf whose items are numbers that it has made, with a slot for each. -/
theorem sound_of_shelf {shelf : Pool Nat} (deferred : Bool) (observer : Observer)
    (hnumbered : shelf.make = .ok) (hparks : shelf.ignoreDispose = true)
    (hdistinct : (Pool.Slots.parked shelf.slots).Nodup)
    (hmade : ∀ n ∈ Pool.Slots.parked shelf.slots, n < shelf.calls) :
    Sound
      ⟨⟨List.replicate shelf.calls (.new .depot deferred observer), .new .depot deferred observer,
          shelf, true⟩, fun _ => .new⟩ ([] : List Nat) (α := α) (κ := κ) := by
  have hslot : ∀ n, Depot.slot ⟨List.replicate shelf.calls (.new .depot deferred observer),
      .new .depot deferred observer, shelf, true⟩ n
        = (Slot.new .depot deferred observer : Slot α κ) := by
    intro n
    rw [Depot.slot, List.getD_eq_getElem?_getD, List.getElem?_replicate]
    split <;> rfl
  refine ⟨rfl, List.length_replicate.symm, hnumbered, hparks, fun n => ?_, fun n => ?_, ?_,
    fun n hn => ?_, fun _ _ => rfl⟩
  · rw [hslot]
    rfl
  · refine ⟨.idle, ?_, fun _ => List.not_mem_nil, fun _ => rfl⟩
    rw [tenancy, hslot]
    exact Tenancy.new_stands .depot deferred observer
  · rw [List.append_nil]
    exact hdistinct
  · rw [List.append_nil] at hn
    rw [List.length_replicate]
    exact hmade n hn

/-- The shelf of a depot that opens: the slots that were made in advance are all parked. -/
theorem assemble_shelf {capacity : Nat} (hcapacity : capacity ≠ 0) (preInitialize : Bool)
    (label : String) (observer : Observer) :
    ∃ shelf : Pool Nat,
      Pool.assemble ⟨capacity, preInitialize, true⟩ .ok label observer = .pure (.ok ()) shelf ∧
      shelf.make = .ok ∧ shelf.ignoreDispose = true ∧
      (Pool.Slots.parked shelf.slots).Perm (List.range shelf.calls) ∧
      shelf.slots.length = capacity ∧ shelf.label = label ∧ shelf.observer = observer ∧
      shelf.calls = if preInitialize then capacity else 0 := by
  let empty : Pool Nat := ⟨List.replicate capacity none, .ok, 0, true, label, observer⟩
  have hempty : Pool.Slots.parked empty.slots = [] := Pool.Slots.parked_replicate capacity
  cases preInitialize with
  | false =>
    refine ⟨empty, ?_, rfl, rfl, ?_, List.length_replicate, rfl, rfl, rfl⟩
    · rw [Pool.assemble, if_neg hcapacity]
      rfl
    · rw [hempty]
      exact .refl _
  | true =>
    obtain ⟨slots, hfill, hperm, hslots⟩ := Pool.fill_parks id capacity empty rfl (by
      rw [hempty, List.length_nil, Nat.zero_add]
      exact Nat.le_of_eq List.length_replicate.symm)
    refine ⟨{ empty with slots := slots, calls := 0 + capacity }, ?_, rfl, rfl, ?_, ?_, rfl, rfl, ?_⟩
    · rw [Pool.assemble, if_neg hcapacity]
      exact hfill
    · rw [hempty, List.append_nil, List.map_id] at hperm
      rw [List.range_eq_range', Nat.zero_add]
      exact hperm
    · exact hslots.trans List.length_replicate
    · exact Nat.zero_add capacity

/-- A depot opens in order. -/
theorem opened_sound {capacity : Nat} (hcapacity : capacity ≠ 0) (preInitialize deferred : Bool)
    (label : String) (observer : Observer) :
    (Depot.assemble capacity preInitialize deferred label observer
        : Outcome (Except Panic Unit) (Depot α κ)).answer = .ok () ∧
      let s : Stock α κ := opened capacity preInitialize deferred label observer
      s.Sound [] ∧ s.depot.shelf.slots.length = capacity ∧ s.depot.shelf.label = label ∧
      s.depot.shelf.observer = observer ∧
      s.depot.slots.length = (if preInitialize then capacity else 0) ∧
      s.parked.length = s.depot.slots.length := by
  obtain ⟨shelf, hpool, hnumbered, hparks, hperm, hlength, hlabel, hobserver, hcalls⟩ :=
    assemble_shelf hcapacity preInitialize label observer
  have hdepot : (Depot.assemble capacity preInitialize deferred label observer
      : Outcome (Except Panic Unit) (Depot α κ))
        = .pure (.ok ())
            ⟨List.replicate shelf.calls (.new .depot deferred observer),
              .new .depot deferred observer, shelf, true⟩ := by
    rw [Depot.assemble, hpool]
    rfl
  rw [opened, hdepot]
  refine ⟨rfl, ?_, hlength, hlabel, hobserver, ?_, ?_⟩
  · refine sound_of_shelf deferred observer hnumbered hparks ?_ ?_
    · exact hperm.nodup_iff.mpr List.nodup_range
    · intro n hn
      exact List.mem_range.mp (hperm.mem_iff.mp hn)
  · exact List.length_replicate.trans hcalls
  · show (Pool.Slots.parked shelf.slots).length = (List.replicate shelf.calls _).length
    rw [hperm.length_eq, List.length_range, List.length_replicate]

/-! ### Renting never fails -/

/-- A stock of which these slots are out: whatever is parked is idle and empty, whatever is out is
    not idle, no slot is in two places, and a rent is answered with a slot that is not out, and
    with its generation. -/
structure InOrder (s : Stock α κ) (out : List Nat) : Prop where
  idle : ∀ n ∈ s.parked, (s.depot.slot n).word.isIdle = true
  fresh : ∀ n ∈ s.parked, (s.depot.slot n).IsFresh (s.depot.slot n).generation
  leased : ∀ n ∈ out, (s.depot.slot n).word.isIdle = false
  distinct : (s.parked ++ out).Nodup
  rents : ∃ n generation, (s.step .rent).answer = .rented (.ok (n, generation)) ∧ n ∉ out ∧
    (s.depot.slot n).IsFresh generation

theorem Sound.inOrder (h : s.Sound out) : s.InOrder out where
  idle n hn := by
    obtain ⟨p, hp, hidle⟩ := h.stands n
    exact hp.slot.isIdle_iff.mpr (hidle.mpr (h.not_out hn))
  fresh n hn := by
    obtain ⟨p, hp, hidle⟩ := h.stands n
    obtain rfl := hidle.mpr (h.not_out hn)
    have hfresh := hp.slot.isFresh
    rw [← hfresh.generation] at hfresh
    exact hfresh
  leased n hn := by
    obtain ⟨p, hp, hidle⟩ := h.stands n
    refine Bool.eq_false_iff.mpr fun htrue => ?_
    exact hidle.mp (hp.slot.isIdle_iff.mp htrue) hn
  distinct := h.distinct
  rents := by
    obtain ⟨n, generation, hanswer, hout, hfresh, _⟩ := h.rent
    exact ⟨n, generation, hanswer, hout, hfresh⟩

/-- **A depot never lends a slot twice, and a rent never fails.**  And each slot that was made, in
    advance or for a miss, is parked, is out, or was given up for an overflow. -/
theorem never_lent_twice {capacity : Nat} (hcapacity : capacity ≠ 0) (preInitialize deferred : Bool)
    (label : String) (observer : Observer) (deals : List (Deal α κ))
    (htimely : (opened capacity preInitialize deferred label observer).Timely deals) :
    (Depot.assemble capacity preInitialize deferred label observer
        : Outcome (Except Panic Unit) (Depot α κ)).answer = .ok () ∧
      let o := (opened capacity preInitialize deferred label observer).run deals
      o.state.InOrder (outstanding o.answer) ∧
      o.state.depot.slots.length
        = (if preInitialize then capacity else 0)
          + o.effects.count (.reported observer (.poolMiss label)) ∧
      o.state.depot.slots.length
        = o.state.depot.available + (outstanding o.answer).length
          + o.effects.count (.reported observer (.poolOverflow label)) ∧
      o.state.depot.available ≤ capacity := by
  obtain ⟨hanswer, hsound, hshelf, hlabel, hobserver, hmade, hparked⟩ :=
    opened_sound (α := α) (κ := κ) hcapacity preInitialize deferred label observer
  obtain ⟨hafter, hpasses⟩ := hsound.run htimely
  have hcount := hpasses.made
  have hheld := hpasses.held
  rw [misses, hlabel, hobserver] at hcount hheld
  rw [overflows, hlabel, hobserver, hparked, List.length_nil, Nat.add_zero, ← hcount] at hheld
  refine ⟨hanswer, hafter.inOrder, hcount.trans (hmade ▸ rfl), hheld.symm, ?_⟩
  exact Nat.le_trans (Pool.Slots.parked_length_le _)
    (Nat.le_of_eq (hpasses.capacity.trans hshelf))

/-- Two rents from a depot of one slot: the second one is a miss, and when both slots come home the
    second one finds the shelf full. -/
def crowd : List (Deal Nat String) :=
  [.rent, .rent, .act 0 0 (.complete (.ok 7)), .act 1 0 .drop, .act 0 0 .tryResult,
    .act 1 0 .detach, .rent]

theorem never_lent_twice_crowd :
    let s : Stock Nat String := opened 1 true false "replies" .quiet
    s.Timely crowd ∧
      ((Depot.assemble 1 true false "replies" .quiet
          : Outcome (Except Panic Unit) (Depot Nat String)).answer = .ok () ∧
        let o := s.run crowd
        o.state.InOrder (outstanding o.answer) ∧
        o.state.depot.slots.length
          = (if true then 1 else 0) + o.effects.count (.reported .quiet (.poolMiss "replies")) ∧
        o.state.depot.slots.length
          = o.state.depot.available + (outstanding o.answer).length
            + o.effects.count (.reported .quiet (.poolOverflow "replies")) ∧
        o.state.depot.available ≤ 1) ∧
      outstanding (s.run crowd).answer = [0] ∧ (s.run crowd).state.depot.slots.length = 2 :=
  have htimely := timely_of_length_le fun _ => show 0 + 7 ≤ 4294967296 by decide
  ⟨htimely, never_lent_twice (by decide) true false "replies" .quiet crowd htimely, by rfl, by rfl⟩

end Stock

end Conduit.Lease

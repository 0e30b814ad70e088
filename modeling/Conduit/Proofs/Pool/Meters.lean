/-
  Conduit/Proofs/Pool/Meters.lean
  ===============================
  **What the meters of a pool's items show.**

  A metered item counts the calls of its two hooks.  Every step that does not panic either
  lends one item, or takes one back, or calls no hook; so in every run the meter of an item
  that is parked or held shows how often it was lent and given back.

  Items are known by their numbers.  That no two of them have the same one is what the
  conservation of items is for.
-/
import Conduit.Proofs.Pool.Likeness

namespace Conduit.Pool

/-! ### Metered items -/

/-- How often an item was told that it is lent, and how often it was reset. -/
structure Meter where
  lent : Nat
  reset : Nat
deriving DecidableEq, Repr

/-- An item with a number of its own, and a meter for the calls of its hooks. -/
structure Metered (β : Type) where
  id : Nat
  content : β
  meter : Meter

namespace Metered

variable {β : Type}

/-- A metered item, none of whose hooks was called yet. -/
def new (id : Nat) (content : β) : Metered β := ⟨id, content, ⟨0, 0⟩⟩

def lentAs (a : Metered β) (content : β) : Metered β :=
  ⟨a.id, content, ⟨a.meter.lent + 1, a.meter.reset⟩⟩

def resetAs (a : Metered β) (content : β) : Metered β :=
  ⟨a.id, content, ⟨a.meter.lent, a.meter.reset + 1⟩⟩

instance [Poolable β] : Poolable (Metered β) where
  onBorrow a := (Poolable.onBorrow a.content).map a.lentAs
  reset a := (Poolable.reset a.content).map a.resetAs
  mark? a := some a.id

instance [Specimen β] : Specimen (Metered β) where
  make n text := new n (Specimen.make n text)
  push front text a := { a with content := Specimen.push front text a.content }
  view a := Specimen.view a.content
  debug a := Specimen.debug a.content

theorem onBorrow_ok [Poolable β] {a b : Metered β} (h : Poolable.onBorrow a = .ok b) :
    ∃ content, Poolable.onBorrow a.content = .ok content ∧ b = a.lentAs content := by
  simp only [Poolable.onBorrow] at h
  cases hcontent : Poolable.onBorrow a.content with
  | ok content =>
    rw [hcontent] at h
    exact ⟨content, rfl, (Except.ok.inj h).symm⟩
  | error e =>
    rw [hcontent] at h
    cases h

theorem reset_ok [Poolable β] {a b : Metered β} (h : Poolable.reset a = .ok b) :
    ∃ content, Poolable.reset a.content = .ok content ∧ b = a.resetAs content := by
  simp only [Poolable.reset] at h
  cases hcontent : Poolable.reset a.content with
  | ok content =>
    rw [hcontent] at h
    exact ⟨content, rfl, (Except.ok.inj h).symm⟩
  | error e =>
    rw [hcontent] at h
    cases h

instance [Specimen β] : Numbered (Metered β) where
  number := Metered.id
  number_make _ _ := rfl
  number_push _ _ _ := rfl
  number_onBorrow a b h := by
    obtain ⟨content, _, rfl⟩ := onBorrow_ok h
    rfl
  number_reset a b h := by
    obtain ⟨content, _, rfl⟩ := reset_ok h
    rfl
  mark_eq _ := rfl

/-- A meter makes no difference. -/
theorem likens_content [Specimen β] : Likens (Metered.content : Metered β → β) := by
  have hmap {x : Except Panic β} {g : β → Metered β} (hg : ∀ b, (g b).content = b) :
      x = (x.map g).map Metered.content := by
    cases x with
    | ok b => exact congrArg Except.ok (hg b).symm
    | error e => rfl
  exact ⟨fun _ => hmap fun _ => rfl, fun _ => hmap fun _ => rfl, fun _ _ => rfl,
    fun _ _ _ => rfl, fun _ => rfl, fun _ => rfl⟩

/-- The meter of an item as it is parked. -/
theorem cleaned_ok [Poolable β] {p : Pool (Metered β)} {a b : Metered β}
    (h : p.cleaned a = .ok b) :
    b.id = a.id ∧
      b.meter = ⟨a.meter.lent, a.meter.reset + if p.ignoreDispose then 0 else 1⟩ := by
  rw [cleaned] at h
  cases hignore : p.ignoreDispose with
  | true =>
    rw [hignore] at h
    cases h
    exact ⟨rfl, rfl⟩
  | false =>
    rw [hignore] at h
    obtain ⟨content, _, rfl⟩ := reset_ok h
    exact ⟨rfl, rfl⟩

/-- What the meter of an item shows that was lent and given back under these numbers. -/
def Reads (ignoring : Bool) (lent back : List Nat) (a : Metered β) : Prop :=
  a.meter = ⟨lent.count a.id, if ignoring then 0 else back.count a.id⟩

section Reads

variable {ignoring : Bool} {lent back : List Nat} {a b : Metered β} {n : Nat}

theorem count_other (ns : List Nat) (h : a.id ≠ n) : (ns ++ [n]).count a.id = ns.count a.id := by
  rw [List.count_append, List.count_singleton, if_neg (by simpa using h.symm), Nat.add_zero]

theorem count_same (ns : List Nat) (n : Nat) : (ns ++ [n]).count n = ns.count n + 1 := by
  rw [List.count_append, List.count_singleton_self]

theorem Reads.lent_other (h : a.Reads ignoring lent back) (hne : a.id ≠ n) :
    a.Reads ignoring (lent ++ [n]) back := by
  rw [Reads, count_other lent hne]
  exact h

theorem Reads.returned_other (h : a.Reads ignoring lent back) (hne : a.id ≠ n) :
    a.Reads ignoring lent (back ++ [n]) := by
  rw [Reads, count_other back hne]
  exact h

theorem Reads.onBorrow [Poolable β] (h : a.Reads ignoring lent back)
    (hb : Poolable.onBorrow a = .ok b) : b.Reads ignoring (lent ++ [b.id]) back := by
  obtain ⟨content, _, rfl⟩ := onBorrow_ok hb
  rw [Reads, count_same]
  show (⟨a.meter.lent + 1, a.meter.reset⟩ : Meter) = _
  rw [h]
  rfl

theorem Reads.cleaned [Poolable β] {p : Pool (Metered β)}
    (h : a.Reads p.ignoreDispose lent back) (hb : p.cleaned a = .ok b) :
    b.Reads p.ignoreDispose lent (back ++ [a.id]) := by
  obtain ⟨hid, hmeter⟩ := cleaned_ok hb
  rw [Reads, hid, hmeter, h, count_same]
  cases p.ignoreDispose with
  | true => rfl
  | false => rfl

end Reads

end Metered

/-! ### Items that move -/

namespace Session

section Items

variable {α : Type} {p : Pool α} {holds : Named (Hold α)} {h : String} {a : α}

theorem items_put (pool : Option (Pool α)) (holds : Named (Hold α)) (h : String)
    (hold : Hold α) :
    (items ⟨pool, holds.put h hold⟩).Perm (hold.item :: items ⟨pool, holds.erase h⟩) :=
  List.perm_middle

theorem items_erase {hold : Hold α} (pool : Option (Pool α)) (hm : holds.Distinct)
    (hget : holds.get? h = some hold) :
    (items ⟨pool, holds⟩).Perm (hold.item :: items ⟨pool, holds.erase h⟩) :=
  (((Named.perm_erase hm hget).map fun e : String × Hold α => e.2.item).append_left _).trans
    List.perm_middle

theorem items_take {rest : Slots α} (holds : Named (Hold α))
    (htake : p.slots.take? = some (a, rest)) :
    items ⟨some p, holds⟩ = a :: items ⟨some { p with slots := rest }, holds⟩ := by
  show Slots.parked p.slots ++ _ = a :: (Slots.parked rest ++ _)
  rw [(Slots.take?_some htake).1]
  rfl

theorem items_park {slots : Slots α} (holds : Named (Hold α)) (hput : p.slots.put? a = some slots) :
    (items ⟨some { p with slots := slots }, holds⟩).Perm (a :: items ⟨some p, holds⟩) :=
  (Slots.put?_some hput).1.append_right _

theorem mem_items_of_get? {s : Session α} {hold : Hold α} (hget : s.holds.get? h = some hold) :
    hold.item ∈ s.items :=
  List.mem_append_right _
    (List.mem_map_of_mem (f := fun e : String × Hold α => e.2.item) (Named.mem_of_get? hget))

/-- An item that is lent is held. -/
theorem mem_items_of_lentBy {r : Request} {o : Answer α} (hlent : lentBy r o = some a) :
    a ∈ o.state.items := by
  have hheld {h : String} (hget : (o.state.holds.get? h).map Hold.item = some a) :
      a ∈ o.state.items := by
    obtain ⟨hold, hhold, rfl⟩ := Option.map_eq_some_iff.mp hget
    exact mem_items_of_get? hhold
  unfold lentBy at hlent
  split at hlent
  · exact hheld hlent
  · exact hheld hlent
  · cases hlent

theorem lentBy_lends {r : Request} {o : Answer α} {v : ItemView} {hold : Hold α}
    (hr : r = .borrow h ∨ r = .scope h) (hanswer : o.answer = .item v)
    (hget : o.state.holds.get? h = some hold) : lentBy r o = some hold.item := by
  unfold lentBy
  rw [hanswer]
  obtain rfl | rfl := hr
  · exact congrArg (Option.map Hold.item) hget
  · exact congrArg (Option.map Hold.item) hget

end Items

section Moves

variable {α : Type} [Specimen α] {s : Session α} {r : Request} {o : Answer α}

/-- What a step does to the items that there are.  It lends one, which was parked or is new; or it
    takes one back, or in, and parks it, or destroys it for want of room; or it leaves each as it
    is, changes or destroys it, and calls no hook. -/
inductive Moves (s : Session α) (r : Request) (o : Answer α) : Prop
  | lends {p p' : Pool α} {a b : α} {others : List α} (hpool : s.pool = some p)
      (hpool' : o.state.pool = some p') (hfetch : Fetches p a o.effects p')
      (hlent : Poolable.onBorrow a = .ok b) (hlends : lentBy r o = some b)
      (hreturns : s.returnedBy r o = none)
      (hbefore : s.items.Perm (a :: others) ∨
        p.make p.calls = .ok a ∧ p'.calls = p.calls + 1 ∧ s.items = others)
      (hafter : o.state.items.Perm (b :: others))
  | returns {p p' : Pool α} {a b : α} {others : List α} (hpool : s.pool = some p)
      (hpool' : o.state.pool = some p') (hclean : p.cleaned a = .ok b)
      (hpark : Parks p b o.effects p') (hlends : lentBy r o = none)
      (hreturns : s.returnedBy r o = some a)
      (hbefore : s.items.Perm (a :: others) ∨
        (∃ id text, r = .releaseNew id text ∧ a = Specimen.make id text) ∧ s.items = others)
      (hafter : ∀ c ∈ o.state.items, c = b ∨ c ∈ others)
  | keeps (hlends : lentBy r o = none) (hreturns : s.returnedBy r o = none)
      (hafter : ∀ c ∈ o.state.items, ∃ a ∈ s.items,
        c = a ∨ ∃ front text, c = Specimen.push front text a)

/-- A step that does not use the pool lends nothing and takes nothing back. -/
theorem unused (s : Session α) (h : r.use? o.answer = none) :
    lentBy r o = none ∧ s.returnedBy r o = none := by
  constructor
  · unfold lentBy
    split
    · rename_i h _ hanswer
      rw [hanswer] at h
      cases h
    · rename_i h _ hanswer
      rw [hanswer] at h
      cases h
    · rfl
  · rw [returnedBy, h]
    rfl

theorem returnedBy_lends {h : String} {v : ItemView} (s : Session α)
    (hr : r = .borrow h ∨ r = .scope h) (hanswer : o.answer = .item v) :
    s.returnedBy r o = none := by
  rw [returnedBy, hanswer, use?_lends hr]
  rfl

theorem parks_after {p p' : Pool α} {a : α} {es : List Effect} (holds : Named (Hold α))
    (hpark : Parks p a es p') :
    ∀ c ∈ items ⟨some p', holds⟩, c = a ∨ c ∈ items ⟨some p, holds⟩ := by
  intro c hc
  cases hpark with
  | parked hput => exact List.mem_cons.mp ((items_park holds hput).mem_iff.mp hc)
  | full _ => exact Or.inr hc

theorem Does.moves (h : Does s r o) (hs : s.holds.Distinct) : Moves s r o := by
  cases h with
  | lends hr hitem hpool hfree hlent hfetch =>
    rename_i name p p' a b hold es
    have hget : (s.holds.put name hold).get? name = some hold := Named.get?_put_self _ _ _
    have hlends : lentBy r (⟨.item (Specimen.view b), ⟨some p', s.holds.put name hold⟩, es⟩ :
        Answer α) = some b := hitem ▸ lentBy_lends hr rfl hget
    have hafter := items_put (some p') s.holds name hold
    rw [hitem, erase_of_free hfree] at hafter
    have hitems : s.items = items ⟨some p, s.holds⟩ := congrArg (fun q => items ⟨q, s.holds⟩) hpool
    refine .lends hpool rfl hfetch hlent hlends (returnedBy_lends s hr rfl) ?_ hafter
    cases hfetch with
    | parked htake =>
      refine Or.inl ?_
      rw [hitems, items_take s.holds htake]
    | fresh _ hmake => exact Or.inr ⟨hmake, rfl, hitems⟩
  | takesBack hr hpool hget hclean hpark =>
    rename_i name p p' b hold es
    have hreturns : s.returnedBy r (⟨.nothing, ⟨some p', s.holds.erase name⟩, es⟩ : Answer α)
        = some hold.item := by
      rw [returnedBy, use?_takesBack hr, if_pos rfl, offered_takesBack hr hget]
    have hlends : lentBy r (⟨.nothing, ⟨some p', s.holds.erase name⟩, es⟩ : Answer α) = none := by
      obtain rfl | rfl := hr
      · rfl
      · rfl
    have hitems : s.items = items ⟨some p, s.holds⟩ := congrArg (fun q => items ⟨q, s.holds⟩) hpool
    refine .returns hpool rfl hclean hpark hlends hreturns (Or.inl ?_) (parks_after _ hpark)
    rw [hitems]
    exact items_erase (some p) hs hget
  | takesIn hpool hclean hpark =>
    rename_i id text p p' b es
    have hitems : s.items = items ⟨some p, s.holds⟩ := congrArg (fun q => items ⟨q, s.holds⟩) hpool
    exact .returns hpool rfl hclean hpark rfl rfl (Or.inr ⟨⟨id, text, rfl, rfl⟩, hitems⟩)
      (parks_after _ hpark)
  | detaches hget =>
    refine .keeps rfl rfl fun c hc => ⟨c, ?_, Or.inl rfl⟩
    have hbefore := items_erase s.pool hs hget
    exact hbefore.mem_iff.mpr ((items_put s.pool s.holds _ _).mem_iff.mp hc)
  | changes hget =>
    rename_i name text front hold
    refine .keeps rfl rfl fun c hc => ?_
    have hbefore := items_erase s.pool hs hget
    have hset : (hold.set (Specimen.push front text hold.item)).item
        = Specimen.push front text hold.item := by
      cases hold <;> rfl
    obtain rfl | hother := List.mem_cons.mp ((items_put s.pool s.holds _ _).mem_iff.mp hc)
    · exact ⟨hold.item, hbefore.mem_iff.mpr List.mem_cons_self, Or.inr ⟨front, text, hset⟩⟩
    · exact ⟨c, hbefore.mem_iff.mpr (List.mem_cons_of_mem _ hother), Or.inl rfl⟩
  | discards hget =>
    refine .keeps rfl rfl fun c hc => ⟨c, ?_, Or.inl rfl⟩
    exact (items_erase s.pool hs hget).mem_iff.mpr (List.mem_cons_of_mem _ hc)
  | drops _ =>
    refine .keeps rfl rfl fun c hc => ⟨c, ?_, Or.inl rfl⟩
    exact List.mem_append_right _ hc
  | idles hr =>
    obtain ⟨hlends, hreturns⟩ := unused s (o := ⟨_, s, []⟩) hr
    exact .keeps hlends hreturns fun c hc => ⟨c, hc, Or.inl rfl⟩

end Moves

/-! ### Meters -/

variable {β : Type} [Specimen β] {s : Session (Metered β)} {r : Request}
  {o : Answer (Metered β)}

/-- The numbers of the items that come into being in a run. -/
def arrivals {α : Type} [Numbered α] (s : Session α) : List Request → List Nat
  | [] => []
  | r :: rs => fresh s (s.step r).state ++ s.stranger r ++ arrivals (s.step r).state rs

theorem arrivals_append {α : Type} [Numbered α] (s : Session α) (rs rs' : List Request) :
    s.arrivals (rs ++ rs') = s.arrivals rs ++ (s.reached rs).arrivals rs' := by
  induction rs generalizing s with
  | nil => rfl
  | cons r rs ih =>
    rw [List.cons_append, arrivals, arrivals, ih, List.append_assoc _ _ (arrivals _ rs')]
    rfl

theorem items_numbers (s : Session (Metered β)) :
    s.items.map Metered.id = s.parked ++ s.held := by
  rw [items, List.map_append, List.map_map]
  cases hpool : s.pool with
  | none =>
    rw [parked, slots, hpool]
    rfl
  | some p =>
    rw [parked, slots, hpool]
    rfl

/-- Every meter shows how often its item was lent and given back.  The numbers in `came` are those
    of all items that there ever were. -/
structure Metes (ignoring : Bool) (s : Session (Metered β)) (came lent back : List Nat) :
    Prop where
  orderly : s.Orderly
  pool : ∀ p, s.pool = some p →
    p.ignoreDispose = ignoring ∧ ∀ n a, p.make n = .ok a → a.meter = ⟨0, 0⟩
  present : (s.items.map Metered.id).Subperm came
  lentKnown : lent ⊆ came
  backKnown : back ⊆ came
  reads : ∀ a ∈ s.items, a.Reads ignoring lent back

section Step

variable {ignoring : Bool} {came lent back : List Nat} {a b : Metered β}
  {others : List (Metered β)}

/-- No two items have the same number. -/
theorem Metes.unique (hs : Metes ignoring s came lent back) (hcame : came.Nodup)
    (hitems : s.items.Perm (a :: others)) :
    a.Reads ignoring lent back ∧
      ∀ c ∈ others, c.id ≠ a.id ∧ c.Reads ignoring lent back := by
  obtain ⟨numbers, hperm, hsub⟩ := hs.present
  have hnodup : ((a :: others).map Metered.id).Nodup :=
    (hperm.trans (hitems.map Metered.id)).nodup_iff.mp (hcame.sublist hsub)
  refine ⟨hs.reads a (hitems.mem_iff.mpr List.mem_cons_self), fun c hc => ⟨?_, ?_⟩⟩
  · intro heq
    exact (List.nodup_cons.mp hnodup).1 (heq ▸ List.mem_map_of_mem hc)
  · exact hs.reads c (hitems.mem_iff.mpr (List.mem_cons_of_mem a hc))

/-- An item that was not there before has not been lent or given back. -/
theorem Metes.newcomer (hs : Metes ignoring s came lent back)
    (hnew : a.id ∉ came) (hmeter : a.meter = ⟨0, 0⟩) :
    a.Reads ignoring lent back ∧
      ∀ c ∈ s.items, c.id ≠ a.id ∧ c.Reads ignoring lent back := by
  have hlent : lent.count a.id = 0 :=
    List.count_eq_zero.mpr fun hmem => hnew (hs.lentKnown hmem)
  have hback : back.count a.id = 0 :=
    List.count_eq_zero.mpr fun hmem => hnew (hs.backKnown hmem)
  refine ⟨?_, fun c hc => ⟨?_, hs.reads c hc⟩⟩
  · rw [Metered.Reads, hmeter, hlent, hback, ite_self]
  · intro heq
    exact hnew (heq ▸ hs.present.subset (List.mem_map_of_mem hc))

/-- The numbers of the items after a step are among those that there ever were. -/
theorem Metes.step_present (hs : Metes ignoring s came lent back) (r : Request) :
    ((s.step r).state.items.map Metered.id).Subperm
      (came ++ (fresh s (s.step r).state ++ s.stranger r)) := by
  have hbalance := (step_balanced hs.orderly r).balance
  have hbefore := hs.present
  rw [items_numbers] at hbefore ⊢
  have hkept : ((s.step r).state.parked ++ (s.step r).state.held).Subperm
      (fresh s (s.step r).state ++ s.stranger r ++ s.parked ++ s.held) :=
    (List.sublist_append_left _ _).subperm.trans hbalance.symm.subperm
  rw [List.append_assoc _ s.parked] at hkept
  exact hkept.trans (((List.subperm_append_left _).mpr hbefore).trans
    List.perm_append_comm.subperm)

/-- What the generator makes in a step was not there before. -/
theorem Metes.fresh_unknown {p p' : Pool (Metered β)} (hs : Metes ignoring s came lent back)
    (hcame : (came ++ (fresh s o.state ++ s.stranger r)).Nodup) (hpool : s.pool = some p)
    (hpool' : o.state.pool = some p') (hmake : p.make p.calls = .ok a)
    (hcalls : p'.calls = p.calls + 1) : a.id ∉ came := by
  obtain ⟨_, _, hdisjoint⟩ := List.nodup_append.mp hcame
  intro hmem
  refine hdisjoint a.id hmem a.id (List.mem_append_left _ ?_) rfl
  have hcall : a.id = p.calls := hs.orderly.counted p hpool _ _ hmake
  rw [fresh, hpool, hpool']
  show a.id ∈ made p.make p.calls p'.calls
  rw [hcalls, made_one, hmake, hcall]
  exact List.mem_singleton_self _

/-- A step that lends an item tells this one, and one that takes an item back resets this one; they
    do it once, and leave all others as they are. -/
theorem Metes.step_reads (hs : Metes ignoring s came lent back)
    (hcame : (came ++ (fresh s o.state ++ s.stranger r)).Nodup) (h : Moves s r o) :
    ∀ c ∈ o.state.items, c.Reads ignoring (lent ++ (lentBy r o).toList.map Metered.id)
      (back ++ (s.returnedBy r o).toList.map Metered.id) := by
  obtain ⟨hbefore, _, hdisjoint⟩ := List.nodup_append.mp hcame
  cases h with
  | lends hpool hpool' hfetch hlent hlends hreturns hitems hafter =>
    rename_i p p' a b others
    rw [hlends, hreturns]
    obtain ⟨content, _, hb⟩ := Metered.onBorrow_ok hlent
    have hid : b.id = a.id := by
      rw [hb]
      rfl
    have ha : a.Reads ignoring lent back ∧
        ∀ c ∈ others, c.id ≠ a.id ∧ c.Reads ignoring lent back := by
      obtain hparked | ⟨hmake, hcalls, rfl⟩ := hitems
      · exact hs.unique hbefore hparked
      · have hnew := hs.fresh_unknown hcame hpool hpool' hmake hcalls
        exact hs.newcomer hnew ((hs.pool p hpool).2 _ _ hmake)
    intro c hc
    show c.Reads ignoring (lent ++ [b.id]) (back ++ [])
    rw [List.append_nil]
    obtain rfl | hother := List.mem_cons.mp (hafter.mem_iff.mp hc)
    · exact ha.1.onBorrow hlent
    · exact (ha.2 c hother).2.lent_other (hid ▸ (ha.2 c hother).1)
  | returns hpool hpool' hclean hpark hlends hreturns hitems hafter =>
    rename_i p p' a b others
    rw [hlends, hreturns]
    obtain rfl : p.ignoreDispose = ignoring := (hs.pool p hpool).1
    have ha : a.Reads p.ignoreDispose lent back ∧
        ∀ c ∈ others, c.id ≠ a.id ∧ c.Reads p.ignoreDispose lent back := by
      obtain hheld | ⟨⟨id, text, rfl, rfl⟩, rfl⟩ := hitems
      · exact hs.unique hbefore hheld
      · refine hs.newcomer (fun hmem => ?_) rfl
        refine hdisjoint id hmem id (List.mem_append_right _ ?_) rfl
        rw [stranger, hpool]
        exact List.mem_singleton_self _
    intro c hc
    show c.Reads p.ignoreDispose (lent ++ []) (back ++ [a.id])
    rw [List.append_nil]
    obtain rfl | hother := hafter c hc
    · exact ha.1.cleaned hclean
    · exact (ha.2 c hother).2.returned_other (ha.2 c hother).1
  | keeps hlends hreturns hafter =>
    rw [hlends, hreturns]
    intro c hc
    show c.Reads ignoring (lent ++ []) (back ++ [])
    rw [List.append_nil, List.append_nil]
    obtain ⟨a, ha, rfl | ⟨front, text, rfl⟩⟩ := hafter c hc
    · exact hs.reads c ha
    · exact hs.reads a ha

/-- An item that is given back was held, or is brought from elsewhere now. -/
theorem Metes.returned_known (hs : Metes ignoring s came lent back) (h : Moves s r o)
    (ha : s.returnedBy r o = some a) : a.id ∈ came ++ (fresh s o.state ++ s.stranger r) := by
  cases h with
  | lends _ _ _ _ _ hreturns _ _ =>
    rw [hreturns] at ha
    cases ha
  | returns hpool _ _ _ _ hreturns hitems _ =>
    rw [hreturns] at ha
    cases ha
    obtain hheld | ⟨⟨id, text, rfl, rfl⟩, _⟩ := hitems
    · have hmem := List.mem_map_of_mem (f := Metered.id) (hheld.mem_iff.mpr List.mem_cons_self)
      exact List.mem_append_left _ (hs.present.subset hmem)
    · refine List.mem_append_right _ (List.mem_append_right _ ?_)
      rw [stranger, hpool]
      exact List.mem_singleton_self _
  | keeps _ hreturns _ =>
    rw [hreturns] at ha
    cases ha

/-- **One step of the meters.** -/
theorem Metes.step (hs : Metes ignoring s came lent back)
    (hcalm : (s.step r).answer.isPanic = false)
    (hcame : (came ++ (fresh s (s.step r).state ++ s.stranger r)).Nodup) :
    Metes ignoring (s.step r).state (came ++ (fresh s (s.step r).state ++ s.stranger r))
      (lent ++ (lentBy r (s.step r)).toList.map Metered.id)
      (back ++ (s.returnedBy r (s.step r)).toList.map Metered.id) := by
  have hdoes := step_does s r hcalm
  have hmoves := hdoes.moves hs.orderly.distinct
  have hpresent := hs.step_present r
  refine ⟨(step_balanced hs.orderly r).orderly, ?_, hpresent, ?_, ?_, ?_⟩
  · intro p' hpool'
    obtain ⟨p, hpool, hakin⟩ := hdoes.akin hpool'
    rw [hakin.ignoreDispose, hakin.make]
    exact hs.pool p hpool
  · refine List.append_subset.mpr ⟨fun n hn => List.mem_append_left _ (hs.lentKnown hn), ?_⟩
    intro n hn
    obtain ⟨b, hb, rfl⟩ := List.mem_map.mp hn
    have hlends := Option.mem_toList.mp hb
    exact hpresent.subset (List.mem_map_of_mem (mem_items_of_lentBy hlends))
  · refine List.append_subset.mpr ⟨fun n hn => List.mem_append_left _ (hs.backKnown hn), ?_⟩
    intro n hn
    obtain ⟨a, ha, rfl⟩ := List.mem_map.mp hn
    exact hs.returned_known hmoves (Option.mem_toList.mp ha)
  · exact hs.step_reads hcame hmoves

/-- **A run of the meters.** -/
theorem Metes.reached {rs : List Request} (hs : Metes ignoring s came lent back)
    (hcalm : s.Calm rs) (hcame : (came ++ s.arrivals rs).Nodup) :
    Metes ignoring (s.reached rs) (came ++ s.arrivals rs) (lent ++ (s.lent rs).map Metered.id)
      (back ++ (s.returned rs).map Metered.id) := by
  induction rs generalizing s came lent back with
  | nil =>
    show Metes ignoring s (came ++ []) (lent ++ []) (back ++ [])
    simpa only [List.append_nil] using hs
  | cons r rs ih =>
    obtain ⟨hfirst, hrest⟩ := calm_cons.mp hcalm
    rw [arrivals, ← List.append_assoc] at hcame ⊢
    have hone := hs.step hfirst (hcame.sublist (List.sublist_append_left _ _))
    have hmany := ih hone hrest hcame
    rw [Session.lent, Session.returned, List.map_append, List.map_append]
    simpa only [Session.reached, List.append_assoc] using hmany

end Step

end Session

end Conduit.Pool

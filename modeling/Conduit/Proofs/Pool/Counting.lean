/-
  Conduit/Proofs/Pool/Counting.lean
  =================================
  **The slots of a pool count, whatever the items.**

  How many items are parked, how many borrows found none and how many releases found no
  room are the readings of a counter between zero and the number of slots: a borrow takes
  one away, a release adds one.  They depend on the order of borrows and releases alone,
  not on which item comes back when, and not on which slots happen to be empty.
-/
import Conduit.Proofs.Pool.Calm

namespace Conduit.Pool

/-! ### The counter -/

/-- What is counted at a pool: its parked items, the borrows that found none, the releases that
    found no room, and the items that the generator made. -/
structure Gauge where
  available : Nat
  misses : Nat
  overflows : Nat
  generated : Nat
deriving DecidableEq, Repr

/-- A pool that was filled with `n` items. -/
def Gauge.filled (n : Nat) : Gauge := ⟨n, 0, 0, n⟩

/-- What one more use of the pool makes of the counts. -/
def Gauge.next (capacity : Nat) (g : Gauge) : Use → Gauge
  | .lend =>
    let missed := if g.available = 0 then 1 else 0
    { g with
      available := g.available - 1, misses := g.misses + missed,
      generated := g.generated + missed }
  | .giveBack =>
    { g with
      available := min (g.available + 1) capacity,
      overflows := g.overflows + if g.available = capacity then 1 else 0 }

/-- Every item that is made on demand is a miss. -/
theorem Gauge.run_generated (capacity : Nat) (us : List Use) (g : Gauge) :
    (us.foldl (Gauge.next capacity) g).generated + g.misses
      = g.generated + (us.foldl (Gauge.next capacity) g).misses := by
  induction us generalizing g with
  | nil => exact rfl
  | cons u us ih =>
    have hrest := ih (g.next capacity u)
    cases u with
    | lend =>
      simp only [List.foldl_cons, Gauge.next] at hrest ⊢
      omega
    | giveBack => exact hrest

section Lending

variable {α : Type} {p p' : Pool α} {es : List Effect}

/-- What a pool and its observer have counted after these effects. -/
def gauge (p : Pool α) (es : List Effect) : Gauge where
  available := p.available
  misses := es.count (.reported p.observer (.poolMiss p.label))
  overflows := es.count (.reported p.observer (.poolOverflow p.label))
  generated := p.calls

/-- A borrow: one parked item less, or a miss. -/
structure LendsOne (p : Pool α) (es : List Effect) (p' : Pool α) : Prop where
  available : p'.available = p.available - 1
  calls : p'.calls = p.calls + if p.available = 0 then 1 else 0
  effects : es = if p.available = 0 then [.reported p.observer (.poolMiss p.label)] else []

theorem available_le (p : Pool α) : p.available ≤ p.capacity := Slots.parked_length_le p.slots

theorem Fetches.lendsOne {a : α} (h : Fetches p a es p') : LendsOne p es p' := by
  cases h with
  | parked htake =>
    rename_i rest
    have hparked : p.available = (Slots.parked rest).length + 1 := by
      rw [available, (Slots.take?_some htake).1, List.length_cons]
    have hsome : p.available ≠ 0 := by omega
    refine ⟨?_, ?_, ?_⟩
    · show (Slots.parked rest).length = _
      omega
    · rw [if_neg hsome, Nat.add_zero]
    · rw [if_neg hsome]
  | fresh htake hmake =>
    have hnone : p.available = 0 := by
      rw [available, Slots.take?_none htake]
      rfl
    refine ⟨?_, ?_, ?_⟩
    · show p.available = p.available - 1
      omega
    · rw [if_pos hnone]
    · rw [if_pos hnone]

/-- A borrow moves the counter as it should. -/
theorem LendsOne.gauge (h : LendsOne p es p') (hakin : Akin p p') (before : List Effect) :
    gauge p' (before ++ es) = (gauge p before).next p.capacity .lend := by
  by_cases hnone : p.available = 0
  · have hother : [Effect.reported p.observer (.poolMiss p.label)].count
        (.reported p.observer (.poolOverflow p.label)) = 0 :=
      List.count_eq_zero.mpr fun hmem => nomatch List.mem_singleton.mp hmem
    simp only [Gauge.next, Pool.gauge, hakin.observer, hakin.label, h.available, h.calls,
      h.effects, hnone, ↓reduceIte, List.count_append, List.count_singleton_self, hother,
      Nat.add_zero]
  · simp only [Gauge.next, Pool.gauge, hakin.observer, hakin.label, h.available, h.calls,
      h.effects, hnone, ↓reduceIte, List.append_nil, Nat.add_zero]

end Lending

section Returning

variable {α : Type} [Poolable α] {p p' : Pool α} {es : List Effect}

/-- A release of what is an item `a` by then: one parked item more, or an overflow, which destroys
    it. -/
structure TakesOne (p : Pool α) (a : α) (es : List Effect) (p' : Pool α) : Prop where
  available : p'.available = min (p.available + 1) p.capacity
  calls : p'.calls = p.calls
  parked : (Slots.parked p'.slots).Perm
    (if p.available = p.capacity then Slots.parked p.slots else a :: Slots.parked p.slots)
  effects : es =
    if p.available = p.capacity then .reported p.observer (.poolOverflow p.label) :: destroy a
    else []

theorem Parks.takesOne {a : α} (h : Parks p a es p') : TakesOne p a es p' := by
  cases h with
  | parked hput =>
    rename_i slots
    obtain ⟨hparked, hlength⟩ := Slots.put?_some hput
    have hcount : (Slots.parked slots).length = p.available + 1 := hparked.length_eq
    have hbound : (Slots.parked slots).length ≤ p.capacity := by
      rw [capacity, ← hlength]
      exact Slots.parked_length_le slots
    have hroom : p.available ≠ p.capacity := by omega
    refine ⟨?_, rfl, ?_, ?_⟩
    · show (Slots.parked slots).length = _
      omega
    · rw [if_neg hroom]
      exact hparked
    · rw [if_neg hroom]
  | full hput =>
    have hfull : p.available = p.capacity := Slots.put?_none hput
    refine ⟨?_, rfl, ?_, ?_⟩
    · show p.available = _
      omega
    · rw [if_pos hfull]
    · rw [if_pos hfull]

theorem count_destroy (a : α) (o : Observer) (e : Event) :
    (destroy a).count (.reported o e) = 0 := by
  rw [List.count_eq_zero, destroy]
  intro hmem
  obtain ⟨n, _, hn⟩ := List.mem_map.mp hmem
  cases hn

/-- And so does a release. -/
theorem TakesOne.gauge {a : α} (h : TakesOne p a es p') (hakin : Akin p p')
    (before : List Effect) :
    gauge p' (before ++ es) = (gauge p before).next p.capacity .giveBack := by
  by_cases hfull : p.available = p.capacity
  · have hne : Effect.reported p.observer (.poolOverflow p.label)
        ≠ .reported p.observer (.poolMiss p.label) := nofun
    simp only [Gauge.next, Pool.gauge, hakin.observer, hakin.label, h.available, h.calls,
      h.effects, hfull, ↓reduceIte, List.count_append, List.count_cons_self,
      List.count_cons_of_ne hne, count_destroy, Nat.add_zero, Nat.zero_add]
  · simp only [Gauge.next, Pool.gauge, hakin.observer, hakin.label, h.available, h.calls,
      h.effects, hfull, ↓reduceIte, List.append_nil, Nat.add_zero]

end Returning

/-! ### Steps -/

/-- Requests of those who give back what they borrowed and destroy none of it. -/
def Request.fair : Request → Bool
  | .releaseNew _ _ | .discard _ => false
  | _ => true

namespace Session

theorem length_erase {α : Type} {h : String} {m : Named (Hold α)} {hold : Hold α} (hm : m.Distinct)
    (hget : m.get? h = some hold) : (m.erase h).length + 1 = m.length :=
  (Named.perm_erase hm hget).length_eq.symm

variable {α : Type} [Specimen α] {s : Session α} {r : Request} {o : Answer α} {p p' : Pool α}

/-- What a step does to the pool, by what it uses the pool for: one that does not use it leaves it
    as it is and reports nothing. -/
def Counts (s : Session α) (r : Request) (p : Pool α) (o : Answer α) (p' : Pool α) : Prop :=
  match r.use? o.answer with
  | some .lend => LendsOne p o.effects p'
  | some .giveBack =>
    ∃ a b, s.offered r = some a ∧ p.cleaned a = .ok b ∧ TakesOne p b o.effects p'
  | none => p' = p ∧ ∀ observer e, o.effects.count (.reported observer e) = 0

theorem Does.counts (h : Does s r o) (hpool : s.pool = some p)
    (hpool' : o.state.pool = some p') : Counts s r p o p' := by
  cases h with
  | lends hr _ hbefore _ _ hfetch =>
    cases hpool'
    cases hbefore.symm.trans hpool
    rw [Counts, use?_lends hr]
    exact hfetch.lendsOne
  | takesBack hr hbefore hget hclean hpark =>
    cases hpool'
    cases hbefore.symm.trans hpool
    rw [Counts, use?_takesBack hr]
    exact ⟨_, _, offered_takesBack hr hget, hclean, hpark.takesOne⟩
  | takesIn hbefore hclean hpark =>
    cases hpool'
    cases hbefore.symm.trans hpool
    exact ⟨_, _, rfl, hclean, hpark.takesOne⟩
  | detaches _ => exact ⟨Option.some.inj (hpool'.symm.trans hpool), fun _ _ => rfl⟩
  | changes _ => exact ⟨Option.some.inj (hpool'.symm.trans hpool), fun _ _ => rfl⟩
  | discards _ =>
    exact ⟨Option.some.inj (hpool'.symm.trans hpool), fun _ _ => count_destroy _ _ _⟩
  | drops _ => cases hpool'
  | idles hr =>
    rw [Counts, hr]
    exact ⟨Option.some.inj (hpool'.symm.trans hpool), fun _ _ => rfl⟩

/-- **One step of the counter for one use of the pool.** -/
theorem Counts.gauge (h : Counts s r p o p') (hakin : Akin p p') (before : List Effect) :
    gauge p' (before ++ o.effects)
      = (r.use? o.answer).toList.foldl (Gauge.next p.capacity) (gauge p before) := by
  rw [Counts] at h
  cases huse : r.use? o.answer with
  | none =>
    rw [huse] at h
    obtain ⟨rfl, hquiet⟩ := h
    simp only [Pool.gauge, List.count_append, hquiet, Nat.add_zero, Option.toList_none,
      List.foldl_nil]
  | some u =>
    rw [huse] at h
    cases u with
    | lend => exact LendsOne.gauge h hakin before
    | giveBack =>
      obtain ⟨_, _, _, _, htakes⟩ := h
      exact htakes.gauge hakin before

/-! ### Runs -/

/-- **A run of the pool is a run of the counter.** -/
theorem gauge_reached {rs : List Request} (hcalm : s.Calm rs)
    (hpool' : (s.reached rs).pool = some p') :
    ∃ p, s.pool = some p ∧ Akin p p' ∧ ∀ before,
      gauge p' (before ++ s.told rs)
        = (s.uses rs).foldl (Gauge.next p.capacity) (gauge p before) := by
  induction rs generalizing s with
  | nil =>
    refine ⟨p', hpool', .refl p', fun before => ?_⟩
    show gauge p' (before ++ []) = gauge p' before
    rw [List.append_nil]
  | cons r rs ih =>
    obtain ⟨hfirst, hrest⟩ := calm_cons.mp hcalm
    obtain ⟨p₁, hpool₁, hakin₁, hgauge₁⟩ := ih hrest hpool'
    have hdoes := step_does s r hfirst
    obtain ⟨p, hpool, hakin⟩ := hdoes.akin hpool₁
    refine ⟨p, hpool, hakin.trans hakin₁, fun before => ?_⟩
    rw [told_cons, ← List.append_assoc, hgauge₁, hakin.capacity,
      (hdoes.counts hpool hpool₁).gauge hakin, uses, List.foldl_append]

/-! ### Items made, parked and held -/

/-- What a fair step changes in the number of holds. -/
theorem Does.holds (h : Does s r o) (hs : s.holds.Distinct) (hfair : r.fair = true) :
    o.state.holds.length + (r.use? o.answer).toList.count .giveBack
      = s.holds.length + (r.use? o.answer).toList.count .lend := by
  cases h with
  | lends hr _ _ hfree _ _ =>
    rw [use?_lends hr, Named.put, erase_of_free hfree]
    rfl
  | takesBack hr _ hget _ _ =>
    rw [use?_takesBack hr]
    exact length_erase hs hget
  | takesIn _ _ _ => cases hfair
  | detaches hget => exact length_erase hs hget
  | changes hget => exact length_erase hs hget
  | discards _ => cases hfair
  | drops _ => rfl
  | idles hr =>
    rw [hr]
    rfl

/-- A fair step keeps the items that there are: what the generator makes is parked, held or
    destroyed by an overflow. -/
theorem Gauge.next_total {capacity : Nat} {g : Gauge} {held held' : Nat} (u : Option Use)
    (hheld : held' + u.toList.count .giveBack = held + u.toList.count .lend)
    (hroom : g.available ≤ capacity)
    (htotal : g.generated = g.available + held + g.overflows) :
    let g' := u.toList.foldl (Gauge.next capacity) g
    g'.generated = g'.available + held' + g'.overflows := by
  cases u with
  | none =>
    simp only [Option.toList_none, List.count_nil, Nat.add_zero] at hheld
    rw [hheld]
    exact htotal
  | some u =>
    cases u with
    | lend =>
      have hone : held' = held + 1 := hheld
      simp only [Option.toList_some, List.foldl_cons, List.foldl_nil, Gauge.next]
      split <;> omega
    | giveBack =>
      have hone : held' + 1 = held := hheld
      simp only [Option.toList_some, List.foldl_cons, List.foldl_nil, Gauge.next]
      split <;> omega

/-- A fair run keeps the items that there are. -/
theorem total_reached {rs : List Request} (hcalm : s.Calm rs)
    (hfair : ∀ r ∈ rs, r.fair = true) (hs : s.holds.Distinct)
    (hpool : s.pool = some p) (hpool' : (s.reached rs).pool = some p') {before : List Effect}
    (htotal : (gauge p before).generated
      = (gauge p before).available + s.holds.length + (gauge p before).overflows) :
    let g := gauge p' (before ++ s.told rs)
    g.generated = g.available + (s.reached rs).holds.length + g.overflows := by
  induction rs generalizing s p before with
  | nil =>
    cases hpool.symm.trans hpool'
    have hnone : before ++ s.told [] = before := List.append_nil before
    rw [hnone]
    exact htotal
  | cons r rs ih =>
    obtain ⟨hfirst, hrest⟩ := calm_cons.mp hcalm
    obtain ⟨hone, hmore⟩ := List.forall_mem_cons.mp hfair
    have hdoes := step_does s r hfirst
    obtain ⟨p₁, hpool₁, _, _⟩ := gauge_reached hrest hpool'
    obtain ⟨q, hq, hakin⟩ := hdoes.akin hpool₁
    cases hq.symm.trans hpool
    have hstep := Gauge.next_total _ (hdoes.holds hs hone) (available_le p) htotal
    rw [← (hdoes.counts hpool hpool₁).gauge hakin] at hstep
    rw [told_cons, ← List.append_assoc]
    exact ih hrest hmore (hdoes.distinct hs) hpool₁ hpool' hstep

end Session

/-! ### Careers -/

namespace Career

variable {α : Type} [Specimen α]

/-- What a pool shows when it has just been assembled. -/
theorem gauge_start {c : Career α} (h : c.opening.answer = .ok ()) :
    gauge c.opening.state c.opening.effects = .filled c.filled ∧
      c.opening.state.capacity = c.settings.capacity := by
  obtain ⟨items, slots, hopening, hitems, hperm, hlength⟩ := assembled h
  have hcount : items.length = c.filled := by
    have heq := congrArg List.length hitems
    rw [List.length_map, List.length_map, List.length_range] at heq
    exact heq.symm
  rw [hopening]
  refine ⟨?_, hlength⟩
  simp only [gauge, available, Outcome.pure_state, Outcome.pure_effects, List.count_nil,
    hperm.length_eq, hcount, Gauge.filled]

/-- **The slots of a pool count, whatever the items.**  As long as nothing panics, the parked items,
    the misses, the overflows and the items made are what a counter shows that starts with the
    slots filled or empty: a borrow takes one item away, and reports a miss and has an item made
    exactly if there is none; a release adds one, and reports an overflow and destroys the item
    exactly if there is no room; nothing else moves the counter.  Any other pool of this size,
    with other items that come back in another order, shows the same after the same uses.  Every
    item made is one that the slots were filled with or a miss; if its borrowers give back what
    they took and destroy nothing, it is parked, held, or was an overflow. -/
theorem gauge_follows_uses (c : Career α) (hcalm : c.Calm) {p : Pool α}
    (hpool : c.finish.pool = some p) :
    let g := gauge p c.effects
    (p.capacity = c.settings.capacity ∧
      g = c.uses.foldl (Gauge.next c.settings.capacity) (.filled c.filled)) ∧
    (∀ r p', (c.finish.step r).answer.isPanic = false →
      (c.finish.step r).state.pool = some p' →
      c.finish.Counts r p (c.finish.step r) p') ∧
    (∀ {β : Type} [Specimen β] (d : Career β) (q : Pool β), d.Calm → d.finish.pool = some q →
      d.settings.capacity = c.settings.capacity →
      d.settings.preInitialize = c.settings.preInitialize → d.uses = c.uses →
      gauge q d.effects = g) ∧
    g.generated = c.filled + g.misses ∧
    ((∀ r ∈ c.requests, r.fair = true) →
      g.generated = g.available + c.finish.holds.length + g.overflows) := by
  have hreading {β : Type} [Specimen β] (d : Career β) (hd : d.Calm) {q : Pool β}
      (hq : d.finish.pool = some q) :
      q.capacity = d.settings.capacity ∧
        gauge q d.effects = d.uses.foldl (Gauge.next d.settings.capacity) (.filled d.filled) := by
    obtain ⟨q₀, hq₀, hakin, hrun⟩ := Session.gauge_reached hd.run hq
    obtain rfl : d.opening.state = q₀ := Option.some.inj hq₀
    obtain ⟨hstart, hcapacity⟩ := gauge_start hd.opening
    refine ⟨hakin.capacity.trans hcapacity, ?_⟩
    rw [effects, hrun, hstart, hcapacity, uses]
  intro g
  obtain ⟨hcapacity, hg⟩ : _ ∧ g = _ := hreading c hcalm hpool
  refine ⟨⟨hcapacity, hg⟩, ?_, ?_, ?_, ?_⟩
  · intro r p' hfirst hpool'
    exact (Session.step_does c.finish r hfirst).counts hpool hpool'
  · intro β _ d q hd hq hsize hfill huses
    have hfilled : d.filled = c.filled := by
      rw [filled, filled, hsize, hfill]
    rw [hg, (hreading d hd hq).2, huses, hsize, hfilled]
  · have hmade := Gauge.run_generated c.settings.capacity c.uses (.filled c.filled)
    rw [hg]
    exact hmade
  · intro hfair
    obtain ⟨hstart, _⟩ := gauge_start hcalm.opening
    apply Session.total_reached hcalm.run hfair Named.distinct_nil rfl hpool
    rw [hstart]
    rfl

/-- Two slots filled with texts; three items are lent, one of them in a scope that is given up, and
    one more than there is room for comes back. -/
def overdrawn : Career String where
  settings := ⟨2, true, false⟩
  make := generator []
  label := "texts"
  observer := .counting
  requests :=
    [.borrow "a", .scope "b", .borrow "c", .detach "b", .push "a" "!" false, .release "c",
      .release "a", .borrow "d", .release "b", .release "d"]

theorem gauge_follows_uses_overdrawn :
    overdrawn.Calm ∧ (∀ r ∈ overdrawn.requests, r.fair = true) ∧
      ∃ p, overdrawn.finish.pool = some p ∧
        gauge p overdrawn.effects = ⟨2, 1, 1, 3⟩ ∧
        (gauge p overdrawn.effects).generated
          = p.available + overdrawn.finish.holds.length + (gauge p overdrawn.effects).overflows := by
  have hcalm : overdrawn.Calm := ⟨by decide, by decide⟩
  have hfair : ∀ r ∈ overdrawn.requests, r.fair = true := by decide
  have hsome : overdrawn.finish.pool.isSome = true := by decide
  obtain ⟨p, hpool⟩ := Option.isSome_iff_exists.mp hsome
  obtain ⟨⟨_, hgauge⟩, _, _, _, htotal⟩ := gauge_follows_uses overdrawn hcalm hpool
  refine ⟨hcalm, hfair, p, hpool, ?_, htotal hfair⟩
  rw [hgauge]
  decide

end Career

end Conduit.Pool

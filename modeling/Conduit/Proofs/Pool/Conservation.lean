/-
  Conduit/Proofs/Pool/Conservation.lean
  =====================================
  **No item of a pool is lost, doubled, or destroyed twice.**

  In a session every item that came into being is parked in one slot, held under one name,
  bare or in a scope, or destroyed, and it stays so through every run, whatever panics on
  the way.

  A step keeps the session orderly and balanced, and a run is balanced because its steps
  are.  From the balance it follows that items are never in two places, since what comes
  into being comes once.
-/
import Conduit.Proofs.Named
import Conduit.Proofs.Pool.Custody

namespace Conduit.Pool

open Numbered (number)

/-- A name that holds nothing has nothing to give up. -/
theorem erase_of_free {α : Type} {m : Named α} {h : String} (hfree : m.holds h = false) :
    m.erase h = m := by
  apply Named.erase_of_get?_none
  rw [Named.holds, Option.isSome_eq_false_iff, Option.isNone_iff_eq_none] at hfree
  exact hfree

namespace Session

/-! ### Conditions of a request -/

section Conditions

variable {α : Type} {s : Session α} {h : String}

/-- A request that needs the pool is refused or has it. -/
theorem withPool_cases {P : Answer α → Prop} {use : Pool α → Answer α}
    (hgone : s.pool = none → P (s.refuse .gone)) (huse : ∀ p, s.pool = some p → P (use p)) :
    P (s.withPool use) := by
  rw [withPool]
  cases hpool : s.pool with
  | none => exact hgone hpool
  | some p => exact huse p hpool

theorem withBare_cases {P : Answer α → Prop} {use : α → Answer α}
    (hrefused : P (s.refuse .noSuchHandle))
    (huse : ∀ a, s.holds.get? h = some (.bare a) → P (use a)) : P (s.withBare h use) := by
  rw [withBare]
  split
  · rename_i a hget
    exact huse a hget
  · exact hrefused

theorem withScoped_cases {P : Answer α → Prop} {use : α → Answer α}
    (hrefused : P (s.refuse .noSuchHandle))
    (huse : ∀ a, s.holds.get? h = some (.scoped a) → P (use a)) : P (s.withScoped h use) := by
  rw [withScoped]
  split
  · rename_i a hget
    exact huse a hget
  · exact hrefused

end Conditions

variable {α : Type} [Numbered α]

/-! ### Places -/

/-- The slots of the pool; a pool that was dropped has none. -/
def slots (s : Session α) : Slots α := s.pool.elim [] Pool.slots

/-- The numbers of the parked items. -/
def parked (s : Session α) : List Nat := Slots.numbers s.slots

/-- The numbers of the items that names hold. -/
def heldBy (holds : Named (Hold α)) : List Nat := holds.map fun e => number e.2.item

def held (s : Session α) : List Nat := heldBy s.holds

/-- The numbers of the items that the generator made between two states. -/
def fresh (s s' : Session α) : List Nat :=
  match s.pool, s'.pool with
  | some p, some p' => made p.make p.calls p'.calls
  | _, _ => []

/-- The number of an item that was made elsewhere and is given to the pool. -/
def stranger (s : Session α) : Request → List Nat
  | .releaseNew id _ => if s.pool.isSome then [id] else []
  | _ => []

/-- A session whose names are distinct and whose generator counts. -/
structure Orderly (s : Session α) : Prop where
  distinct : s.holds.Distinct
  counted : ∀ p, s.pool = some p → p.Counted

/-- A part of a run in which items came into being from elsewhere, and what it did. -/
structure Balanced (s : Session α) (came : List Nat) (es : List Effect) (s' : Session α) :
    Prop where
  orderly : s'.Orderly
  pool : ∀ p', s'.pool = some p' → ∃ p, s.pool = some p ∧ p'.make = p.make ∧ p.calls ≤ p'.calls
  balance : (fresh s s' ++ came ++ s.parked ++ s.held).Perm
    (s'.parked ++ s'.held ++ Effect.destructions es)

variable {s : Session α} {h : String} {a : α}

theorem heldBy_put (m : Named (Hold α)) (h : String) (hold : Hold α) :
    heldBy (m.put h hold) = number hold.item :: heldBy (m.erase h) := rfl

theorem heldBy_erase {m : Named (Hold α)} {hold : Hold α} (hm : m.Distinct)
    (hget : m.get? h = some hold) :
    (heldBy m).Perm (number hold.item :: heldBy (m.erase h)) :=
  (Named.perm_erase hm hget).map fun e : String × Hold α => number e.2.item

/-! ### Steps -/

/-- A part of a run that leaves the pool alone, in which what was held is held, or was destroyed. -/
theorem Balanced.still {holds : Named (Hold α)} {es : List Effect} (hs : s.Orderly)
    (hdistinct : holds.Distinct)
    (hheld : s.held.Perm (heldBy holds ++ Effect.destructions es)) :
    Balanced s [] es { s with holds := holds } := by
  refine ⟨⟨hdistinct, hs.counted⟩, fun p hp => ⟨p, hp, rfl, Nat.le_refl _⟩, ?_⟩
  have hfresh : fresh s { s with holds := holds } = [] := by
    rw [fresh]
    cases s.pool with
    | none => rfl
    | some p => exact made_self p.make p.calls
  rw [hfresh, List.nil_append, List.nil_append, List.append_assoc]
  exact hheld.append_left s.parked

theorem Balanced.refl (hs : s.Orderly) : Balanced s [] [] s := by
  apply Balanced.still hs hs.distinct
  rw [Effect.destructions_nil, List.append_nil]
  exact .refl _

/-- An operation of the pool that takes items from names and lends items to names. -/
theorem Balanced.onPool (came taken : List Nat) {p p' : Pool α} {lent : List Nat}
    {es : List Effect} {holds : Named (Hold α)} (hs : s.Orderly) (hpool : s.pool = some p)
    (hp : Conserves (came ++ taken) p lent es p') (hdistinct : holds.Distinct)
    (hheld : (lent ++ s.held).Perm (taken ++ heldBy holds)) :
    Balanced s came es { s with pool := some p', holds := holds } := by
  constructor
  · refine ⟨hdistinct, ?_⟩
    rintro q ⟨⟩
    rw [Counted, hp.make]
    exact hs.counted p hpool
  · rintro q ⟨⟩
    exact ⟨p, hpool, hp.make, hp.calls⟩
  · have hbalance := hp.balance
    have hfresh : fresh s { s with pool := some p', holds := holds }
        = made p.make p.calls p'.calls := by
      rw [fresh, hpool]
    have hparked : s.parked = Slots.numbers p.slots := by
      rw [parked, slots, hpool]
      rfl
    show (_ ++ came ++ s.parked ++ s.held).Perm
      (Slots.numbers p'.slots ++ heldBy holds ++ Effect.destructions es)
    rw [hfresh, hparked]
    rw [List.perm_iff_count] at hbalance hheld ⊢
    intro n
    have hn := hbalance n
    have hm := hheld n
    simp only [List.count_append] at hn hm ⊢
    omega

theorem refuse_balanced (hs : s.Orderly) (m : Misuse) :
    Balanced s [] (s.refuse m).effects (s.refuse m).state := Balanced.refl hs

theorem lend_balanced (hs : s.Orderly) (h : String) (hold : α → Hold α)
    (hhold : ∀ a, (hold a).item = a) :
    Balanced s [] (s.lend h hold).effects (s.lend h hold).state := by
  rw [lend]
  apply withPool_cases (P := fun o => Balanced s [] o.effects o.state)
  · intro _
    exact refuse_balanced hs _
  · intro p hpool
    have hborrow := borrow_conserves (hs.counted p hpool)
    cases hfree : s.holds.holds h with
    | true => exact refuse_balanced hs _
    | false =>
      simp only [Bool.false_eq_true, if_false, Session.onPool, Outcome.andThen_effects,
        Outcome.andThen_state, Outcome.lift_answer, Outcome.lift_state, Outcome.lift_effects]
      cases hanswer : p.borrow.answer with
      | ok a =>
        rw [hanswer] at hborrow
        rw [Outcome.pure_effects, List.append_nil]
        apply Balanced.onPool [] [] hs hpool hborrow (hs.distinct.put h (hold a))
        rw [heldBy_put, hhold, erase_of_free hfree]
        exact .refl _
      | error e =>
        rw [hanswer] at hborrow
        rw [Outcome.pure_effects, List.append_nil]
        exact Balanced.onPool [] [] hs hpool hborrow hs.distinct (.refl _)

/-- What a name held goes back to the pool. -/
theorem giveBack_balanced (hs : s.Orderly) {p : Pool α} (hpool : s.pool = some p)
    {hold : Hold α} (hget : s.holds.get? h = some hold) (hitem : hold.item = a) :
    let o := giveBack { s with holds := s.holds.erase h } p a
    Balanced s [] o.effects o.state := by
  have hrelease := release_conserves a p
  apply Balanced.onPool [] [number a] hs hpool hrelease (hs.distinct.erase h)
  rw [← hitem]
  exact heldBy_erase hs.distinct hget

/-- An item from elsewhere goes to the pool. -/
theorem giveNew_balanced (hs : s.Orderly) {p : Pool α} (hpool : s.pool = some p) (a : α) :
    Balanced s [number a] (s.giveBack p a).effects (s.giveBack p a).state := by
  have hrelease := release_conserves a p
  exact Balanced.onPool [number a] [] hs hpool hrelease hs.distinct (.refl _)

/-- An item that its holder keeps, changed or not. -/
theorem put_balanced (hs : s.Orderly) {hold hold' : Hold α} (hget : s.holds.get? h = some hold)
    (hsame : number hold'.item = number hold.item) :
    Balanced s [] [] { s with holds := s.holds.put h hold' } := by
  apply Balanced.still hs (hs.distinct.put h hold')
  rw [heldBy_put, hsame, Effect.destructions_nil, List.append_nil]
  exact heldBy_erase hs.distinct hget

theorem discard_balanced (hs : s.Orderly) (hget : s.holds.get? h = some (.bare a)) :
    Balanced s [] (destroy a) { s with holds := s.holds.erase h } := by
  apply Balanced.still hs (hs.distinct.erase h)
  rw [destructions_destroy]
  exact (heldBy_erase hs.distinct hget).trans (List.perm_append_singleton _ _).symm

theorem dropPool_balanced (hs : s.Orderly) {p : Pool α} (hpool : s.pool = some p) :
    Balanced s [] p.clear.effects { s with pool := none } := by
  constructor
  · refine ⟨hs.distinct, ?_⟩
    intro q hq
    cases hq
  · intro q hq
    cases hq
  · obtain ⟨hclear, hempty⟩ := clear_conserves p
    have hbalance := hclear.balance
    have hparked : s.parked = Slots.numbers p.slots := by
      rw [parked, slots, hpool]
      rfl
    have hfresh : fresh s { s with pool := none } = [] := by
      rw [fresh, hpool]
    have hcalls : p.clear.state.calls = p.calls := rfl
    rw [hcalls, made_self, hempty] at hbalance
    have hheld := (hbalance.append_right s.held).trans List.perm_append_comm
    rw [hfresh, hparked]
    show ([] ++ [] ++ Slots.numbers p.slots ++ s.held).Perm
      ([] ++ s.held ++ Effect.destructions p.clear.effects)
    simpa only [List.nil_append, List.append_nil] using hheld

/-- **A step loses no item and doubles none**, whether it succeeds, is refused or panics. -/
theorem step_balanced (hs : s.Orderly) (r : Request) :
    Balanced s (s.stranger r) (s.step r).effects (s.step r).state := by
  have hrefused (m : Misuse) := refuse_balanced hs m
  cases r with
  | borrow h => exact lend_balanced hs h .bare fun _ => rfl
  | scope h => exact lend_balanced hs h .scoped fun _ => rfl
  | release h =>
    apply withPool_cases (P := fun o => Balanced s [] o.effects o.state)
    · intro _
      exact hrefused .gone
    · intro p hpool
      apply withBare_cases (P := fun o => Balanced s [] o.effects o.state)
      · exact hrefused .noSuchHandle
      · intro a hget
        exact giveBack_balanced hs hpool hget rfl
  | endScope h =>
    apply withScoped_cases (P := fun o => Balanced s [] o.effects o.state)
    · exact hrefused .noSuchHandle
    · intro a hget
      apply withPool_cases (P := fun o => Balanced s [] o.effects o.state)
      · intro _
        exact hrefused .gone
      · intro p hpool
        exact giveBack_balanced hs hpool hget rfl
  | releaseNew id text =>
    apply withPool_cases (P := fun o => Balanced s (s.stranger (.releaseNew id text)) o.effects o.state)
    · intro hpool
      have hnone : s.stranger (.releaseNew id text) = [] := by
        rw [stranger, hpool]
        rfl
      rw [hnone]
      exact hrefused .gone
    · intro p hpool
      have hone : s.stranger (.releaseNew id text)
          = [number (Specimen.make id text : α)] := by
        rw [stranger, hpool, Numbered.number_make]
        rfl
      rw [hone]
      exact giveNew_balanced hs hpool (Specimen.make id text)
  | detach h =>
    apply withScoped_cases (P := fun o => Balanced s [] o.effects o.state)
    · exact hrefused .noSuchHandle
    · intro a hget
      exact put_balanced hs hget rfl
  | push h text front =>
    rw [step]
    split
    · rename_i hold hget
      apply put_balanced hs hget
      rcases hold with a | a
      · exact Numbered.number_push front text a
      · exact Numbered.number_push front text a
    · exact hrefused .noSuchHandle
  | discard h =>
    apply withBare_cases (P := fun o => Balanced s [] o.effects o.state)
    · exact hrefused .noSuchHandle
    · intro a hget
      exact discard_balanced hs hget
  | dropPool =>
    apply withPool_cases (P := fun o => Balanced s [] o.effects o.state)
    · intro _
      exact hrefused .gone
    · intro p hpool
      split
      · exact hrefused .busy
      · rw [Outcome.andThen_effects, Outcome.pure_effects, List.append_nil]
        exact dropPool_balanced hs hpool
  | view h =>
    rw [step]
    split
    · exact Balanced.refl hs
    · exact hrefused .noSuchHandle
  | scopeDebug h =>
    apply withScoped_cases (P := fun o => Balanced s [] o.effects o.state)
    · exact hrefused .noSuchHandle
    · intro a _
      exact Balanced.refl hs
  | info =>
    apply withPool_cases (P := fun o => Balanced s [] o.effects o.state)
    · intro _
      exact hrefused .gone
    · intro p _
      exact Balanced.refl hs
  | debug =>
    apply withPool_cases (P := fun o => Balanced s [] o.effects o.state)
    · intro _
      exact hrefused .gone
    · intro p _
      exact Balanced.refl hs
  | unknown => exact hrefused .noSuchOp

/-! ### Panics -/

/-- What a panic leaves: one item at most is destroyed, a slot that is not as before held that item,
    and so did a name that is not as before. -/
structure Contained (s : Session α) (es : List Effect) (s' : Session α) : Prop where
  slots : Spares s.slots es s'.slots
  names : ∀ k, s'.holds.get? k = s.holds.get? k ∨
    ∃ hold, s.holds.get? k = some hold ∧ s'.holds.get? k = none ∧
      Effect.destructions es = [number hold.item]

/-- An answer that, if it is a panic, is contained. -/
def Contains (s : Session α) (o : Answer α) : Prop :=
  ∀ e, o.answer = .panic e → Contained s o.effects o.state

theorem lend_contained (s : Session α) (h : String) (hold : α → Hold α) :
    Contains s (s.lend h hold) := by
  rw [lend]
  apply withPool_cases (P := Contains s)
  · intro _
    exact nofun
  · intro p hpool
    split
    · exact nofun
    · intro e
      simp only [Session.onPool, Outcome.andThen_answer, Outcome.andThen_effects,
        Outcome.andThen_state, Outcome.lift_answer, Outcome.lift_state, Outcome.lift_effects]
      cases hanswer : p.borrow.answer with
      | ok a =>
        intro hpanic
        cases hpanic
      | error e' =>
        intro _
        have hslots : s.slots = p.slots := by
          rw [slots, hpool]
          rfl
        rw [Outcome.pure_effects, List.append_nil]
        constructor
        · rw [hslots]
          exact borrow_spares hanswer
        · intro k
          exact Or.inl rfl

theorem giveBack_contained {p : Pool α} {holds : Named (Hold α)} (hpool : s.pool = some p)
    (hnames : ∀ k, holds.get? k = s.holds.get? k ∨
      ∃ hold, s.holds.get? k = some hold ∧ holds.get? k = none ∧ number hold.item = number a) :
    Contains s (giveBack { s with holds := holds } p a) := by
  intro e hpanic
  have hslots : s.slots = p.slots := by
    rw [slots, hpool]
    rfl
  cases hanswer : (p.release a).answer with
  | ok _ =>
    simp only [giveBack, Session.onPool, Outcome.map_answer, Outcome.lift_answer, hanswer] at hpanic
    cases hpanic
  | error e' =>
    obtain ⟨hspares, hone⟩ := release_spares hanswer
    constructor
    · rw [hslots]
      exact hspares
    · intro k
      rcases hnames k with hsame | ⟨hold, hget, hgone, hnumber⟩
      · exact Or.inl hsame
      · exact Or.inr ⟨hold, hget, hgone, hnumber ▸ hone⟩

theorem names_erase {hold : Hold α} (hget : s.holds.get? h = some hold) (k : String) :
    (s.holds.erase h).get? k = s.holds.get? k ∨
      ∃ hold', s.holds.get? k = some hold' ∧ (s.holds.erase h).get? k = none ∧
        number hold'.item = number hold.item := by
  by_cases hk : k = h
  · subst hk
    exact Or.inr ⟨hold, hget, Named.get?_erase_self s.holds k, rfl⟩
  · exact Or.inl (Named.get?_erase_ne s.holds hk)

/-- **A panic is contained**, whichever call it ends. -/
theorem step_contained (s : Session α) (r : Request) : Contains s (s.step r) := by
  cases r with
  | borrow h => exact lend_contained s h .bare
  | scope h => exact lend_contained s h .scoped
  | release h =>
    apply withPool_cases (P := Contains s)
    · intro _
      exact nofun
    · intro p hpool
      apply withBare_cases (P := Contains s)
      · exact nofun
      · intro a hget
        exact giveBack_contained hpool (names_erase hget)
  | endScope h =>
    apply withScoped_cases (P := Contains s)
    · exact nofun
    · intro a hget
      apply withPool_cases (P := Contains s)
      · intro _
        exact nofun
      · intro p hpool
        exact giveBack_contained hpool (names_erase hget)
  | releaseNew id text =>
    apply withPool_cases (P := Contains s)
    · intro _
      exact nofun
    · intro p hpool
      exact giveBack_contained hpool fun _ => Or.inl rfl
  -- the others never panic
  | detach h =>
    apply withScoped_cases (P := Contains s)
    · exact nofun
    · intro a _
      exact nofun
  | push h text front =>
    rw [step]
    split
    · exact nofun
    · exact nofun
  | view h =>
    rw [step]
    split
    · exact nofun
    · exact nofun
  | discard h =>
    apply withBare_cases (P := Contains s)
    · exact nofun
    · intro a _
      exact nofun
  | scopeDebug h =>
    apply withScoped_cases (P := Contains s)
    · exact nofun
    · intro a _
      exact nofun
  | info =>
    apply withPool_cases (P := Contains s)
    · intro _
      exact nofun
    · intro p _
      exact nofun
  | debug =>
    apply withPool_cases (P := Contains s)
    · intro _
      exact nofun
    · intro p _
      exact nofun
  | dropPool =>
    apply withPool_cases (P := Contains s)
    · intro _
      exact nofun
    · intro p _
      split
      · exact nofun
      · exact nofun
  | unknown => exact nofun

/-! ### Runs -/

/-- The session after a run. -/
def after (s : Session α) : List Request → Session α
  | [] => s
  | r :: rs => after (s.step r).state rs

/-- The numbers of the items that the generator made in a run. -/
def generated (s : Session α) : List Request → List Nat
  | [] => []
  | r :: rs => fresh s (s.step r).state ++ generated (s.step r).state rs

/-- The numbers of the items from elsewhere that were given to the pool in a run. -/
def strangers (s : Session α) : List Request → List Nat
  | [] => []
  | r :: rs => s.stranger r ++ strangers (s.step r).state rs

/-- Everything that a run does. -/
def effects (s : Session α) (rs : List Request) : List Effect := (s.run rs).flatMap (·.effects)

theorem run_balanced (rs : List Request) : ∀ {s : Session α}, s.Orderly →
    (s.after rs).Orderly ∧
      (s.generated rs ++ s.strangers rs ++ s.parked ++ s.held).Perm
        ((s.after rs).parked ++ (s.after rs).held ++ Effect.destructions (s.effects rs)) := by
  induction rs with
  | nil =>
    intro s hs
    refine ⟨hs, ?_⟩
    show ([] ++ [] ++ s.parked ++ s.held).Perm (s.parked ++ s.held ++ [])
    simp only [List.nil_append, List.append_nil, List.Perm.refl]
  | cons r rs ih =>
    intro s hs
    have hstep := step_balanced hs r
    obtain ⟨horderly, hrest⟩ := ih hstep.orderly
    refine ⟨horderly, ?_⟩
    have hbalance := hstep.balance
    have heffects : s.effects (r :: rs) = (s.step r).effects ++ (s.step r).state.effects rs := rfl
    rw [heffects, Effect.destructions_append]
    simp only [generated, strangers, after]
    rw [List.perm_iff_count] at hbalance hrest ⊢
    intro n
    have hn := hbalance n
    have hn' := hrest n
    simp only [List.count_append] at hn hn' ⊢
    omega

theorem generated_gone (rs : List Request) : ∀ {s : Session α}, s.Orderly → s.pool = none →
    s.generated rs = [] := by
  induction rs with
  | nil =>
    intro s _ _
    rfl
  | cons r rs ih =>
    intro s hs hgone
    have hstep := step_balanced hs r
    have hgone' : (s.step r).state.pool = none := by
      cases hpool : (s.step r).state.pool with
      | none => rfl
      | some p' =>
        obtain ⟨p, hp, _⟩ := hstep.pool p' hpool
        rw [hgone] at hp
        cases hp
    rw [generated, fresh, hgone, ih hstep.orderly hgone']
    rfl

/-- The calls of the generator that made something in a run follow those before it. -/
theorem generated_eq (rs : List Request) : ∀ {s : Session α} {p : Pool α}, s.Orderly →
    s.pool = some p → ∃ j, p.calls ≤ j ∧ s.generated rs = made p.make p.calls j := by
  induction rs with
  | nil =>
    intro s p _ _
    exact ⟨p.calls, Nat.le_refl _, (made_self p.make p.calls).symm⟩
  | cons r rs ih =>
    intro s p hs hpool
    have hstep := step_balanced hs r
    cases hpool' : (s.step r).state.pool with
    | none =>
      refine ⟨p.calls, Nat.le_refl _, ?_⟩
      rw [generated, fresh, hpool, hpool', generated_gone rs hstep.orderly hpool', made_self]
      rfl
    | some p' =>
      obtain ⟨q, hq, hmake, hcalls⟩ := hstep.pool p' hpool'
      obtain rfl : p = q := Option.some.inj (hpool.symm.trans hq)
      obtain ⟨j, hj, hrest⟩ := ih hstep.orderly hpool'
      refine ⟨j, Nat.le_trans hcalls hj, ?_⟩
      rw [generated, fresh, hpool, hpool', hrest, hmake]
      exact made_append p.make hcalls hj

/-! ### Opening -/

/-- A session with a pool as it was assembled, or without one if that panicked. -/
def opened (o : Outcome (Except Panic Unit) (Pool α)) : Session α :=
  match o.answer with
  | .ok () => ⟨some o.state, []⟩
  | .error _ => ⟨none, []⟩

/-- A pool with empty slots that the generator fills as far as asked. -/
theorem assemble_conserves (settings : Config.PoolSettings) {make : Nat → Except Panic α}
    (hmake : ∀ n a, make n = .ok a → number a = n) (label : String) (observer : Observer) :
    let o := Pool.assemble settings make label observer
    o.state.make = make ∧
      (made make 0 o.state.calls).Perm
        (Effect.destructions o.effects ++ Slots.numbers o.state.slots) ∧
      ∀ e, o.answer = .error e → Slots.numbers o.state.slots = [] := by
  let empty : Pool α :=
    ⟨List.replicate settings.capacity none, make, 0, settings.ignoreDispose, label, observer⟩
  have hempty : Slots.numbers empty.slots = [] := by
    show (Slots.parked (List.replicate settings.capacity none)).map number = []
    rw [Slots.parked_replicate]
    rfl
  have hidle : (made make 0 0).Perm ([] ++ Slots.numbers empty.slots) := by
    rw [made_self, hempty]
    exact .refl _
  rw [Pool.assemble]
  split
  · exact ⟨rfl, hidle, fun _ _ => hempty⟩
  · split
    · obtain ⟨hfill, hpanic⟩ := fill_conserves settings.capacity (p := empty) hmake
      refine ⟨hfill.make, ?_, hpanic⟩
      have hbalance := hfill.balance
      rw [hempty, List.append_nil] at hbalance
      exact hbalance
    · exact ⟨rfl, hidle, fun _ _ => hempty⟩

theorem opened_orderly {o : Outcome (Except Panic Unit) (Pool α)}
    (hcounted : o.state.Counted) : (opened o).Orderly := by
  rw [opened]
  split
  · refine ⟨Named.distinct_nil, ?_⟩
    rintro p ⟨⟩
    exact hcounted
  · refine ⟨Named.distinct_nil, ?_⟩
    intro p hp
    cases hp

/-- What a session starts with: the parked items of its pool, and nothing held. -/
theorem opened_places {o : Outcome (Except Panic Unit) (Pool α)}
    (hpanic : ∀ e, o.answer = .error e → Slots.numbers o.state.slots = []) :
    (opened o).parked = Slots.numbers o.state.slots ∧ (opened o).held = [] := by
  rw [opened]
  split
  · exact ⟨rfl, rfl⟩
  · rename_i e he
    exact ⟨(hpanic e he).symm, rfl⟩

theorem opened_generated {o : Outcome (Except Panic Unit) (Pool α)}
    (hcounted : o.state.Counted) (rs : List Request) :
    ∃ j, o.state.calls ≤ j ∧ (opened o).generated rs = made o.state.make o.state.calls j := by
  have hs := opened_orderly hcounted
  rw [opened] at hs ⊢
  split at hs
  · exact generated_eq rs hs rfl
  · refine ⟨o.state.calls, Nat.le_refl _, ?_⟩
    rw [generated_gone rs hs rfl, made_self]

/-! ### Conservation -/

/-- The items that came into being under these numbers are each parked in one slot, held under one
    name, or destroyed once. -/
structure Accounted (came : List Nat) (s : Session α) (destroyed : List Nat) : Prop where
  complete : came.Perm (s.parked ++ s.held ++ destroyed)
  once : (s.parked ++ s.held ++ destroyed).Nodup
  slots : ∀ (i j : Nat) (a b : α), s.slots[i]? = some (some a) → s.slots[j]? = some (some b) →
    number a = number b → i = j
  names : ∀ (k k' : String) (hold hold' : Hold α), s.holds.get? k = some hold →
    s.holds.get? k' = some hold' → number hold.item = number hold'.item → k = k'

theorem names_unique (hs : s.Orderly) (hnodup : s.held.Nodup) {k k' : String}
    {hold hold' : Hold α} (hk : s.holds.get? k = some hold) (hk' : s.holds.get? k' = some hold')
    (hsame : number hold.item = number hold'.item) : k = k' := by
  by_contra hne
  have hperm := heldBy_erase hs.distinct hk
  have hrest := (List.nodup_cons.mp (hperm.nodup_iff.mp hnodup)).1
  have hget : (s.holds.erase k).get? k' = some hold' := by
    rw [Named.get?_erase_ne s.holds (Ne.symm hne)]
    exact hk'
  apply hrest
  rw [hsame]
  exact List.mem_map_of_mem (f := fun e : String × Hold α => number e.2.item)
    (Named.mem_of_get? hget)

theorem Orderly.accounted {came destroyed : List Nat} (hs : s.Orderly) (hcame : came.Nodup)
    (hperm : came.Perm (s.parked ++ s.held ++ destroyed)) : Accounted came s destroyed := by
  have hnodup := hperm.nodup_iff.mp hcame
  have hplaces := (List.nodup_append.mp hnodup).1
  obtain ⟨hparked, hheld, _⟩ := List.nodup_append.mp hplaces
  constructor
  · exact hperm
  · exact hnodup
  · intro i j a b hi hj hsame
    exact Slots.place_unique hparked hi hj hsame
  · intro k k' hold hold' hk hk' hsame
    exact names_unique hs hheld hk hk' hsame

/-- **No item of a pool is lost, doubled, or destroyed twice**, even if the generator, a lending or
    a reset panics at any call.  The generator makes each item once.  If what is brought from
    elsewhere are other items, then after every run each item that came into being is parked in
    one slot, held under one name, or destroyed.  A panic costs one item at most, and one while
    the pool is filled costs exactly the items that were made. -/
theorem items_conserved (settings : Config.PoolSettings) (make : Nat → Except Panic α)
    (hmake : ∀ n a, make n = .ok a → number a = n) (label : String) (observer : Observer)
    (rs : List Request) :
    let o := Pool.assemble settings make label observer
    let s := opened o
    let generated := made make 0 o.state.calls ++ s.generated rs
    generated.Nodup ∧
      ((generated ++ s.strangers rs).Nodup →
        Accounted (generated ++ s.strangers rs) (s.after rs)
          (Effect.destructions (o.effects ++ s.effects rs))) ∧
      (∀ r e, ((s.after rs).step r).answer = .panic e →
        Contained (s.after rs) ((s.after rs).step r).effects ((s.after rs).step r).state) ∧
      ∀ e, o.answer = .error e →
        s.pool = none ∧ (Effect.destructions o.effects).Perm (made make 0 o.state.calls) := by
  intro o s generated
  obtain ⟨hmade, hperm, hpanic⟩ := assemble_conserves settings hmake label observer
  have hcounted : o.state.Counted := by
    rw [Counted, hmade]
    exact hmake
  have hs : s.Orderly := opened_orderly hcounted
  obtain ⟨hafter, hbalance⟩ := run_balanced rs hs
  obtain ⟨hparked, hheld⟩ : s.parked = Slots.numbers o.state.slots ∧ s.held = [] :=
    opened_places hpanic
  obtain ⟨j, hj, hrest⟩ := opened_generated hcounted rs
  have hgenerated : generated = made make 0 j := by
    rw [hmade] at hrest
    show made make 0 o.state.calls ++ (opened o).generated rs = _
    rw [hrest]
    exact made_append make (Nat.zero_le _) hj
  refine ⟨?_, ?_, ?_, ?_⟩
  · rw [hgenerated]
    exact nodup_made make 0 j
  · intro hcame
    apply Orderly.accounted hafter hcame
    rw [hparked, hheld, List.append_nil] at hbalance
    have hopening : (made make 0 o.state.calls).Perm
        (Effect.destructions o.effects ++ Slots.numbers o.state.slots) := hperm
    rw [Effect.destructions_append]
    rw [List.perm_iff_count] at hbalance hopening ⊢
    intro n
    have hn := hbalance n
    have hn' := hopening n
    simp only [List.count_append, generated] at hn hn' ⊢
    omega
  · intro r e hpanic
    exact step_contained (s.after rs) r e hpanic
  · intro e he
    have hempty := hpanic e he
    rw [hempty, List.append_nil] at hperm
    refine ⟨?_, hperm.symm⟩
    show (opened o).pool = none
    rw [opened, he]

/-- A generator that fails at one of its calls. -/
def faulty (n : Nat) : Except Panic Tracked :=
  if n = 3 then .error (.generatorFailed 3) else .ok ⟨n, "", 0, 0⟩

/-- Two items made in advance and one on demand; then the generator fails, an item refuses to be
    reset, one is kept out of its scope, one comes from elsewhere, and the pool is dropped. -/
def refusals : List Request :=
  [.borrow "a", .scope "b", .borrow "c", .borrow "d", .push "a" "RESET!" true, .release "a",
    .detach "b", .release "c", .releaseNew 9 "", .releaseNew 10 "", .dropPool]

theorem items_conserved_refusals :
    let o := Pool.assemble ⟨2, true, false⟩ faulty "items" .quiet
    let s := opened o
    let generated := made faulty 0 o.state.calls ++ s.generated refusals
    (∀ n a, faulty n = .ok a → number a = n) ∧
      (generated ++ s.strangers refusals).Nodup ∧
      Accounted (generated ++ s.strangers refusals) (s.after refusals)
        (Effect.destructions (o.effects ++ s.effects refusals)) ∧
      generated ++ s.strangers refusals = [0, 1, 2, 9, 10] ∧
      (s.after refusals).held = [1] ∧
      Effect.destructions (o.effects ++ s.effects refusals) = [0, 10, 2, 9] := by
  have hnumbers : ∀ n a, faulty n = .ok a → number a = n := by
    intro n a h
    rw [faulty] at h
    split at h
    · cases h
    · cases h
      rfl
  have hcame : (made faulty 0 2 ++ [2] ++ [9, 10]).Nodup := by decide
  obtain ⟨_, haccounted, _, _⟩ :=
    items_conserved ⟨2, true, false⟩ faulty hnumbers "items" .quiet refusals
  exact ⟨hnumbers, hcame, haccounted hcame, by decide, by decide, by decide⟩

end Session

end Conduit.Pool

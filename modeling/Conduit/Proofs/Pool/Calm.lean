/-
  Conduit/Proofs/Pool/Calm.lean
  =============================
  **What is done to a pool as long as nothing panics.**

  A borrow that succeeds lends a parked item or a new one, and a release that succeeds
  parks what it was given or destroys it.  Every step of a session is one of these, or
  concerns the holders alone, or drops the pool.

  A career is a pool as it was assembled with all that was asked of it since.  Nothing here
  depends on what the items are.
-/
import Conduit.Proofs.Pool.Conservation

namespace Conduit

namespace Pool

/-! ### Operations that succeed -/

section Fetching

variable {α : Type}

/-- The same pool at another time. -/
structure Akin (p p' : Pool α) : Prop where
  capacity : p'.capacity = p.capacity
  make : p'.make = p.make
  ignoreDispose : p'.ignoreDispose = p.ignoreDispose
  label : p'.label = p.label
  observer : p'.observer = p.observer

theorem Akin.refl (p : Pool α) : Akin p p := ⟨rfl, rfl, rfl, rfl, rfl⟩

theorem Akin.trans {p p' p'' : Pool α} (h : Akin p p') (h' : Akin p' p'') : Akin p p'' :=
  ⟨h'.capacity.trans h.capacity, h'.make.trans h.make,
    h'.ignoreDispose.trans h.ignoreDispose, h'.label.trans h.label,
    h'.observer.trans h.observer⟩

/-- How a borrow comes by the item that it lends. -/
inductive Fetches (p : Pool α) : α → List Effect → Pool α → Prop
  | parked {a : α} {rest : Slots α} (htake : p.slots.take? = some (a, rest)) :
    Fetches p a [] { p with slots := rest }
  | fresh {a : α} (htake : p.slots.take? = none) (hmake : p.make p.calls = .ok a) :
    Fetches p a [.reported p.observer (.poolMiss p.label)] { p with calls := p.calls + 1 }

theorem Fetches.akin {p p' : Pool α} {a : α} {es : List Effect} (h : Fetches p a es p') :
    Akin p p' := by
  cases h with
  | parked htake => exact ⟨(Slots.take?_some htake).2, rfl, rfl, rfl, rfl⟩
  | fresh _ _ => exact ⟨rfl, rfl, rfl, rfl, rfl⟩

end Fetching

section Operations

variable {α : Type} [Poolable α]

/-- Where an item goes that a release is done with. -/
inductive Parks (p : Pool α) (a : α) : List Effect → Pool α → Prop
  | parked {slots : Slots α} (hput : p.slots.put? a = some slots) :
    Parks p a [] { p with slots := slots }
  | full (hput : p.slots.put? a = none) :
    Parks p a (.reported p.observer (.poolOverflow p.label) :: destroy a) p

/-- An item as it is parked, after its reset unless the pool ignores returns. -/
def cleaned (p : Pool α) (a : α) : Except Panic α :=
  if p.ignoreDispose then .ok a else Poolable.reset a

theorem lend_ok {a b : α} {p : Pool α} (h : (lend a p).answer = .ok b) :
    Poolable.onBorrow a = .ok b ∧ lend a p = .pure (.ok b) p := by
  rw [lend] at h ⊢
  cases hlent : Poolable.onBorrow a with
  | ok c =>
    rw [hlent] at h
    cases h
    exact ⟨rfl, rfl⟩
  | error e =>
    rw [hlent] at h
    cases h

theorem borrow_ok {p : Pool α} {a : α} (h : p.borrow.answer = .ok a) :
    ∃ b, Poolable.onBorrow b = .ok a ∧ Fetches p b p.borrow.effects p.borrow.state := by
  obtain ⟨b, rest, htake, hborrow⟩ | ⟨b, htake, hmake, hborrow⟩ | ⟨e, htake, hmake, hborrow⟩ :=
    borrow_cases p
  · rw [hborrow] at h ⊢
    obtain ⟨hlent, hlend⟩ := lend_ok h
    rw [hlend]
    exact ⟨b, hlent, .parked htake⟩
  · rw [hborrow] at h ⊢
    obtain ⟨hlent, hlend⟩ := lend_ok h
    rw [hlend]
    exact ⟨b, hlent, .fresh htake hmake⟩
  · rw [hborrow] at h
    cases h

theorem park_parks (a : α) (p : Pool α) : Parks p a (p.park a).effects (p.park a).state := by
  rw [park]
  cases hput : p.slots.put? a with
  | some slots => exact .parked hput
  | none => exact .full hput

theorem release_ok {p : Pool α} {a : α} (h : (p.release a).answer = .ok ()) :
    ∃ b, p.cleaned a = .ok b ∧ Parks p b (p.release a).effects (p.release a).state := by
  rw [release, cleaned] at *
  split
  · exact ⟨a, rfl, park_parks a p⟩
  · rename_i hignore
    rw [if_neg hignore] at h
    cases hreset : Poolable.reset a with
    | ok b => exact ⟨b, rfl, park_parks b p⟩
    | error e =>
      rw [hreset] at h
      cases h

theorem Parks.akin {p p' : Pool α} {a : α} {es : List Effect} (h : Parks p a es p') :
    Akin p p' := by
  cases h with
  | parked hput => exact ⟨(Slots.put?_some hput).2, rfl, rfl, rfl, rfl⟩
  | full _ => exact .refl _

/-- A fill that succeeds parked what the generator made, and did nothing else. -/
theorem fill_ok (n : Nat) {p : Pool α} (h : (p.fill n).answer = .ok ())
    (hroom : (Slots.parked p.slots).length + n ≤ p.slots.length) :
    ∃ items slots, p.fill n = .pure (.ok ()) { p with slots := slots, calls := p.calls + n } ∧
      (List.range' p.calls n).map p.make = items.map .ok ∧
      (Slots.parked slots).Perm (items ++ Slots.parked p.slots) ∧
      slots.length = p.slots.length := by
  induction n generalizing p with
  | zero => exact ⟨[], p.slots, rfl, rfl, .refl _, rfl⟩
  | succ n ih =>
    cases hmake : p.make p.calls with
    | error e =>
      rw [fill, generate, hmake] at h
      cases h
    | ok a =>
      obtain ⟨rest, hput⟩ := Slots.put?_room p.slots a (by omega)
      obtain ⟨hparked, hlength⟩ := Slots.put?_some hput
      have hcount : (Slots.parked rest).length = (Slots.parked p.slots).length + 1 :=
        hparked.length_eq
      rw [fill_succ n hmake hput] at h ⊢
      obtain ⟨items, slots, hfill, hitems, hperm, hslots⟩ := ih h (by
        show (Slots.parked rest).length + n ≤ rest.length
        omega)
      refine ⟨a :: items, slots, ?_, ?_, ?_, hslots.trans hlength⟩
      · rw [hfill, ← Nat.add_right_comm p.calls n 1]
        rfl
      · rw [List.range'_succ, List.map_cons, List.map_cons, hmake, hitems]
      · exact (hperm.trans (hparked.append_left items)).trans List.perm_middle

end Operations

/-! ### Steps -/

/-- What a request uses a pool for. -/
inductive Use
  | lend
  | giveBack
deriving DecidableEq, Repr

/-- What a request has used the pool for, by its answer; a refused request has not used it. -/
def Request.use? : Request → Reply → Option Use
  | .borrow _, .item _ | .scope _, .item _ => some .lend
  | .release _, .nothing | .endScope _, .nothing | .releaseNew _ _, .nothing => some .giveBack
  | _, _ => none

/-- Whether an answer is a panic. -/
def Reply.isPanic : Reply → Bool
  | .panic _ => true
  | _ => false

namespace Session

variable {α : Type} [Specimen α]

/-- What a step does that does not panic. -/
inductive Does (s : Session α) : Request → Answer α → Prop
  | lends {r : Request} {h : String} {p p' : Pool α} {a b : α} {hold : Hold α}
      {es : List Effect} (hr : r = .borrow h ∨ r = .scope h) (hitem : hold.item = b)
      (hpool : s.pool = some p) (hfree : s.holds.holds h = false)
      (hlent : Poolable.onBorrow a = .ok b) (hfetch : Fetches p a es p') :
    Does s r ⟨.item (Specimen.view b), ⟨some p', s.holds.put h hold⟩, es⟩
  | takesBack {r : Request} {h : String} {p p' : Pool α} {b : α} {hold : Hold α}
      {es : List Effect} (hr : r = .release h ∨ r = .endScope h)
      (hpool : s.pool = some p) (hget : s.holds.get? h = some hold)
      (hclean : p.cleaned hold.item = .ok b) (hpark : Parks p b es p') :
    Does s r ⟨.nothing, ⟨some p', s.holds.erase h⟩, es⟩
  | takesIn {id : Nat} {text : String} {p p' : Pool α} {b : α} {es : List Effect}
      (hpool : s.pool = some p) (hclean : p.cleaned (Specimen.make id text) = .ok b)
      (hpark : Parks p b es p') :
    Does s (.releaseNew id text) ⟨.nothing, ⟨some p', s.holds⟩, es⟩
  | detaches {h : String} {a : α} (hget : s.holds.get? h = some (.scoped a)) :
    Does s (.detach h) ⟨.item (Specimen.view a), { s with holds := s.holds.put h (.bare a) }, []⟩
  | changes {h text : String} {front : Bool} {hold : Hold α}
      (hget : s.holds.get? h = some hold) :
    Does s (.push h text front)
      ⟨.item (Specimen.view (Specimen.push front text hold.item)),
        { s with holds := s.holds.put h (hold.set (Specimen.push front text hold.item)) }, []⟩
  | discards {h : String} {a : α} (hget : s.holds.get? h = some (.bare a)) :
    Does s (.discard h) ⟨.nothing, { s with holds := s.holds.erase h }, destroy a⟩
  | drops {p : Pool α} (hpool : s.pool = some p) :
    Does s .dropPool ⟨.nothing, { s with pool := none }, p.clear.effects⟩
  | idles {r : Request} {reply : Reply} (hr : r.use? reply = none) : Does s r ⟨reply, s, []⟩

variable {s : Session α} {r : Request}

/-- An answer that, unless it is a panic, comes of doing what the request asks. -/
def Answers (s : Session α) (r : Request) (o : Answer α) : Prop :=
  o.answer.isPanic = false → Does s r o

theorem refuse_answers (s : Session α) (r : Request) (m : Misuse) :
    Answers s r (s.refuse m) := by
  intro _
  apply Does.idles
  cases r <;> rfl

theorem lend_answers {h : String} {hold : α → Hold α} (hr : r = .borrow h ∨ r = .scope h)
    (hhold : ∀ a, (hold a).item = a) : Answers s r (s.lend h hold) := by
  rw [lend]
  apply withPool_cases (P := Answers s r)
  · intro _
    exact refuse_answers s r .gone
  · intro p hpool
    cases hfree : s.holds.holds h with
    | true => exact refuse_answers s r .handleInUse
    | false =>
      intro hcalm
      simp only [Bool.false_eq_true, if_false, onPool, Outcome.andThen, Outcome.lift] at hcalm ⊢
      cases hanswer : p.borrow.answer with
      | error e =>
        rw [hanswer] at hcalm
        cases hcalm
      | ok b =>
        obtain ⟨a, hlent, hfetch⟩ := borrow_ok hanswer
        simp only [Outcome.pure, List.append_nil]
        exact .lends hr (hhold b) hpool hfree hlent hfetch

/-- A release into the pool that succeeds, with what is held after it. -/
theorem giveBack_does {p : Pool α} {a : α} (holds : Named (Hold α))
    (hcalm : (giveBack { s with holds := holds } p a).answer.isPanic = false) :
    ∃ b es p', p.cleaned a = .ok b ∧ Parks p b es p' ∧
      giveBack { s with holds := holds } p a = ⟨.nothing, ⟨some p', holds⟩, es⟩ := by
  simp only [giveBack, onPool, Outcome.map, Outcome.lift] at hcalm ⊢
  cases hanswer : (p.release a).answer with
  | error e =>
    rw [hanswer] at hcalm
    cases hcalm
  | ok _ =>
    obtain ⟨b, hclean, hpark⟩ := release_ok hanswer
    exact ⟨b, _, _, hclean, hpark, rfl⟩

theorem giveBack_answers {h : String} {p : Pool α} {hold : Hold α}
    (hr : r = .release h ∨ r = .endScope h) (hpool : s.pool = some p)
    (hget : s.holds.get? h = some hold) :
    Answers s r (giveBack { s with holds := s.holds.erase h } p hold.item) := by
  intro hcalm
  obtain ⟨b, es, p', hclean, hpark, hgive⟩ := giveBack_does (s.holds.erase h) hcalm
  rw [hgive]
  exact .takesBack hr hpool hget hclean hpark

/-- **A step that does not panic** lends an item, gives one back, concerns the holders alone, or
    drops the pool. -/
theorem step_does (s : Session α) (r : Request) : Answers s r (s.step r) := by
  have hrefused := refuse_answers s r
  cases r with
  | borrow h => exact lend_answers (.inl rfl) fun _ => rfl
  | scope h => exact lend_answers (.inr rfl) fun _ => rfl
  | release h =>
    apply withPool_cases (P := Answers s _)
    · intro _
      exact hrefused .gone
    · intro p hpool
      apply withBare_cases (P := Answers s _)
      · exact hrefused .noSuchHandle
      · intro a hget
        exact giveBack_answers (.inl rfl) hpool hget
  | endScope h =>
    apply withScoped_cases (P := Answers s _)
    · exact hrefused .noSuchHandle
    · intro a hget
      apply withPool_cases (P := Answers s _)
      · intro _
        exact hrefused .gone
      · intro p hpool
        exact giveBack_answers (.inr rfl) hpool hget
  | releaseNew id text =>
    apply withPool_cases (P := Answers s _)
    · intro _
      exact hrefused .gone
    · intro p hpool hcalm
      obtain ⟨b, es, p', hclean, hpark, hgive⟩ := giveBack_does s.holds hcalm
      rw [hgive]
      exact .takesIn hpool hclean hpark
  | detach h =>
    apply withScoped_cases (P := Answers s _)
    · exact hrefused .noSuchHandle
    · intro a hget _
      exact .detaches hget
  | push h text front =>
    rw [step]
    split
    · rename_i hold hget
      intro _
      exact .changes hget
    · exact hrefused .noSuchHandle
  | discard h =>
    apply withBare_cases (P := Answers s _)
    · exact hrefused .noSuchHandle
    · intro a hget _
      exact .discards hget
  | dropPool =>
    apply withPool_cases (P := Answers s _)
    · intro _
      exact hrefused .gone
    · intro p hpool
      split
      · exact hrefused .busy
      · intro _
        simp only [Outcome.andThen, Outcome.pure, List.append_nil]
        exact .drops hpool
  | view h =>
    rw [step]
    split
    · intro _
      exact .idles rfl
    · exact hrefused .noSuchHandle
  | scopeDebug h =>
    apply withScoped_cases (P := Answers s _)
    · exact hrefused .noSuchHandle
    · intro a _ _
      exact .idles rfl
  | info =>
    apply withPool_cases (P := Answers s _)
    · intro _
      exact hrefused .gone
    · intro p _ _
      exact .idles rfl
  | debug =>
    apply withPool_cases (P := Answers s _)
    · intro _
      exact hrefused .gone
    · intro p _ _
      exact .idles rfl
  | unknown => exact hrefused .noSuchOp

/-- The pool after a step is the one before it. -/
theorem Does.akin {o : Answer α} {p' : Pool α} (h : Does s r o) (hpool' : o.state.pool = some p') :
    ∃ p, s.pool = some p ∧ Akin p p' := by
  cases h with
  | lends _ _ hpool _ _ hfetch =>
    cases hpool'
    exact ⟨_, hpool, hfetch.akin⟩
  | takesBack _ hpool _ _ hpark =>
    cases hpool'
    exact ⟨_, hpool, hpark.akin⟩
  | takesIn hpool _ hpark =>
    cases hpool'
    exact ⟨_, hpool, hpark.akin⟩
  | drops _ => cases hpool'
  | _ => exact ⟨p', hpool', .refl p'⟩

/-- Names stay distinct. -/
theorem Does.distinct {o : Answer α} (h : Does s r o) (hs : s.holds.Distinct) :
    o.state.holds.Distinct := by
  cases h with
  | lends _ _ _ _ _ _ => exact hs.put _ _
  | takesBack _ _ _ _ _ => exact hs.erase _
  | detaches _ => exact hs.put _ _
  | changes _ => exact hs.put _ _
  | discards _ => exact hs.erase _
  | _ => exact hs

/-! ### Runs -/

/-- The session that a run leads to. -/
def reached (s : Session α) : List Request → Session α
  | [] => s
  | r :: rs => reached (s.step r).state rs

/-- All that a run does. -/
def told (s : Session α) (rs : List Request) : List Effect := (s.run rs).flatMap (·.effects)

/-- What a run uses the pool for, one after another. -/
def uses (s : Session α) : List Request → List Use
  | [] => []
  | r :: rs => (r.use? (s.step r).answer).toList ++ uses (s.step r).state rs

/-- A run in which nothing panics. -/
def Calm (s : Session α) (rs : List Request) : Prop :=
  ∀ o ∈ s.run rs, o.answer.isPanic = false

/-- The item that a request is to give back, as its holder leaves it. -/
def offered (s : Session α) : Request → Option α
  | .release h | .endScope h => (s.holds.get? h).map Hold.item
  | .releaseNew id text => some (Specimen.make id text)
  | _ => none

instance (s : Session α) (rs : List Request) : Decidable (s.Calm rs) :=
  inferInstanceAs (Decidable (∀ o ∈ s.run rs, o.answer.isPanic = false))

/-- The items that are parked or held. -/
def items (s : Session α) : List α :=
  (s.pool.elim [] fun p => Slots.parked p.slots) ++ s.holds.map fun e => e.2.item

/-- The item that a step lends, as its holder gets it. -/
def lentBy (r : Request) (o : Answer α) : Option α :=
  match r, o.answer with
  | .borrow h, .item _ | .scope h, .item _ => (o.state.holds.get? h).map Hold.item
  | _, _ => none

/-- The item that a step gives back, as its holder leaves it. -/
def returnedBy (s : Session α) (r : Request) (o : Answer α) : Option α :=
  if r.use? o.answer = some .giveBack then s.offered r else none

theorem use?_lends {h : String} {v : ItemView} (hr : r = .borrow h ∨ r = .scope h) :
    r.use? (.item v) = some .lend := by
  obtain rfl | rfl := hr
  · rfl
  · rfl

theorem use?_takesBack {h : String} (hr : r = .release h ∨ r = .endScope h) :
    r.use? .nothing = some .giveBack := by
  obtain rfl | rfl := hr
  · rfl
  · rfl

theorem offered_takesBack {h : String} {hold : Hold α} (hr : r = .release h ∨ r = .endScope h)
    (hget : s.holds.get? h = some hold) : s.offered r = some hold.item := by
  obtain rfl | rfl := hr
  · rw [offered, hget]
    rfl
  · rw [offered, hget]
    rfl

/-- The items that a run lends, each time as their holder gets them. -/
def lent (s : Session α) : List Request → List α
  | [] => []
  | r :: rs => (lentBy r (s.step r)).toList ++ lent (s.step r).state rs

/-- The items that are given back in a run, each time as their holder leaves them. -/
def returned (s : Session α) : List Request → List α
  | [] => []
  | r :: rs => (s.returnedBy r (s.step r)).toList ++ returned (s.step r).state rs

theorem calm_cons {rs : List Request} :
    s.Calm (r :: rs) ↔ (s.step r).answer.isPanic = false ∧ (s.step r).state.Calm rs :=
  List.forall_mem_cons

theorem told_cons (s : Session α) (r : Request) (rs : List Request) :
    s.told (r :: rs) = (s.step r).effects ++ (s.step r).state.told rs := rfl

theorem calm_append {rs rs' : List Request} :
    s.Calm (rs ++ rs') ↔ s.Calm rs ∧ (s.reached rs).Calm rs' := by
  induction rs generalizing s with
  | nil =>
    constructor
    · intro hrest
      exact ⟨fun o ho => absurd ho List.not_mem_nil, hrest⟩
    · exact fun h => h.2
  | cons r rs ih =>
    rw [List.cons_append, calm_cons, calm_cons, ih, and_assoc]
    rfl

/-- What every step that does not panic preserves, a calm run preserves. -/
theorem Calm.preserves {P : Session α → Prop} {rs : List Request} (hcalm : s.Calm rs)
    (hstep : ∀ s r o, P s → Does s r o → P o.state) (hs : P s) : P (s.reached rs) := by
  induction rs generalizing s with
  | nil => exact hs
  | cons r rs ih =>
    obtain ⟨hfirst, hrest⟩ := calm_cons.mp hcalm
    exact ih hrest (hstep s r _ hs (step_does s r hfirst))

end Session

/-! ### Careers -/

/-- A pool as it is assembled, and what is asked of it and of its holders then. -/
structure Career (α : Type) where
  settings : Config.PoolSettings
  make : Nat → Except Panic α
  label : String
  observer : Observer
  requests : List Request

namespace Career

variable {α : Type} [Specimen α]

def opening (c : Career α) : Outcome (Except Panic Unit) (Pool α) :=
  Pool.assemble c.settings c.make c.label c.observer

def start (c : Career α) : Session α := ⟨some c.opening.state, []⟩

def finish (c : Career α) : Session α := c.start.reached c.requests

def effects (c : Career α) : List Effect := c.opening.effects ++ c.start.told c.requests

def uses (c : Career α) : List Use := c.start.uses c.requests

def replies (c : Career α) : List Reply := (c.start.run c.requests).map (·.answer)

def lent (c : Career α) : List α := c.start.lent c.requests

def returned (c : Career α) : List α := c.start.returned c.requests

/-- A career in which nothing panics, beginning with the generator when the slots are filled. -/
structure Calm (c : Career α) : Prop where
  opening : c.opening.answer = .ok ()
  run : c.start.Calm c.requests

/-- How many items a pool is filled with when it is assembled. -/
def filled (c : Career α) : Nat := if c.settings.preInitialize then c.settings.capacity else 0

/-- A pool that was assembled has its slots empty, or full of what the generator made. -/
theorem assembled {c : Career α} (h : c.opening.answer = .ok ()) :
    ∃ (items : List α) (slots : Slots α),
      c.opening = .pure (.ok ())
        ⟨slots, c.make, c.filled, c.settings.ignoreDispose, c.label, c.observer⟩ ∧
      (List.range c.filled).map c.make = items.map .ok ∧
      (Slots.parked slots).Perm items ∧ slots.length = c.settings.capacity := by
  rw [opening, Pool.assemble] at h ⊢
  by_cases hzero : c.settings.capacity = 0
  · rw [if_pos hzero] at h
    cases h
  · rw [if_neg hzero] at h ⊢
    cases hfill : c.settings.preInitialize with
    | false =>
      have hnone : c.filled = 0 := by
        rw [filled, hfill]
        rfl
      rw [hnone]
      refine ⟨[], _, rfl, rfl, ?_, List.length_replicate⟩
      rw [Slots.parked_replicate]
    | true =>
      have hall : c.filled = c.settings.capacity := by
        rw [filled, hfill]
        rfl
      rw [hfill, if_pos rfl] at h
      obtain ⟨items, slots, hfilled, hitems, hperm, hlength⟩ := fill_ok _ h (by
        rw [Slots.parked_replicate, List.length_replicate]
        exact Nat.le_of_eq (Nat.zero_add _))
      rw [if_pos rfl, hfilled, hall, List.range_eq_range']
      refine ⟨items, slots, ?_, hitems, ?_, ?_⟩
      · rw [Nat.zero_add]
      · rw [Slots.parked_replicate, List.append_nil] at hperm
        exact hperm
      · rw [hlength, List.length_replicate]

end Career

end Pool

end Conduit

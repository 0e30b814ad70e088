/-
  Conduit/Proofs/Lease/Course.lean
  ================================
  **The course of a lease.**

  A tenancy stands in a phase when its slot does and its books agree: every completer
  shows the generation of its lease, the word counts those of the present lease, and the
  future, the waiting and the running continuation are there when the phase says so, and
  no others.

  From a tenancy that stands in a phase, an event of the present lease is one of the
  moves listed by `Move`, each with its share of the lease's account.  An event of an
  earlier lease moves nothing; all it can do is to be refused.
-/
import Conduit.Proofs.Lease.Phase
import Conduit.Proofs.Lease.Tenancy

namespace Conduit.Lease

/-! ### Generations -/

/-- The generation of a slot that was recycled so often. -/
def generationOf (turn : Nat) : UInt32 := UInt32.ofNat turn

theorem generationOf_succ (turn : Nat) : generationOf (turn + 1) = generationOf turn + 1 := by
  refine UInt32.toNat_inj.mp ?_
  simp [generationOf, UInt32.toNat_add]

/-- Generations come round every 2^32 turns. -/
theorem generationOf_eq_iff {turn turn' : Nat} :
    generationOf turn = generationOf turn' ↔ turn % 4294967296 = turn' % 4294967296 := by
  rw [← UInt32.toNat_inj]
  simp [generationOf]

/-- A completer that is used in time is not taken for one of a later lease. -/
theorem generationOf_ne {lease turn : Nat} (hlater : lease < turn)
    (htime : turn < lease + 4294967296) : generationOf turn ≠ generationOf lease := by
  intro heq
  have hmod := generationOf_eq_iff.mp heq
  omega

/-! ### Counting completers -/

theorem liveIn_cons (lease : Nat) (c : Pass) (cs : List Pass) :
    liveIn lease (c :: cs) = liveIn lease cs + if c.lease = lease then 1 else 0 := by
  simp [liveIn, List.countP_cons]

theorem liveIn_erase {c : Pass} {cs : List Pass} (hc : c ∈ cs) :
    liveIn c.lease cs = liveIn c.lease (cs.erase c) + 1 := by
  rw [liveIn, (List.perm_cons_erase hc).countP_eq, List.countP_cons]
  simp [liveIn]

theorem liveIn_erase_ne {lease : Nat} {c : Pass} {cs : List Pass} (hc : c ∈ cs)
    (hne : c.lease ≠ lease) : liveIn lease (cs.erase c) = liveIn lease cs := by
  rw [liveIn, liveIn, (List.perm_cons_erase hc).countP_eq, List.countP_cons]
  simp [hne]

/-! ### Moves -/

namespace Phase

variable {α κ : Type}

/-- The futures that hold a slot in this phase. -/
def futures (turn : Nat) : Phase α κ → List Nat
  | .pending _ | .ready _ => [turn]
  | _ => []

def waiting (turn : Nat) : Phase α κ → List (Due α κ)
  | .handed (.waiting k v) => [⟨turn, k, v⟩]
  | _ => []

def running (turn : Nat) : Phase α κ → List (Due α κ)
  | .handed (.running k v) => [⟨turn, k, v⟩]
  | _ => []

end Phase

/-- What an outcome that was accepted puts on the account, given what it led to. -/
def Account.ofSettling {α κ : Type} (v : Verdict α) (r : Receipt α κ) (effects : List Effect) :
    Account α κ :=
  { attempts := [v]
    accepted := [v]
    delivered := (r.begun.map Due.verdict).toList
    runs := r.begun.toList.map fun j => (j.continuation, j.verdict)
    recycled := r.recycled.toNat
    woken := Effect.wakes effects }

/-- The moves of a lease, each with its share of the account.  Continuations that a completion
    finds are deferred or not, as the slot has it. -/
inductive Move {α κ : Type} (deferred : Bool) : Phase α κ → Account α κ → Phase α κ → Prop
  /-- The lease begins. -/
  | sign : Move deferred .idle { signed := 1 } (.pending none)
  | stay (p : Phase α κ) : Move deferred p .blank p
  /-- An outcome comes too late. -/
  | refuse (p : Phase α κ) (v : Verdict α) (hopen : p.isOpen = false) (hp : p ≠ .idle) :
    Move deferred p { attempts := [v] } p
  /-- The outcome is there for the future, and the waiting task is woken. -/
  | settle (w : Option Waker) (v : Verdict α) :
    Move deferred (.pending w)
      { attempts := [v], accepted := [v], woken := w.toList } (.ready v)
  | defer (k : κ) (v : Verdict α) (hdeferred : deferred = true) :
    Move deferred (.expecting k)
      { attempts := [v], accepted := [v] } (.handed (.waiting k v))
  | resume (k : κ) (v : Verdict α) :
    Move deferred (.expecting k)
      { attempts := [v], accepted := [v], delivered := [v], runs := [(k, v)] }
      (.handed (.running k v))
  /-- Nobody wants the outcome any more. -/
  | settleDetached (v : Verdict α) :
    Move deferred .detached
      { attempts := [v], accepted := [v], recycled := 1 } .idle
  | poll (w : Option Waker) (w' : Waker) :
    Move deferred (.pending w) { polled := [w'] } (.pending (some w'))
  | take (v : Verdict α) :
    Move deferred (.ready v)
      { delivered := [v], released := 1, recycled := 1 } .idle
  | register (w : Option Waker) (k : κ) :
    Move deferred (.pending w) { registered := [k] } (.expecting k)
  | registerReady (v : Verdict α) (k : κ) :
    Move deferred (.ready v)
      { registered := [k], delivered := [v], runs := [(k, v)] }
      (.handed (.running k v))
  | detach (w : Option Waker) :
    Move deferred (.pending w) { released := 1 } .detached
  | detachReady (v : Verdict α) :
    Move deferred (.ready v) { released := 1, recycled := 1 } .idle
  | start (k : κ) (v : Verdict α) :
    Move deferred (.handed (.waiting k v))
      { delivered := [v], runs := [(k, v)] } (.handed (.running k v))
  | discard (k : κ) (v : Verdict α) (hdeferred : deferred = true) :
    Move deferred (.handed (.waiting k v)) { discarded := 1 } (.handed .lost)
  | finish (k : κ) (v : Verdict α) :
    Move deferred (.handed (.running k v))
      { released := 1, recycled := 1 } .idle
  | fail (k : κ) (v : Verdict α) :
    Move deferred (.handed (.running k v)) .blank (.handed .lost)

/-- Books agree with a phase: every completer shows the generation of its lease, which is no later
    one, and the future and the continuation are where the phase has them. -/
structure Books.Agree {α κ : Type} (b : Books α κ) (p : Phase α κ) : Prop where
  passes : ∀ c ∈ b.completers, c.lease ≤ b.turn ∧ c.generation = generationOf c.lease
  futures : b.futures = p.futures b.turn
  waiting : b.waiting = p.waiting b.turn
  running : b.running = p.running b.turn

namespace Tenancy

variable {α κ : Type}

/-- The slot stands in the phase, the books agree, and nothing waits with a spawner that is not
    there. -/
structure Stands (t : Tenancy α κ) (p : Phase α κ) : Prop where
  slot : t.slot.Stands (generationOf t.turn) (t.live t.turn) p
  books : t.toBooks.Agree p
  deferred : ∀ k v, p = .handed (.waiting k v) → t.slot.deferred = true

/-- What an event does to a tenancy that stands in a phase: a move, if it belongs to the present
    lease, and otherwise nothing but that an outcome may be refused. -/
structure Advances (t : Tenancy α κ) (p : Phase α κ) (e : Event α κ) (p' : Phase α κ) : Prop where
  stands : (t.step e).state.Stands p'
  turn : (t.step e).state.turn = t.turn + (t.entry e).share.recycled
  present : (t.entry e).lease = t.turn → Move t.slot.deferred p (t.entry e).share p'
  bygone : (t.entry e).lease ≠ t.turn → p' = p ∧
    ∃ vs, (t.entry e).share = { attempts := vs } ∧
      (t.turn < (t.entry e).lease → vs = [])

variable {t : Tenancy α κ} {p p' : Phase α κ}

theorem new_stands (home : Home) (deferred : Bool) (observer : Observer) :
    (new home deferred observer : Tenancy α κ).Stands .idle where
  slot := Slot.new_stands home deferred observer
  books := ⟨fun _ hc => absurd hc List.not_mem_nil, rfl, rfl, rfl⟩
  deferred _ _ h := by cases h

/-- A recycled slot that goes home stands idle in its next turn. -/
theorem home_stands {s : Slot α κ} (hslot : s.Stands (generationOf t.turn + 1) 0 .idle)
    (hpasses : ∀ c ∈ t.completers, c.lease ≤ t.turn ∧ c.generation = generationOf c.lease)
    (hfutures : t.futures = []) (hwaiting : t.waiting = []) (hrunning : t.running = []) :
    Stands { t with turn := t.turn + 1, slot := s } .idle := by
  have hnone : Books.live { t.toBooks with turn := t.turn + 1 } (t.turn + 1) = 0 := by
    refine List.countP_eq_zero.mpr fun c hc => ?_
    have hle := (hpasses c hc).1
    simp
    omega
  refine ⟨?_, ⟨fun c hc => ?_, hfutures, hwaiting, hrunning⟩, fun _ _ h => by cases h⟩
  · rw [← generationOf_succ] at hslot
    rw [← hnone] at hslot
    exact hslot
  · exact ⟨Nat.le_succ_of_le (hpasses c hc).1, (hpasses c hc).2⟩

/-- Other completers of the leases that have some, and a slot that counts them. -/
theorem Stands.recount (h : t.Stands p) {s : Slot α κ} {cs : List Pass}
    (hslot : s.Stands (generationOf t.turn) (liveIn t.turn cs) p)
    (hcs : ∀ c ∈ cs, c ∈ t.completers) (hdeferred : s.deferred = t.slot.deferred) :
    Stands { t with completers := cs, slot := s } p where
  slot := hslot
  books :=
    { passes := fun c hc => h.books.passes c (hcs c hc)
      futures := h.books.futures
      waiting := h.books.waiting
      running := h.books.running }
  deferred k v hp := hdeferred.trans (h.deferred k v hp)

/-- When a completer of the present lease is on its way out, the slot counts one more than will be
    left. -/
theorem Stands.leaving (h : t.Stands p) {c : Pass} (hmem : c ∈ t.completers)
    (hc : c.lease = t.turn) :
    t.slot.Stands (generationOf t.turn) (liveIn t.turn (t.completers.erase c) + 1) p := by
  rw [← hc, ← liveIn_erase hmem, hc]
  exact h.slot

/-! ### From a step to a move -/

theorem advances_absent (h : t.Stands p) {lease : Nat} {a : Act α κ}
    (hstep : t.step (.act lease a) = t.reply .absent) : t.Advances p (.act lease a) p := by
  have hshare : (t.entry (.act lease a)).share = .blank := by
    simp only [entry, hstep]
    cases a <;> rfl
  refine ⟨?_, ?_, fun _ => ?_, fun _ => ⟨rfl, [], hshare, fun _ => rfl⟩⟩
  · rw [hstep]
    exact h
  · rw [hstep, hshare]
    rfl
  · rw [hshare]
    exact .stay p

theorem advances_present {a : Act α κ} {o : Step α κ} (hstep : t.step (.act t.turn a) = o)
    (hstands : o.state.Stands p') (hturn : o.state.turn = t.turn + o.answer.recycled.toNat)
    (hmove : Move t.slot.deferred p
      (Entry.share ⟨t.turn, some a, o.answer, o.effects, o.state.live t.turn⟩) p') :
    t.Advances p (.act t.turn a) p' := by
  subst hstep
  exact ⟨hstands, hturn, fun _ => hmove, fun hne => absurd rfl hne⟩

theorem advances_bygone {lease : Nat} (hlease : lease < t.turn) {a : Act α κ} {o : Step α κ}
    (hstep : t.step (.act lease a) = o) (hstands : o.state.Stands p)
    (hturn : o.state.turn = t.turn) (vs : List (Verdict α))
    (hshare : Entry.share ⟨lease, some a, o.answer, o.effects, o.state.live lease⟩
      = { attempts := vs }) : t.Advances p (.act lease a) p := by
  subst hstep
  have hentry : (t.entry (.act lease a)).share = { attempts := vs } := hshare
  refine ⟨hstands, ?_, fun heq => absurd heq (Nat.ne_of_lt hlease), fun _ => ⟨rfl, vs, hentry, ?_⟩⟩
  · rw [hturn, hentry]
    rfl
  · intro hlater
    exact absurd hlater (Nat.lt_asymm hlease)

/-- After an operation on the slot that does nothing else the tenancy goes on with the slot. -/
theorem onSlot_pure {β : Type} (b : β) (s : Slot α κ) (f : β → Tenancy α κ → Step α κ) :
    (t.onSlot (.pure b s)).andThen f = f b { t with slot := s } := rfl

/-! ### Finding handles -/

/-- Who acts for a completer of a lease: nobody, one of the present lease, or one of an earlier
    lease, which shows another generation than the slot's. -/
theorem Stands.completer_cases (h : t.Stands p) {lease : Nat}
    (htime : t.turn < lease + 4294967296) :
    (t.completers.find? (fun c => c.lease = lease) = none) ∨
    (lease = t.turn ∧ p ≠ .idle ∧ ⟨t.turn, generationOf t.turn⟩ ∈ t.completers ∧
      t.completers.find? (fun c => c.lease = lease) = some ⟨t.turn, generationOf t.turn⟩) ∨
    (lease < t.turn ∧ ∃ c ∈ t.completers, c.lease = lease ∧ t.slot.generation ≠ c.generation ∧
      t.completers.find? (fun c => c.lease = lease) = some c) := by
  cases hfind : t.completers.find? (fun c => c.lease = lease) with
  | none => exact Or.inl rfl
  | some c =>
    have hmem := List.mem_of_find?_eq_some hfind
    have hlease : c.lease = lease := by simpa using List.find?_some hfind
    obtain ⟨hle, hgeneration⟩ := h.books.passes c hmem
    rcases Nat.lt_or_eq_of_le hle with hlt | heq
    · refine Or.inr (Or.inr ⟨hlease ▸ hlt, c, hmem, hlease, ?_, rfl⟩)
      rw [h.slot.generation_eq, hgeneration]
      exact generationOf_ne hlt (hlease ▸ htime)
    · have hc : c = ⟨t.turn, generationOf t.turn⟩ := by
        obtain ⟨l, g⟩ := c
        simp only at heq hgeneration
        rw [hgeneration, heq]
      refine Or.inr (Or.inl ⟨hlease.symm.trans heq, ?_, hc ▸ hmem, congrArg some hc⟩)
      rintro rfl
      have hnone : t.live t.turn = 0 := h.slot.counted
      have hnot := List.countP_eq_zero.mp hnone c hmem
      simp [heq] at hnot

/-! ### Settling -/

/-- A step by which an outcome has settled a lease: the lease has moved, and its account has the
    outcome on it. -/
structure Settled (t : Tenancy α κ) (v : Verdict α) (a : Answer α) (p : Phase α κ)
    (o : Step α κ) (p' : Phase α κ) : Prop where
  stands : o.state.Stands p'
  turn : o.state.turn = t.turn + o.answer.recycled.toNat
  answer : o.answer.answer = a
  completers : o.state.completers = t.completers
  move : Move t.slot.deferred p (Account.ofSettling v o.answer o.effects) p'

/-- The outcome waits for the future. -/
theorem settled_ready {w : Option Waker} {s : Slot α κ} {v : Verdict α} (a : Answer α)
    (hbooks : t.toBooks.Agree (.pending w))
    (hs : s.Stands (generationOf t.turn) (t.live t.turn) (.ready v)) :
    t.Settled v a (.pending w) ⟨⟨a, none, false⟩, { t with slot := s }, w.toList.map .woken⟩
      (.ready v) := by
  refine ⟨⟨hs, ?_, fun _ _ h => by cases h⟩, rfl, rfl, rfl, ?_⟩
  · exact ⟨hbooks.passes, hbooks.futures, hbooks.waiting, hbooks.running⟩
  · cases w with
    | none => exact .settle none v
    | some w => exact .settle (some w) v

/-- The continuation waits with the spawner. -/
theorem settled_waiting {k : κ} {s : Slot α κ} {v : Verdict α} (a : Answer α)
    (hbooks : t.toBooks.Agree (.expecting k))
    (hs : s.Stands (generationOf t.turn) (t.live t.turn) (.handed (.waiting k v)))
    (halike : s.deferred = t.slot.deferred) (hdeferred : t.slot.deferred = true) :
    t.Settled v a (.expecting k)
      ⟨⟨a, none, false⟩, { t with slot := s, waiting := ⟨t.turn, k, v⟩ :: t.waiting }, []⟩
      (.handed (.waiting k v)) := by
  have hwaiting : ⟨t.turn, k, v⟩ :: t.waiting
      = (Phase.handed (.waiting k v)).waiting t.turn := by
    rw [hbooks.waiting]
    rfl
  refine ⟨⟨hs, ?_, fun _ _ _ => halike.trans hdeferred⟩, rfl, rfl, rfl, .defer k v hdeferred⟩
  exact ⟨hbooks.passes, hbooks.futures, hwaiting, hbooks.running⟩

/-- The continuation runs. -/
theorem settled_running {k : κ} {s : Slot α κ} {v : Verdict α} (a : Answer α)
    (hbooks : t.toBooks.Agree (.expecting k))
    (hs : s.Stands (generationOf t.turn) (t.live t.turn) (.handed (.running k v))) :
    t.Settled v a (.expecting k)
      ⟨⟨a, some ⟨t.turn, k, v⟩, false⟩,
        { t with slot := s, running := ⟨t.turn, k, v⟩ :: t.running }, []⟩
      (.handed (.running k v)) := by
  have hrunning : ⟨t.turn, k, v⟩ :: t.running
      = (Phase.handed (.running k v)).running t.turn := by
    rw [hbooks.running]
    rfl
  refine ⟨⟨hs, ?_, fun _ _ h => by cases h⟩, rfl, rfl, rfl, .resume k v⟩
  exact ⟨hbooks.passes, hbooks.futures, hbooks.waiting, hrunning⟩

/-- The slot goes home, since nobody waits for the outcome. -/
theorem settled_home {s : Slot α κ} {v : Verdict α} (a : Answer α)
    (hbooks : t.toBooks.Agree .detached) (hs : s.Stands (generationOf t.turn + 1) 0 .idle) :
    t.Settled v a .detached (goHome { t with slot := s } a) .idle := by
  have hwakes : Effect.wakes s.homecoming = [] := by
    rw [Slot.homecoming]
    split <;> rfl
  refine ⟨home_stands hs hbooks.passes hbooks.futures hbooks.waiting hbooks.running, rfl, rfl,
    rfl, ?_⟩
  rw [goHome, Account.ofSettling, hwakes]
  exact .settleDetached v

/-- **An outcome that settles the slot settles the lease**, whatever it finds there. -/
theorem follow_settles {v : Verdict α} {o : Outcome (Sequel α κ) (Slot α κ)}
    (hbooks : t.toBooks.Agree p)
    (ho : Slot.Settles (generationOf t.turn) (t.live t.turn) v p o)
    (hdeferred : o.state.deferred = t.slot.deferred) (a : Answer α) :
    ∃ p', t.Settled v a p ((t.onSlot o).andThen fun next t => t.follow a true next) p' := by
  cases ho with
  | @pending w s' hs =>
    have hout : ((t.onSlot ⟨.nothing, s', w.toList.map .woken⟩).andThen
        fun next t => t.follow a true next)
          = ⟨⟨a, none, false⟩, { t with slot := s' }, w.toList.map .woken⟩ := by
      simp [onSlot, follow, reply, Outcome.andThen, Outcome.lift, Outcome.pure]
    exact ⟨.ready v, hout ▸ settled_ready a hbooks hs⟩
  | @expecting k s' hs =>
    cases hd : t.slot.deferred with
    | true =>
      have hout : ((t.onSlot ⟨.resume k v, s', []⟩).andThen fun next t => t.follow a true next)
          = ⟨⟨a, none, false⟩,
              { t with slot := s', waiting := ⟨t.turn, k, v⟩ :: t.waiting }, []⟩ := by
        have hs' : s'.deferred = true := hdeferred.trans hd
        simp [onSlot, follow, reply, Outcome.andThen, Outcome.lift, Outcome.pure, hs']
      exact ⟨.handed (.waiting k v), hout ▸ settled_waiting a hbooks (hs _) hdeferred hd⟩
    | false =>
      have hout : ((t.onSlot ⟨.resume k v, s', []⟩).andThen fun next t => t.follow a true next)
          = ⟨⟨a, some ⟨t.turn, k, v⟩, false⟩,
              { t with slot := s', running := ⟨t.turn, k, v⟩ :: t.running }, []⟩ := by
        have hs' : s'.deferred = false := hdeferred.trans hd
        simp [onSlot, follow, begin, Outcome.andThen, Outcome.lift, Outcome.pure, hs']
      exact ⟨.handed (.running k v), hout ▸ settled_running a hbooks (hs _)⟩
  | @detached s' hs => exact ⟨.idle, settled_home a hbooks hs⟩

/-! ### Completers -/

theorem step_completer {use : Pass → Step α κ} {lease : Nat} {c : Pass}
    (hfind : t.completers.find? (fun c => c.lease = lease) = some c) :
    t.withCompleter lease use = use c := by
  rw [withCompleter, hfind]

theorem step_no_completer {use : Pass → Step α κ} {lease : Nat}
    (hfind : t.completers.find? (fun c => c.lease = lease) = none) :
    t.withCompleter lease use = t.reply .absent := by
  rw [withCompleter, hfind]

theorem share_complete (lease : Nat) (v : Verdict α) {r : Receipt α κ} (hr : r.answer = .accepted)
    (effects : List Effect) (left : Nat) :
    Entry.share ⟨lease, some (.complete v), r, effects, left⟩
      = Account.ofSettling v r effects := by
  obtain ⟨a, begun, recycled⟩ := r
  subst hr
  rfl

theorem share_abandon (lease : Nat) {r : Receipt α κ} (hr : r.answer = .nothing) (o : Observer)
    (effects : List Effect) :
    Entry.share ⟨lease, some .drop, r, .reported o .futureAbandoned :: effects, 0⟩
      = Account.ofSettling (.error .abandoned) r effects := by
  obtain ⟨a, begun, recycled⟩ := r
  subst hr
  rfl

/-- A completer that goes away without more ado offers an outcome if it is the last one. -/
theorem share_drop (lease left : Nat) :
    Entry.share (α := α) (κ := κ) ⟨lease, some .drop, ⟨.nothing, none, false⟩, [], left⟩
      = { attempts := if left = 0 then [.error .abandoned] else [] } := by
  simp only [Entry.share, Entry.attempt?]
  split <;> rfl

/-- A refused completion leaves everything as it is. -/
theorem step_refused {lease : Nat} {c : Pass} (v : Verdict α)
    (hfind : t.completers.find? (fun c => c.lease = lease) = some c)
    (hsettled : t.slot.isSettled c.generation = true) :
    t.step (.act lease (.complete v))
      = ⟨⟨.rejected ⟨v⟩, none, false⟩, t, [.reported t.slot.observer .doubleCompletion]⟩ := by
  rw [step, step_completer hfind, Slot.complete_refused hsettled]
  rfl

/-- A completer of an earlier lease is copied without the slot. -/
theorem step_stale_clone {lease : Nat} {c : Pass}
    (hfind : t.completers.find? (fun c => c.lease = lease) = some c)
    (hne : t.slot.generation ≠ c.generation) :
    t.step (.act lease .clone)
      = Tenancy.reply { t with completers := c :: t.completers } .nothing := by
  rw [step, step_completer hfind, Slot.enlist_of_ne hne]
  rfl

theorem step_stale_drop {lease : Nat} {c : Pass}
    (hfind : t.completers.find? (fun c => c.lease = lease) = some c)
    (hne : t.slot.generation ≠ c.generation) :
    t.step (.act lease .drop)
      = Tenancy.reply { t with completers := t.completers.erase c } .nothing := by
  rw [step, step_completer hfind, Slot.dismiss_of_ne hne]
  rfl

theorem step_stale_isSettled {lease : Nat} {c : Pass}
    (hfind : t.completers.find? (fun c => c.lease = lease) = some c)
    (hne : t.slot.generation ≠ c.generation) :
    t.step (.act lease .isSettled) = t.reply (.truth true) := by
  rw [step, step_completer hfind, Slot.isSettled_of_ne hne]

theorem complete_advances (h : t.Stands p) {lease : Nat} (htime : t.turn < lease + 4294967296)
    (v : Verdict α) : ∃ p', t.Advances p (.act lease (.complete v)) p' := by
  rcases h.completer_cases htime with hnone | ⟨rfl, hp, _, hfind⟩ | ⟨hlt, c, _, _, hne, hfind⟩
  · refine ⟨p, advances_absent h ?_⟩
    rw [step, step_no_completer hnone]
  · by_cases hopen : p.isOpen = true
    · obtain ⟨o, ho, hout⟩ := Slot.complete_open h.slot hopen v
      have halike := Slot.complete_alike t.slot (generationOf t.turn) v
      rw [hout] at halike
      have hstep : t.step (.act t.turn (.complete v))
          = (t.onSlot o).andThen fun next t => t.follow .accepted true next := by
        rw [step, step_completer hfind, hout]
        rfl
      obtain ⟨p', hsettled⟩ := follow_settles h.books ho halike.deferred .accepted
      refine ⟨p', advances_present hstep hsettled.stands hsettled.turn ?_⟩
      rw [share_complete _ v hsettled.answer]
      exact hsettled.move
    · have hclosed : p.isOpen = false := Bool.eq_false_iff.mpr hopen
      have hsettled : t.slot.isSettled (generationOf t.turn) = true := by
        rw [h.slot.isSettled_eq hp, hclosed]
        rfl
      exact ⟨p, advances_present (step_refused v hfind hsettled) h rfl (.refuse p v hclosed hp)⟩
  · have hsettled := Slot.isSettled_of_ne hne
    exact ⟨p, advances_bygone hlt (step_refused v hfind hsettled) h rfl [v] rfl⟩

theorem clone_advances (h : t.Stands p) {lease : Nat} (htime : t.turn < lease + 4294967296) :
    t.Advances p (.act lease .clone) p := by
  rcases h.completer_cases htime with
    hnone | ⟨rfl, hp, hmem, hfind⟩ | ⟨hlt, c, hmem, rfl, hne, hfind⟩
  · refine advances_absent h ?_
    rw [step, step_no_completer hnone]
  · have halike := Slot.enlist_alike t.slot (generationOf t.turn) 1
    rcases Slot.enlist_one h.slot hp with ⟨_, s', hout, hs'⟩ | ⟨_, hout⟩
    · rw [hout] at halike
      have hstep : t.step (.act t.turn .clone)
          = .pure ⟨.nothing, none, false⟩
              { t with
                slot := s', completers := ⟨t.turn, generationOf t.turn⟩ :: t.completers } := by
        rw [step, step_completer hfind, hout]
        rfl
      refine advances_present hstep (h.recount ?_ ?_ halike.deferred) rfl (.stay p)
      · rw [liveIn_cons, if_pos rfl]
        exact hs'
      · exact List.forall_mem_cons.mpr ⟨hmem, fun _ hc => hc⟩
    · have hstep : t.step (.act t.turn .clone)
          = .pure ⟨.panic .tooManyCompleters, none, false⟩ t := by
        rw [step, step_completer hfind, hout]
        rfl
      exact advances_present hstep h rfl (.stay p)
  · refine advances_bygone hlt (step_stale_clone hfind hne) (h.recount ?_ ?_ rfl) rfl [] rfl
    · rw [liveIn_cons, if_neg (Nat.ne_of_lt hlt)]
      exact h.slot
    · exact List.forall_mem_cons.mpr ⟨hmem, fun _ hc => hc⟩

/-- The last completer of an open lease abandons it. -/
theorem drop_last (h : t.Stands p) (hopen : p.isOpen = true)
    (hmem : ⟨t.turn, generationOf t.turn⟩ ∈ t.completers)
    (hfind : t.completers.find? (fun c => c.lease = t.turn)
      = some ⟨t.turn, generationOf t.turn⟩)
    (hlast : liveIn t.turn (t.completers.erase ⟨t.turn, generationOf t.turn⟩) = 0) :
    ∃ p', t.Advances p (.act t.turn .drop) p' := by
  let u : Tenancy α κ :=
    { t with completers := t.completers.erase ⟨t.turn, generationOf t.turn⟩ }
  have hslot := h.leaving hmem rfl
  rw [hlast] at hslot
  obtain ⟨o, ho, hout⟩ := Slot.dismiss_last hslot hopen
  rw [← hlast] at ho
  have halike := Slot.dismiss_alike t.slot (generationOf t.turn)
  rw [hout] at halike
  have hbooks : u.toBooks.Agree p :=
    ⟨fun c hc => h.books.passes c (List.mem_of_mem_erase hc), h.books.futures, h.books.waiting,
      h.books.running⟩
  obtain ⟨p', hsettled⟩ := follow_settles (t := u) hbooks ho halike.deferred .nothing
  let r := (u.onSlot o).andThen fun next t => t.follow .nothing true next
  have hstep : t.step (.act t.turn .drop)
      = ⟨r.answer, r.state, .reported t.slot.observer .futureAbandoned :: r.effects⟩ := by
    rw [step, step_completer hfind, hout]
    rfl
  have hleft : r.state.live t.turn = 0 := by
    rw [Books.live, hsettled.completers]
    exact hlast
  refine ⟨p', advances_present hstep hsettled.stands hsettled.turn ?_⟩
  simp only [hleft]
  rw [share_abandon _ hsettled.answer]
  exact hsettled.move

/-- A completer that goes away moves nothing while others are left, nor once the lease is settled.
    In the second case it may have been the last one, and comes too late to abandon the lease. -/
theorem drop_kept (h : t.Stands p) (hp : p ≠ .idle)
    (hmem : ⟨t.turn, generationOf t.turn⟩ ∈ t.completers)
    (hfind : t.completers.find? (fun c => c.lease = t.turn)
      = some ⟨t.turn, generationOf t.turn⟩)
    (hkept : p.isOpen = true →
      0 < liveIn t.turn (t.completers.erase ⟨t.turn, generationOf t.turn⟩)) :
    t.Advances p (.act t.turn .drop) p := by
  let left := liveIn t.turn (t.completers.erase ⟨t.turn, generationOf t.turn⟩)
  have hcounts : p.Counts left := by
    cases p with
    | idle => exact absurd rfl hp
    | ready v => trivial
    | handed x => trivial
    | _ => exact hkept rfl
  obtain ⟨s', hout, hs'⟩ := Slot.dismiss_kept (h.leaving hmem rfl) hcounts hp
  have halike := Slot.dismiss_alike t.slot (generationOf t.turn)
  rw [hout] at halike
  have hstep : t.step (.act t.turn .drop)
      = .pure ⟨.nothing, none, false⟩
          { t with
            completers := t.completers.erase ⟨t.turn, generationOf t.turn⟩, slot := s' } := by
    rw [step, step_completer hfind, hout]
    rfl
  have hstands := h.recount hs' (fun c hc => List.mem_of_mem_erase hc) halike.deferred
  refine advances_present hstep hstands rfl ?_
  have hshare := share_drop (α := α) (κ := κ) t.turn left
  by_cases hzero : left = 0
  · have hclosed : p.isOpen = false :=
      Bool.eq_false_iff.mpr fun hopen => Nat.ne_of_gt (hkept hopen) hzero
    rw [if_pos hzero] at hshare
    exact hshare ▸ .refuse p _ hclosed hp
  · rw [if_neg hzero] at hshare
    exact hshare ▸ .stay p

theorem drop_advances (h : t.Stands p) {lease : Nat} (htime : t.turn < lease + 4294967296) :
    ∃ p', t.Advances p (.act lease .drop) p' := by
  rcases h.completer_cases htime with
    hnone | ⟨rfl, hp, hmem, hfind⟩ | ⟨hlt, c, hmem, rfl, hne, hfind⟩
  · refine ⟨p, advances_absent h ?_⟩
    rw [step, step_no_completer hnone]
  · by_cases hlast : p.isOpen = true ∧
        liveIn t.turn (t.completers.erase ⟨t.turn, generationOf t.turn⟩) = 0
    · exact drop_last h hlast.1 hmem hfind hlast.2
    · refine ⟨p, drop_kept h hp hmem hfind fun hopen => ?_⟩
      exact Nat.pos_of_ne_zero fun hzero => hlast ⟨hopen, hzero⟩
  · have hslot : t.slot.Stands (generationOf t.turn) (liveIn t.turn (t.completers.erase c)) p := by
      rw [liveIn_erase_ne hmem (Nat.ne_of_lt hlt)]
      exact h.slot
    have hstands := h.recount hslot (fun c hc => List.mem_of_mem_erase hc) rfl
    exact ⟨p, advances_bygone hlt (step_stale_drop hfind hne) hstands rfl _ (share_drop _ _)⟩

theorem isSettled_advances (h : t.Stands p) {lease : Nat} (htime : t.turn < lease + 4294967296) :
    t.Advances p (.act lease .isSettled) p := by
  rcases h.completer_cases htime with
    hnone | ⟨rfl, _, _, hfind⟩ | ⟨hlt, c, _, rfl, hne, hfind⟩
  · refine advances_absent h ?_
    rw [step, step_no_completer hnone]
  · have hstep : t.step (.act t.turn .isSettled)
        = t.reply (.truth (t.slot.isSettled (generationOf t.turn))) := by
      rw [step, step_completer hfind]
    exact advances_present hstep h rfl (.stay p)
  · exact advances_bygone hlt (step_stale_isSettled hfind hne) h rfl [] rfl

/-! ### Futures -/

/-- Who acts for a future of a lease: nobody, or the one of the present lease, while it waits or
    once the outcome is there. -/
theorem Stands.future_cases (h : t.Stands p) (lease : Nat) :
    lease ∉ t.futures ∨
    (lease = t.turn ∧ lease ∈ t.futures ∧ t.futures.erase lease = [] ∧
      ((∃ w, p = .pending w) ∨ ∃ v, p = .ready v)) := by
  rw [h.books.futures]
  cases p with
  | pending w => by_cases heq : lease = t.turn <;> simp [Phase.futures, heq]
  | ready v => by_cases heq : lease = t.turn <;> simp [Phase.futures, heq]
  | _ => exact Or.inl List.not_mem_nil

theorem step_future {use : Step α κ} {lease : Nat} (h : lease ∈ t.futures) :
    t.withFuture lease use = use := if_pos h

theorem step_no_future {use : Step α κ} {lease : Nat} (h : lease ∉ t.futures) :
    t.withFuture lease use = t.reply .absent := if_neg h

/-- Nobody is woken by a slot that goes home, and nothing is reported. -/
theorem share_home (lease : Nat) (a : Act α κ) (r : Receipt α κ) (s : Slot α κ) (left : Nat) :
    Entry.share ⟨lease, some a, r, s.homecoming, left⟩
      = Entry.share ⟨lease, some a, r, [], left⟩ := by
  rw [Slot.homecoming]
  split
  · cases a <;> rfl
  · rfl

/-- A future that takes the outcome ends the lease. -/
theorem take_advances (h : t.Stands p) {v : Verdict α} (hp : p = .ready v)
    (hfuture : t.futures.erase t.turn = []) {a : Act α κ}
    (hstep : t.step (.act t.turn a)
      = goHome { t with futures := t.futures.erase t.turn, slot := t.slot.recycle } (.verdict v))
    (ha : (∃ w, a = .poll w) ∨ a = .tryResult) : t.Advances p (.act t.turn a) .idle := by
  subst hp
  have hslot := Slot.recycle_stands (s := t.slot) h.slot.generation_eq
  have hstands := home_stands (t := { t with futures := t.futures.erase t.turn }) hslot
    h.books.passes hfuture h.books.waiting h.books.running
  refine advances_present hstep hstands rfl ?_
  have hshare := share_home t.turn a ⟨.verdict v, none, true⟩ t.slot.recycle
    (liveIn t.turn t.completers)
  refine hshare ▸ ?_
  rcases ha with ⟨w, rfl⟩ | rfl
  · exact .take v
  · exact .take v

theorem poll_advances (h : t.Stands p) (lease : Nat) (w : Waker) :
    ∃ p', t.Advances p (.act lease (.poll w)) p' := by
  rcases h.future_cases lease with hnone | ⟨rfl, hmem, herase, ⟨w', rfl⟩ | ⟨v, rfl⟩⟩
  · refine ⟨p, advances_absent h ?_⟩
    rw [step, step_no_future hnone]
  · obtain ⟨s', hout, hs'⟩ := Slot.poll_pending h.slot w
    have hstep : t.step (.act t.turn (.poll w))
        = .pure ⟨.pending, none, false⟩ { t with slot := s' } := by
      rw [step, step_future hmem, hout]
      rfl
    refine ⟨.pending (some w), advances_present hstep ⟨hs', ?_, fun _ _ h => by cases h⟩ rfl
      (.poll w' w)⟩
    exact ⟨h.books.passes, h.books.futures, h.books.waiting, h.books.running⟩
  · refine ⟨.idle, take_advances h rfl herase ?_ (Or.inl ⟨w, rfl⟩)⟩
    rw [step, step_future hmem, Slot.poll_ready h.slot, onSlot_pure, received]

theorem tryResult_advances (h : t.Stands p) (lease : Nat) :
    ∃ p', t.Advances p (.act lease .tryResult) p' := by
  rcases h.future_cases lease with hnone | ⟨rfl, hmem, herase, ⟨w', rfl⟩ | ⟨v, rfl⟩⟩
  · refine ⟨p, advances_absent h ?_⟩
    rw [step, step_no_future hnone]
  · have hstep : t.step (.act t.turn .tryResult) = t.reply .nothing := by
      rw [step, step_future hmem, Slot.take_pending h.slot]
      rfl
    exact ⟨.pending w', advances_present hstep h rfl (.stay _)⟩
  · refine ⟨.idle, take_advances h rfl herase ?_ (Or.inr rfl)⟩
    rw [step, step_future hmem, Slot.take_ready h.slot, onSlot_pure, received]

theorem register_advances (h : t.Stands p) (lease : Nat) (k : κ) :
    ∃ p', t.Advances p (.act lease (.register k)) p' := by
  rcases h.future_cases lease with hnone | ⟨rfl, hmem, herase, ⟨w, rfl⟩ | ⟨v, rfl⟩⟩
  · refine ⟨p, advances_absent h ?_⟩
    rw [step, step_no_future hnone]
  · obtain ⟨s', hout, hs'⟩ := Slot.register_pending h.slot k
    have hstep : t.step (.act t.turn (.register k))
        = .pure ⟨.nothing, none, false⟩
            { t with futures := t.futures.erase t.turn, slot := s' } := by
      rw [step, step_future hmem, hout]
      rfl
    refine ⟨.expecting k, advances_present hstep ⟨hs', ?_, fun _ _ h => by cases h⟩ rfl
      (.register w k)⟩
    exact ⟨h.books.passes, herase, h.books.waiting, h.books.running⟩
  · obtain ⟨s', hout, hs'⟩ := Slot.register_ready h.slot k
    have hstep : t.step (.act t.turn (.register k))
        = .pure ⟨.nothing, some ⟨t.turn, k, v⟩, false⟩
            { t with
              futures := t.futures.erase t.turn
              running := ⟨t.turn, k, v⟩ :: t.running
              slot := s' } := by
      rw [step, step_future hmem, hout]
      rfl
    have hrunning : ⟨t.turn, k, v⟩ :: t.running
        = (Phase.handed (.running k v)).running t.turn := by
      rw [h.books.running]
      rfl
    refine ⟨_, advances_present hstep ⟨hs' _, ?_, fun _ _ h => by cases h⟩ rfl
      (Move.registerReady v k)⟩
    exact ⟨h.books.passes, herase, h.books.waiting, hrunning⟩

theorem detach_advances (h : t.Stands p) (lease : Nat) :
    ∃ p', t.Advances p (.act lease .detach) p' := by
  rcases h.future_cases lease with hnone | ⟨rfl, hmem, herase, ⟨w, rfl⟩ | ⟨v, rfl⟩⟩
  · refine ⟨p, advances_absent h ?_⟩
    rw [step, step_no_future hnone]
  · obtain ⟨s', hout, hs'⟩ := Slot.detach_pending h.slot
    have hstep : t.step (.act t.turn .detach)
        = .pure ⟨.nothing, none, false⟩
            { t with futures := t.futures.erase t.turn, slot := s' } := by
      rw [step, step_future hmem, hout]
      rfl
    refine ⟨.detached, advances_present hstep ⟨hs', ?_, fun _ _ h => by cases h⟩ rfl (.detach w)⟩
    exact ⟨h.books.passes, herase, h.books.waiting, h.books.running⟩
  · obtain ⟨s', hout, hs'⟩ := Slot.detach_ready h.slot
    have hstep : t.step (.act t.turn .detach)
        = goHome { t with futures := t.futures.erase t.turn, slot := s' } .nothing := by
      rw [step, step_future hmem, hout]
      rfl
    have hstands := home_stands (t := { t with futures := t.futures.erase t.turn }) hs'
      h.books.passes herase h.books.waiting h.books.running
    refine ⟨.idle, advances_present hstep hstands rfl ?_⟩
    have hshare := share_home t.turn .detach ⟨.nothing, none, true⟩ s' (liveIn t.turn t.completers)
    exact hshare ▸ .detachReady v

/-! ### Continuations -/

/-- Which continuation waits for a lease: none, or the one that the phase has. -/
theorem Stands.waiting_cases (h : t.Stands p) (lease : Nat) :
    (t.waiting.find? (fun j => j.lease = lease) = none) ∨
    (lease = t.turn ∧ ∃ k v, p = .handed (.waiting k v) ∧
      t.waiting.find? (fun j => j.lease = lease) = some ⟨t.turn, k, v⟩ ∧
      t.waiting.eraseP (fun j => j.lease = lease) = []) := by
  rw [h.books.waiting]
  match p with
  | .handed (.waiting k v) => by_cases heq : t.turn = lease <;> simp [Phase.waiting, heq]
  | .handed (.running k v) => exact Or.inl rfl
  | .handed .lost => exact Or.inl rfl
  | .idle | .pending _ | .ready _ | .expecting _ | .detached => exact Or.inl rfl

/-- Which continuation of a lease runs: none, or the one that the phase has. -/
theorem Stands.running_cases (h : t.Stands p) (lease : Nat) :
    (t.running.find? (fun j => j.lease = lease) = none) ∨
    (lease = t.turn ∧ ∃ k v, p = .handed (.running k v) ∧
      t.running.find? (fun j => j.lease = lease) = some ⟨t.turn, k, v⟩ ∧
      t.running.eraseP (fun j => j.lease = lease) = []) := by
  rw [h.books.running]
  match p with
  | .handed (.running k v) => by_cases heq : t.turn = lease <;> simp [Phase.running, heq]
  | .handed (.waiting k v) => exact Or.inl rfl
  | .handed .lost => exact Or.inl rfl
  | .idle | .pending _ | .ready _ | .expecting _ | .detached => exact Or.inl rfl

theorem step_due {use : Due α κ → Step α κ} {jobs : List (Due α κ)} {lease : Nat} {j : Due α κ}
    (hfind : jobs.find? (fun j => j.lease = lease) = some j) :
    t.withDue jobs lease use = use j := by
  rw [withDue, hfind]

theorem step_no_due {use : Due α κ → Step α κ} {jobs : List (Due α κ)} {lease : Nat}
    (hfind : jobs.find? (fun j => j.lease = lease) = none) :
    t.withDue jobs lease use = t.reply .absent := by
  rw [withDue, hfind]

/-- What a continuation is does not matter to the slot once it has its outcome. -/
theorem Stands.handed (h : t.Stands (.handed x)) (y : Handover α κ) :
    t.slot.Stands (generationOf t.turn) (t.live t.turn) (.handed y) :=
  ⟨h.slot.word, h.slot.value, h.slot.continuation, trivial, trivial⟩

theorem start_advances (h : t.Stands p) (lease : Nat) :
    ∃ p', t.Advances p (.act lease .start) p' := by
  rcases h.waiting_cases lease with hnone | ⟨rfl, k, v, rfl, hfind, herase⟩
  · refine ⟨p, advances_absent h ?_⟩
    rw [step, step_no_due hnone]
  · have hstep : t.step (.act t.turn .start)
        = .pure ⟨.nothing, some ⟨t.turn, k, v⟩, false⟩
            { t with
              waiting := t.waiting.eraseP (fun j => j.lease = t.turn)
              running := ⟨t.turn, k, v⟩ :: t.running } := by
      rw [step, step_due hfind]
      rfl
    refine ⟨.handed (.running k v), advances_present hstep ⟨h.handed _, ?_, ?_⟩ rfl (.start k v)⟩
    · refine ⟨h.books.passes, h.books.futures, herase, ?_⟩
      show _ :: t.running = _
      rw [h.books.running]
      rfl
    · intro _ _ hp
      cases hp

theorem discard_advances (h : t.Stands p) (lease : Nat) :
    ∃ p', t.Advances p (.act lease .discard) p' := by
  rcases h.waiting_cases lease with hnone | ⟨rfl, k, v, rfl, hfind, herase⟩
  · refine ⟨p, advances_absent h ?_⟩
    rw [step, step_no_due hnone]
  · have hstep : t.step (.act t.turn .discard)
        = .pure ⟨.nothing, none, false⟩
            { t with waiting := t.waiting.eraseP (fun j => j.lease = t.turn) } := by
      rw [step, step_due hfind]
      rfl
    refine ⟨.handed .lost, advances_present hstep ⟨h.handed _, ?_, ?_⟩ rfl
      (.discard k v (h.deferred k v rfl))⟩
    · exact ⟨h.books.passes, h.books.futures, herase, h.books.running⟩
    · intro _ _ hp
      cases hp

theorem fail_advances (h : t.Stands p) (lease : Nat) :
    ∃ p', t.Advances p (.act lease .fail) p' := by
  rcases h.running_cases lease with hnone | ⟨rfl, k, v, rfl, hfind, herase⟩
  · refine ⟨p, advances_absent h ?_⟩
    rw [step, step_no_due hnone]
  · have hstep : t.step (.act t.turn .fail)
        = .pure ⟨.panic .continuationFailed, none, false⟩
            { t with running := t.running.eraseP (fun j => j.lease = t.turn) } := by
      rw [step, step_due hfind]
      rfl
    refine ⟨.handed .lost, advances_present hstep ⟨h.handed _, ?_, ?_⟩ rfl (.fail k v)⟩
    · exact ⟨h.books.passes, h.books.futures, h.books.waiting, herase⟩
    · intro _ _ hp
      cases hp

theorem finish_advances (h : t.Stands p) (lease : Nat) :
    ∃ p', t.Advances p (.act lease .finish) p' := by
  rcases h.running_cases lease with hnone | ⟨rfl, k, v, rfl, hfind, herase⟩
  · refine ⟨p, advances_absent h ?_⟩
    rw [step, step_no_due hnone]
  · have hstep : t.step (.act t.turn .finish)
        = goHome
            { t with
              running := t.running.eraseP (fun j => j.lease = t.turn), slot := t.slot.recycle }
            .nothing := by
      rw [step, step_due hfind]
    have hslot := Slot.recycle_stands (s := t.slot) h.slot.generation_eq
    have hstands := home_stands
      (t := { t with running := t.running.eraseP (fun j => j.lease = t.turn) }) hslot
      h.books.passes h.books.futures h.books.waiting herase
    refine ⟨.idle, advances_present hstep hstands rfl ?_⟩
    have hshare := share_home t.turn .finish ⟨.nothing, none, true⟩ t.slot.recycle
      (liveIn t.turn t.completers)
    exact hshare ▸ .finish k v

/-! ### Beginning -/

/-- An idle slot can be leased. -/
theorem step_lease_idle (h : t.Stands .idle) :
    ∃ s', t.step .lease
        = .pure ⟨.nothing, none, false⟩
            { t with toBooks := t.toBooks.sign (generationOf t.turn), slot := s' } ∧
      s'.Stands (generationOf t.turn) 1 (.pending none) := by
  obtain ⟨s', hout, hs'⟩ := Slot.lease_idle h.slot
  refine ⟨s', ?_, hs'⟩
  rw [step, hout]
  rfl

/-- A slot that is on lease refuses another, and nothing changes. -/
theorem step_lease_busy (h : t.Stands p) (hp : p ≠ .idle) :
    t.step .lease = t.reply (.panic (.slotInUse t.slot.word.debug)) := by
  rw [step, Slot.lease_busy h.slot hp]
  rfl

/-- A slot whose lease has just begun. -/
theorem Stands.sign (h : t.Stands .idle) {s' : Slot α κ}
    (hs' : s'.Stands (generationOf t.turn) 1 (.pending none)) :
    Stands { t with toBooks := t.toBooks.sign (generationOf t.turn), slot := s' }
      (.pending none) := by
  have hlive : liveIn t.turn (⟨t.turn, generationOf t.turn⟩ :: t.completers) = 1 := by
    have hnone : liveIn t.turn t.completers = 0 := h.slot.counted
    rw [liveIn_cons, hnone, if_pos rfl]
  refine ⟨?_, ⟨?_, ?_, h.books.waiting, h.books.running⟩, fun _ _ h => by cases h⟩
  · show s'.Stands _ (liveIn t.turn (⟨t.turn, generationOf t.turn⟩ :: t.completers)) _
    rw [hlive]
    exact hs'
  · exact List.forall_mem_cons.mpr ⟨⟨Nat.le_refl _, rfl⟩, h.books.passes⟩
  · show t.turn :: t.futures = _
    rw [h.books.futures]
    rfl

theorem lease_advances (h : t.Stands p) : ∃ p', t.Advances p .lease p' := by
  by_cases hp : p = .idle
  · subst hp
    obtain ⟨s', hstep, hs'⟩ := step_lease_idle h
    refine ⟨.pending none, ⟨?_, ?_, fun _ => ?_, fun hne => absurd rfl hne⟩⟩
    · rw [hstep]
      exact h.sign hs'
    · simp only [entry, hstep]
      rfl
    · simp only [entry, hstep]
      exact .sign
  · refine ⟨p, ⟨?_, ?_, fun _ => ?_, fun hne => absurd rfl hne⟩⟩
    · rw [step_lease_busy h hp]
      exact h
    · simp only [entry, step_lease_busy h hp]
      rfl
    · simp only [entry, step_lease_busy h hp]
      exact .stay p

/-! ### Steps -/

/-- **Whatever happens to a tenancy that stands in a phase is a move of its lease**, or it is of
    another lease and moves nothing. -/
theorem step_advances (h : t.Stands p) {e : Event α κ} (htime : t.InTime e) :
    ∃ p', t.Advances p e p' := by
  match e with
  | .lease => exact lease_advances h
  | .act lease (.complete v) => exact complete_advances h (htime rfl) v
  | .act lease .clone => exact ⟨p, clone_advances h (htime rfl)⟩
  | .act lease .drop => exact drop_advances h (htime rfl)
  | .act lease .isSettled => exact ⟨p, isSettled_advances h (htime rfl)⟩
  | .act lease (.poll w) => exact poll_advances h lease w
  | .act lease .tryResult => exact tryResult_advances h lease
  | .act lease (.register k) => exact register_advances h lease k
  | .act lease .detach => exact detach_advances h lease
  | .act lease .start => exact start_advances h lease
  | .act lease .finish => exact finish_advances h lease
  | .act lease .fail => exact fail_advances h lease
  | .act lease .discard => exact discard_advances h lease

end Tenancy

end Conduit.Lease

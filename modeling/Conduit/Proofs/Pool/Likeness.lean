/-
  Conduit/Proofs/Pool/Likeness.lean
  =================================
  **A pool of likenesses.**

  A map of items is a likeness if items and their images are lent, reset, made, changed
  and shown alike.  A session with the images of a pool's items then answers as the
  session with the items does, and keeps being its image.

  An item in a box, or in a box in a box, is a likeness of the item itself.
-/
import Conduit.Proofs.Pool.Calm

namespace Conduit.Pool

/-! ### Images -/

section Images

variable {α β γ : Type} (f : α → β) (g : β → γ)

def Hold.image : Hold α → Hold β
  | .bare a => .bare (f a)
  | .scoped a => .scoped (f a)

def Slots.image (slots : Slots α) : Slots β := slots.map (Option.map f)

def image (p : Pool α) : Pool β where
  slots := p.slots.image f
  make n := (p.make n).map f
  calls := p.calls
  ignoreDispose := p.ignoreDispose
  label := p.label
  observer := p.observer

def Session.image (s : Session α) : Session β where
  pool := s.pool.map (Pool.image f)
  holds := s.holds.map fun e => (e.1, e.2.image f)

def Career.image (c : Career α) : Career β where
  settings := c.settings
  make n := (c.make n).map f
  label := c.label
  observer := c.observer
  requests := c.requests

@[simp] theorem Hold.image_item (hold : Hold α) : (hold.image f).item = f hold.item := by
  cases hold <;> rfl

theorem Hold.image_image (hold : Hold α) : (hold.image f).image g = hold.image (g ∘ f) := by
  cases hold <;> rfl

theorem Slots.image_image (slots : Slots α) :
    (slots.image f).image g = slots.image (g ∘ f) := by
  simp only [Slots.image, List.map_map, Option.map_comp_map]

theorem image_image (p : Pool α) : (p.image f).image g = p.image (g ∘ f) := by
  have hmake : (fun n => ((p.make n).map f).map g) = fun n => (p.make n).map (g ∘ f) := by
    funext n
    cases p.make n <;> rfl
  simp only [image, Slots.image_image, hmake]

theorem Session.image_image (s : Session α) : (s.image f).image g = s.image (g ∘ f) := by
  have hpool : Pool.image g ∘ Pool.image f = Pool.image (g ∘ f) := funext (Pool.image_image f g)
  simp only [image, Option.map_map, hpool, List.map_map, Function.comp_def, Hold.image_image]

namespace Slots

theorem parked_image (slots : Slots α) : parked (slots.image f) = (parked slots).map f := by
  induction slots with
  | nil => rfl
  | cons a slots ih =>
    cases a with
    | none => exact ih
    | some a => exact congrArg (f a :: ·) ih

theorem take?_image (slots : Slots α) :
    (slots.image f).take? = slots.take?.map fun r => (f r.1, image f r.2) := by
  induction slots with
  | nil => rfl
  | cons a slots ih =>
    cases a with
    | some a => rfl
    | none =>
      show (take? (image f slots)).map _ = ((take? slots).map _).map _
      rw [ih, Option.map_map, Option.map_map]
      rfl

theorem put?_image (a : α) (slots : Slots α) :
    (slots.image f).put? (f a) = (slots.put? a).map (image f) := by
  induction slots with
  | nil => rfl
  | cons b slots ih =>
    cases b with
    | none => rfl
    | some b =>
      show (put? (f a) (image f slots)).map _ = ((put? a slots).map _).map _
      rw [ih, Option.map_map, Option.map_map]
      rfl

end Slots

@[simp] theorem capacity_image (p : Pool α) : (p.image f).capacity = p.capacity :=
  List.length_map _

@[simp] theorem available_image (p : Pool α) : (p.image f).available = p.available := by
  show (Slots.parked (p.slots.image f)).length = _
  rw [Slots.parked_image, List.length_map]
  rfl

/-! ### Names -/

variable (holds : Named (Hold α)) (h : String)

theorem get?_image : Named.get? (holds.map fun e => (e.1, e.2.image f)) h
    = (holds.get? h).map (Hold.image f) := by
  induction holds with
  | nil => rfl
  | cons e holds ih =>
    by_cases hk : e.1 = h
    · rw [List.map_cons, Named.get?_cons_eq (e.1, e.2.image f) _ hk, Named.get?_cons_eq e _ hk]
      rfl
    · rw [List.map_cons, Named.get?_cons_ne (e.1, e.2.image f) _ hk, Named.get?_cons_ne e _ hk, ih]

theorem holds_image : Named.holds (holds.map fun e => (e.1, e.2.image f)) h
    = holds.holds h := by
  rw [Named.holds, get?_image, Option.isSome_map, Named.holds]

theorem erase_image : Named.erase (holds.map fun e => (e.1, e.2.image f)) h
    = (holds.erase h).map fun e => (e.1, e.2.image f) := List.filter_map

theorem put_image (hold : Hold α) :
    Named.put (holds.map fun e => (e.1, e.2.image f)) h (hold.image f)
      = (holds.put h hold).map fun e => (e.1, e.2.image f) := by
  rw [Named.put, erase_image]
  rfl

end Images

/-! ### Likenesses -/

/-- A map of items that nothing a pool or a session does tells from the items themselves, but for
    the marks that they leave when they are destroyed. -/
structure Likens {α β : Type} [Specimen α] [Specimen β] (f : α → β) : Prop where
  onBorrow : ∀ a, Poolable.onBorrow (f a) = (Poolable.onBorrow a).map f
  reset : ∀ a, Poolable.reset (f a) = (Poolable.reset a).map f
  make : ∀ n text, Specimen.make n text = f (Specimen.make n text)
  push : ∀ front text a, Specimen.push front text (f a) = f (Specimen.push front text a)
  view : ∀ a, Specimen.view (f a) = Specimen.view a
  debug : ∀ a, Specimen.debug (f a) = Specimen.debug a

/-- A likeness of a likeness. -/
theorem Likens.comp {α β γ : Type} [Specimen α] [Specimen β] [Specimen γ] {f : α → β} {g : β → γ}
    (hg : Likens g) (hf : Likens f) : Likens (g ∘ f) := by
  have hmap (x : Except Panic α) : (x.map f).map g = x.map (g ∘ f) := by
    cases x <;> rfl
  constructor
  · intro a
    rw [Function.comp_apply, hg.onBorrow, hf.onBorrow, hmap]
  · intro a
    rw [Function.comp_apply, hg.reset, hf.reset, hmap]
  · intro n text
    rw [hg.make, hf.make]
    rfl
  · intro front text a
    rw [Function.comp_apply, hg.push, hf.push]
    rfl
  · intro a
    rw [Function.comp_apply, hg.view, hf.view]
  · intro a
    rw [Function.comp_apply, hg.debug, hf.debug]

section Operations

variable {α β : Type} [Specimen α] [Specimen β] {f : α → β} (hf : Likens f)

/-- An outcome of the pool with the images. -/
def Mirrors {A B : Type} (f : α → β) (g : A → B) (o : Outcome A (Pool α))
    (o' : Outcome B (Pool β)) : Prop :=
  o'.answer = g o.answer ∧ o'.state = o.state.image f

include hf

theorem lend_mirrors (a : α) (p : Pool α) :
    Mirrors f (Except.map f) (lend a p) (lend (f a) (p.image f)) := by
  rw [lend, lend, hf.onBorrow]
  cases Poolable.onBorrow a with
  | ok b => exact ⟨rfl, rfl⟩
  | error e => exact ⟨rfl, rfl⟩

theorem borrow_mirrors (p : Pool α) :
    Mirrors f (Except.map f) p.borrow (p.image f).borrow := by
  have htake : (p.image f).slots.take? = p.slots.take?.map fun r => (f r.1, r.2.image f) :=
    Slots.take?_image f p.slots
  rw [borrow, borrow, htake]
  cases p.slots.take? with
  | some r => exact lend_mirrors hf r.1 { p with slots := r.2 }
  | none =>
    have hmake : (p.image f).make (p.image f).calls = (p.make p.calls).map f := rfl
    simp only [Mirrors, Option.map_none, generate, Outcome.andThen_answer, Outcome.andThen_state,
      Outcome.pure_answer, Outcome.pure_state, hmake]
    cases p.make p.calls with
    | ok a => exact lend_mirrors hf a { p with calls := p.calls + 1 }
    | error e => exact ⟨rfl, rfl⟩

omit hf in
theorem park_mirrors (f : α → β) (a : α) (p : Pool α) :
    Mirrors f id (p.park a) ((p.image f).park (f a)) := by
  have hput : (p.image f).slots.put? (f a) = (p.slots.put? a).map (Slots.image f) :=
    Slots.put?_image f a p.slots
  rw [park, park, hput]
  cases p.slots.put? a with
  | some slots => exact ⟨rfl, rfl⟩
  | none => exact ⟨rfl, rfl⟩

theorem release_mirrors (a : α) (p : Pool α) :
    Mirrors f id (p.release a) ((p.image f).release (f a)) := by
  have hignore : (p.image f).ignoreDispose = p.ignoreDispose := rfl
  rw [release, release, hignore]
  cases p.ignoreDispose with
  | true => exact park_mirrors f a p
  | false =>
    simp only [Bool.false_eq_true, if_false]
    rw [hf.reset]
    cases Poolable.reset a with
    | ok b => exact park_mirrors f b p
    | error e => exact ⟨rfl, rfl⟩

omit hf in
theorem clear_mirrors (f : α → β) (p : Pool α) :
    Mirrors f id p.clear (p.image f).clear := by
  refine ⟨rfl, ?_⟩
  simp only [clear, image, Slots.image, List.map_map]
  rfl

omit hf in
theorem fill_mirrors (f : α → β) (n : Nat) (p : Pool α) :
    Mirrors f id (p.fill n) ((p.image f).fill n) := by
  induction n generalizing p with
  | zero => exact ⟨rfl, rfl⟩
  | succ n ih =>
    have hmake : (p.image f).make (p.image f).calls = (p.make p.calls).map f := rfl
    rw [fill, fill, generate, generate, hmake]
    cases p.make p.calls with
    | error e =>
      have hclear := (clear_mirrors f { p with calls := p.calls + 1 }).2
      exact ⟨rfl, hclear⟩
    | ok a =>
      have hpark := (park_mirrors f a { p with calls := p.calls + 1 }).2
      have hrest := ih (park a { p with calls := p.calls + 1 }).state
      rw [← hpark] at hrest
      exact hrest

end Operations

namespace Session

section Conditions

variable {α β : Type} {f : α → β} {s : Session α}

/-- An answer of the session with the images. -/
def Mirrors (f : α → β) (o : Answer α) (o' : Answer β) : Prop :=
  o'.answer = o.answer ∧ o'.state = o.state.image f

theorem refuse_mirrors (f : α → β) (s : Session α) (m : Misuse) :
    Mirrors f (s.refuse m) ((s.image f).refuse m) := ⟨rfl, rfl⟩

theorem withPool_mirrors {use : Pool α → Answer α} {use' : Pool β → Answer β}
    (huse : ∀ p, s.pool = some p → Mirrors f (use p) (use' (p.image f))) :
    Mirrors f (s.withPool use) ((s.image f).withPool use') := by
  have hpool : (s.image f).pool = s.pool.map (Pool.image f) := rfl
  rw [withPool, withPool, hpool]
  cases hp : s.pool with
  | none => exact refuse_mirrors f s .gone
  | some p => exact huse p hp

theorem withBare_mirrors {h : String} {use : α → Answer α} {use' : β → Answer β}
    (huse : ∀ a, Mirrors f (use a) (use' (f a))) :
    Mirrors f (s.withBare h use) ((s.image f).withBare h use') := by
  have hget : (s.image f).holds.get? h = (s.holds.get? h).map (Hold.image f) :=
    get?_image f s.holds h
  rw [withBare, withBare, hget]
  cases s.holds.get? h with
  | none => exact refuse_mirrors f s .noSuchHandle
  | some hold =>
    rcases hold with a | a
    · exact huse a
    · exact refuse_mirrors f s .noSuchHandle

theorem withScoped_mirrors {h : String} {use : α → Answer α} {use' : β → Answer β}
    (huse : ∀ a, Mirrors f (use a) (use' (f a))) :
    Mirrors f (s.withScoped h use) ((s.image f).withScoped h use') := by
  have hget : (s.image f).holds.get? h = (s.holds.get? h).map (Hold.image f) :=
    get?_image f s.holds h
  rw [withScoped, withScoped, hget]
  cases s.holds.get? h with
  | none => exact refuse_mirrors f s .noSuchHandle
  | some hold =>
    rcases hold with a | a
    · exact refuse_mirrors f s .noSuchHandle
    · exact huse a

theorem image_erase (f : α → β) (s : Session α) (h : String) :
    ({ s.image f with holds := (s.image f).holds.erase h } : Session β)
      = ({ s with holds := s.holds.erase h } : Session α).image f :=
  congrArg (Session.mk (s.pool.map (Pool.image f))) (erase_image f s.holds h)

theorem image_put (f : α → β) (s : Session α) (h : String) (hold : Hold α) :
    ({ s.image f with holds := (s.image f).holds.put h (hold.image f) } : Session β)
      = ({ s with holds := s.holds.put h hold } : Session α).image f :=
  congrArg (Session.mk (s.pool.map (Pool.image f))) (put_image f s.holds h hold)

theorem distinct_image (f : α → β) {s : Session α} (hs : s.holds.Distinct) :
    (s.image f).holds.Distinct := by
  have hnames : (s.image f).holds.map Prod.fst = s.holds.map Prod.fst := by
    rw [image, List.map_map]
    rfl
  rw [Named.Distinct, hnames]
  exact hs

theorem items_image (f : α → β) (s : Session α) : (s.image f).items = s.items.map f := by
  have hparked : ((s.image f).pool.elim [] fun p => Slots.parked p.slots)
      = (s.pool.elim [] fun p => Slots.parked p.slots).map f := by
    rw [image]
    cases s.pool with
    | none => rfl
    | some p => exact Slots.parked_image f p.slots
  have hheld : (s.image f).holds.map (fun e => e.2.item)
      = (s.holds.map fun e => e.2.item).map f := by
    rw [image, List.map_map, List.map_map]
    congr 1
    funext e
    exact Hold.image_item f e.2
  rw [items, hparked, hheld, items, List.map_append]

theorem lentBy_image {r : Request} {o : Answer α} {o' : Answer β} (ho : Mirrors f o o') :
    lentBy r o' = (lentBy r o).map f := by
  obtain ⟨hanswer, hstate⟩ := ho
  have hget (h : String) : (o'.state.holds.get? h).map Hold.item
      = ((o.state.holds.get? h).map Hold.item).map f := by
    rw [hstate, image, get?_image, Option.map_map, Option.map_map]
    congr 1
    exact funext (Hold.image_item f)
  unfold lentBy
  rw [hanswer]
  split
  · exact hget _
  · exact hget _
  · rfl

end Conditions

variable {α β : Type} [Specimen α] [Specimen β] {f : α → β} (hf : Likens f)

include hf

theorem lend_mirrors (s : Session α) (h : String) {hold : α → Hold α} {hold' : β → Hold β}
    (hhold : ∀ a, hold' (f a) = (hold a).image f) :
    Mirrors f (s.lend h hold) ((s.image f).lend h hold') := by
  apply withPool_mirrors
  intro p hpool
  have hholds : (s.image f).holds.holds h = s.holds.holds h := holds_image f s.holds h
  rw [hholds]
  cases s.holds.holds h with
  | true => exact refuse_mirrors f s .handleInUse
  | false =>
    obtain ⟨hanswer, hstate⟩ := borrow_mirrors hf p
    simp only [Bool.false_eq_true, if_false, onPool, Outcome.andThen, Outcome.lift, hanswer,
      hstate]
    cases p.borrow.answer with
    | error e => exact ⟨rfl, rfl⟩
    | ok a =>
      refine ⟨congrArg Reply.item (hf.view a), ?_⟩
      have hput := put_image f s.holds h (hold a)
      rw [← hhold] at hput
      show (⟨_, _⟩ : Session β) = ⟨_, _⟩
      exact congrArg (Session.mk (some (p.borrow.state.image f))) hput

theorem giveBack_mirrors (s : Session α) (p : Pool α) (a : α) :
    Mirrors f (s.giveBack p a) ((s.image f).giveBack (p.image f) (f a)) := by
  obtain ⟨hanswer, hstate⟩ := release_mirrors hf a p
  simp only [giveBack, onPool, Outcome.map, Outcome.lift, hanswer, hstate]
  exact ⟨rfl, rfl⟩

/-- **A step with the images is the image of the step.** -/
theorem step_mirrors (s : Session α) (r : Request) :
    Mirrors f (s.step r) ((s.image f).step r) := by
  have hget (h : String) : (s.image f).holds.get? h = (s.holds.get? h).map (Hold.image f) :=
    get?_image f s.holds h
  cases r with
  | borrow h => exact lend_mirrors hf s h fun _ => rfl
  | scope h => exact lend_mirrors hf s h fun _ => rfl
  | release h =>
    apply withPool_mirrors
    intro p _
    apply withBare_mirrors
    intro a
    rw [image_erase]
    exact giveBack_mirrors hf _ p a
  | endScope h =>
    apply withScoped_mirrors
    intro a
    apply withPool_mirrors
    intro p _
    rw [image_erase]
    exact giveBack_mirrors hf _ p a
  | releaseNew id text =>
    apply withPool_mirrors
    intro p _
    rw [hf.make]
    exact giveBack_mirrors hf s p _
  | detach h =>
    apply withScoped_mirrors
    intro a
    exact ⟨congrArg Reply.item (hf.view a), image_put f s h (.bare a)⟩
  | push h text front =>
    rw [step, step, hget]
    cases s.holds.get? h with
    | none => exact refuse_mirrors f s .noSuchHandle
    | some hold =>
      have hset : (hold.image f).set (Specimen.push front text (hold.image f).item)
          = (hold.set (Specimen.push front text hold.item)).image f := by
        rcases hold with a | a
        · exact congrArg Hold.bare (hf.push front text a)
        · exact congrArg Hold.scoped (hf.push front text a)
      refine ⟨congrArg Reply.item ?_, ?_⟩
      · rw [Hold.image_item, hf.push, hf.view]
      · show ({ s.image f with holds := (s.image f).holds.put h _ } : Session β) = _
        rw [hset]
        exact image_put f s h _
  | view h =>
    rw [step, step, hget]
    cases s.holds.get? h with
    | none => exact refuse_mirrors f s .noSuchHandle
    | some hold =>
      refine ⟨congrArg Reply.item ?_, rfl⟩
      rw [Hold.image_item, hf.view]
  | discard h =>
    apply withBare_mirrors
    intro a
    exact ⟨rfl, image_erase f s h⟩
  | scopeDebug h =>
    apply withScoped_mirrors
    intro a
    refine ⟨?_, rfl⟩
    rw [hf.debug]
    rfl
  | info =>
    apply withPool_mirrors
    intro p _
    rw [capacity_image, available_image]
    exact ⟨rfl, rfl⟩
  | debug =>
    apply withPool_mirrors
    intro p _
    have hdebug : (p.image f).debug = p.debug := by
      rw [Pool.debug, capacity_image, available_image]
      rfl
    rw [hdebug]
    exact ⟨rfl, rfl⟩
  | dropPool =>
    apply withPool_mirrors
    intro p _
    have hscopes : ((s.image f).holds.any fun e => e.2.isScoped)
        = s.holds.any fun e => e.2.isScoped := by
      show (s.holds.map _).any _ = _
      rw [List.any_map]
      congr 1
      funext e
      obtain ⟨k, hold⟩ := e
      cases hold <;> rfl
    rw [hscopes]
    split
    · exact refuse_mirrors f s .busy
    · exact ⟨rfl, rfl⟩
  | unknown => exact refuse_mirrors f s .noSuchOp

/-! ### Runs -/

theorem offered_image (s : Session α) (r : Request) :
    (s.image f).offered r = (s.offered r).map f := by
  have hget (h : String) : ((s.image f).holds.get? h).map Hold.item
      = ((s.holds.get? h).map Hold.item).map f := by
    rw [image, get?_image, Option.map_map, Option.map_map]
    congr 1
    exact funext (Hold.image_item f)
  cases r with
  | release h => exact hget h
  | endScope h => exact hget h
  | releaseNew id text => exact congrArg some (hf.make id text)
  | _ => rfl

theorem returnedBy_image (s : Session α) {r : Request} {o : Answer α} {o' : Answer β}
    (ho : Mirrors f o o') : (s.image f).returnedBy r o' = (s.returnedBy r o).map f := by
  rw [returnedBy, returnedBy, ho.1, offered_image hf]
  split
  · rfl
  · rfl

theorem answers_image (s : Session α) (rs : List Request) :
    ((s.image f).run rs).map (·.answer) = (s.run rs).map (·.answer) := by
  induction rs generalizing s with
  | nil => rfl
  | cons r rs ih =>
    obtain ⟨hanswer, hstate⟩ := step_mirrors hf s r
    have hrest := ih (s.step r).state
    rw [← hstate] at hrest
    simp only [run, List.map_cons, hanswer, hrest]

theorem calm_image (s : Session α) (rs : List Request) : (s.image f).Calm rs ↔ s.Calm rs := by
  have hanswers {γ : Type} [Specimen γ] (t : Session γ) : t.Calm rs ↔
      ∀ reply ∈ (t.run rs).map (·.answer), reply.isPanic = false := by
    rw [List.forall_mem_map]
    rfl
  rw [hanswers, hanswers, answers_image hf]

theorem reached_image (s : Session α) (rs : List Request) :
    (s.image f).reached rs = (s.reached rs).image f := by
  induction rs generalizing s with
  | nil => rfl
  | cons r rs ih =>
    rw [reached, reached, (step_mirrors hf s r).2]
    exact ih _

theorem lent_image (s : Session α) (rs : List Request) :
    (s.image f).lent rs = (s.lent rs).map f := by
  induction rs generalizing s with
  | nil => rfl
  | cons r rs ih =>
    rw [lent, lent, lentBy_image (step_mirrors hf s r), (step_mirrors hf s r).2, ih,
      List.map_append, Option.toList_map]

theorem returned_image (s : Session α) (rs : List Request) :
    (s.image f).returned rs = (s.returned rs).map f := by
  induction rs generalizing s with
  | nil => rfl
  | cons r rs ih =>
    rw [returned, returned, returnedBy_image hf s (step_mirrors hf s r),
      (step_mirrors hf s r).2, ih, List.map_append,
      Option.toList_map]

end Session

/-! ### Careers -/

namespace Career

variable {α β : Type} [Specimen α] [Specimen β] {f : α → β}

theorem opening_mirrors (f : α → β) (c : Career α) :
    Mirrors f id c.opening (c.image f).opening := by
  have hsettings : (c.image f).settings = c.settings := rfl
  rw [opening, opening, Pool.assemble, Pool.assemble, hsettings]
  have hempty : (List.replicate c.settings.capacity (none : Option β))
      = Slots.image f (List.replicate c.settings.capacity none) := by
    rw [Slots.image, List.map_replicate]
    rfl
  rw [hempty]
  by_cases hzero : c.settings.capacity = 0
  · rw [if_pos hzero, if_pos hzero]
    exact ⟨rfl, rfl⟩
  · rw [if_neg hzero, if_neg hzero]
    cases c.settings.preInitialize with
    | true => exact fill_mirrors f _ _
    | false => exact ⟨rfl, rfl⟩

theorem start_image (f : α → β) (c : Career α) : (c.image f).start = c.start.image f :=
  congrArg (fun p => Session.mk (some p) []) (opening_mirrors f c).2

variable (hf : Likens f)

include hf

theorem finish_image (c : Career α) : (c.image f).finish = c.finish.image f := by
  rw [finish, start_image]
  exact Session.reached_image hf c.start c.requests

theorem replies_image (c : Career α) : (c.image f).replies = c.replies := by
  rw [replies, start_image]
  exact Session.answers_image hf c.start c.requests

theorem calm_image (c : Career α) : (c.image f).Calm ↔ c.Calm := by
  have hopening : (c.image f).opening.answer = c.opening.answer := (opening_mirrors f c).1
  have hrun : (c.image f).start.Calm (c.image f).requests ↔ c.start.Calm c.requests := by
    rw [start_image]
    exact Session.calm_image hf c.start c.requests
  constructor
  · intro h
    exact ⟨hopening.symm.trans h.opening, hrun.mp h.run⟩
  · intro h
    exact ⟨hopening.trans h.opening, hrun.mpr h.run⟩

theorem lent_image (c : Career α) : (c.image f).lent = c.lent.map f := by
  rw [lent, start_image]
  exact Session.lent_image hf c.start c.requests

theorem returned_image (c : Career α) : (c.image f).returned = c.returned.map f := by
  rw [returned, start_image]
  exact Session.returned_image hf c.start c.requests

end Career

/-! ### Boxes -/

/-- An item in as many boxes, one in the other. -/
def Boxes : Nat → Type → Type
  | 0, α => α
  | depth + 1, α => Boxed (Boxes depth α)

section Boxing

variable {α : Type}

def box : (depth : Nat) → α → Boxes depth α
  | 0, a => a
  | depth + 1, a => (⟨box depth a⟩ : Boxed (Boxes depth α))

def unbox : (depth : Nat) → Boxes depth α → α
  | 0, a => a
  | depth + 1, b => unbox depth (Boxed.content b)

@[simp] theorem box_unbox (depth : Nat) (b : Boxes depth α) : box depth (unbox depth b) = b := by
  induction depth with
  | zero => rfl
  | succ depth ih => exact congrArg Boxed.mk (ih (Boxed.content b))

@[simp] theorem unbox_box (depth : Nat) (a : α) : unbox depth (box depth a) = a := by
  induction depth with
  | zero => rfl
  | succ depth ih => exact ih

instance specimenBoxes [Specimen α] : (depth : Nat) → Specimen (Boxes depth α)
  | 0 => inferInstanceAs (Specimen α)
  | depth + 1 =>
    letI : Specimen (Boxes depth α) := specimenBoxes depth
    inferInstanceAs (Specimen (Boxed (Boxes depth α)))

/-- **Boxes make no difference**: each passes both hooks on to what is in it. -/
theorem likens_box [Specimen α] (depth : Nat) : Likens (box (α := α) depth) := by
  induction depth with
  | zero =>
    have hid {x : Except Panic α} : x = x.map id := by
      cases x <;> rfl
    exact ⟨fun _ => hid, fun _ => hid, fun _ _ => rfl, fun _ _ _ => rfl, fun _ => rfl,
      fun _ => rfl⟩
  | succ depth ih =>
    have hone {x : Except Panic α} {y : Except Panic (Boxes depth α)} (h : y = x.map (box depth)) :
        y.map Boxed.mk = x.map (box (depth + 1)) := by
      subst h
      cases x <;> rfl
    exact ⟨fun a => hone (ih.onBorrow a), fun a => hone (ih.reset a),
      fun n text => congrArg Boxed.mk (ih.make n text),
      fun front text a => congrArg Boxed.mk (ih.push front text a), ih.view, ih.debug⟩

/-- What is in the boxes leaves its mark when they are destroyed. -/
theorem destroy_unbox [Specimen α] (depth : Nat) (b : Boxes depth α) :
    destroy b = destroy (unbox depth b) := by
  induction depth with
  | zero => rfl
  | succ depth ih => exact ih (Boxed.content b)

end Boxing

end Conduit.Pool

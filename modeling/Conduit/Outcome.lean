/-
  Conduit/Outcome.lean
  ====================
  **What an operation leaves behind.**

  Components are values: an operation takes one and answers with the next.  What it
  does to the world outside is listed in order as effects: a task's waker is called,
  an observer is told of an event, an item is destroyed, a slot is handed to its
  recycler.  `Outcome` bundles the answer, the next state and the effects;
  `andThen` runs a second operation on the state that the first one left and
  concatenates their effects.
-/
import Conduit.Observe.Tally

namespace Conduit

/-- A task that can be woken; equal numbers are the same task. -/
abbrev Waker := Nat

abbrev Thread := String

/-- What an operation does to the world outside, one thing at a time. -/
inductive Effect
  | woken (waker : Waker)
  | reported (observer : Observer) (event : Event)
  | destroyed (item : Nat)
  | recycled (slot : Nat) (generation : UInt32)
deriving DecidableEq, Repr

namespace Effect

def lines (es : List Effect) : List String :=
  es.filterMap fun
    | .reported o e => o.line? e
    | _ => none

def wakes (es : List Effect) : List Waker :=
  es.filterMap fun
    | .woken w => some w
    | _ => none

def destructions (es : List Effect) : List Nat :=
  es.filterMap fun
    | .destroyed i => some i
    | _ => none

/-- The slots handed to their recycler, each with its generation then. -/
def recyclings (es : List Effect) : List (Nat × UInt32) :=
  es.filterMap fun
    | .recycled s g => some (s, g)
    | _ => none

/-- Counts the events that a counting observer was told of. -/
def tally (t : Tally) (es : List Effect) : Tally :=
  es.foldl (fun t e => match e with
    | .reported o e => if o.counts then t.add e else t
    | _ => t) t

end Effect

/-- The answer of an operation, the state it leaves, and its effects in order. -/
structure Outcome (α σ : Type) where
  answer : α
  state : σ
  effects : List Effect
deriving DecidableEq, Repr

namespace Outcome

variable {α β σ τ : Type}

def pure (a : α) (s : σ) : Outcome α σ := ⟨a, s, []⟩

/-- Goes on with the answer and the state, and lists both operations' effects in order. -/
def andThen (o : Outcome α σ) (f : α → σ → Outcome β τ) : Outcome β τ :=
  let r := f o.answer o.state
  ⟨r.answer, r.state, o.effects ++ r.effects⟩

def map (f : α → β) (o : Outcome α σ) : Outcome β σ :=
  ⟨f o.answer, o.state, o.effects⟩

/-- The same outcome seen from a larger state. -/
def lift (f : σ → τ) (o : Outcome α σ) : Outcome α τ :=
  ⟨o.answer, f o.state, o.effects⟩

@[simp] theorem andThen_answer (o : Outcome α σ) (f : α → σ → Outcome β τ) :
    (o.andThen f).answer = (f o.answer o.state).answer := rfl

@[simp] theorem andThen_state (o : Outcome α σ) (f : α → σ → Outcome β τ) :
    (o.andThen f).state = (f o.answer o.state).state := rfl

@[simp] theorem andThen_effects (o : Outcome α σ) (f : α → σ → Outcome β τ) :
    (o.andThen f).effects = o.effects ++ (f o.answer o.state).effects := rfl

@[simp] theorem pure_answer (a : α) (s : σ) : (pure a s).answer = a := rfl

@[simp] theorem pure_state (a : α) (s : σ) : (pure a s).state = s := rfl

@[simp] theorem pure_effects (a : α) (s : σ) : (pure a s).effects = [] := rfl

@[simp] theorem map_answer (f : α → β) (o : Outcome α σ) : (o.map f).answer = f o.answer := rfl

@[simp] theorem map_state (f : α → β) (o : Outcome α σ) : (o.map f).state = o.state := rfl

@[simp] theorem map_effects (f : α → β) (o : Outcome α σ) : (o.map f).effects = o.effects := rfl

@[simp] theorem lift_answer (f : σ → τ) (o : Outcome α σ) : (o.lift f).answer = o.answer := rfl

@[simp] theorem lift_state (f : σ → τ) (o : Outcome α σ) : (o.lift f).state = f o.state := rfl

@[simp] theorem lift_effects (f : σ → τ) (o : Outcome α σ) : (o.lift f).effects = o.effects := rfl

@[simp] theorem pure_andThen (a : α) (s : σ) (f : α → σ → Outcome β τ) :
    (pure a s).andThen f = f a s := rfl

/-- One pass after another until a pass answers.  A pass without an answer asks for one more;
    when `bound` passes have not answered, neither does the loop. -/
def loop (pass : σ → Outcome (Option β) σ) : Nat → σ → Outcome (Option β) σ
  | 0, s => pure none s
  | bound + 1, s =>
    (pass s).andThen fun b s' =>
      match b with
      | some b => pure (some b) s'
      | none => loop pass bound s'

/-- What a loop does from its start follows from what one pass adds to what is done from its end
    on.  `Q s b s'` is about the loop's start, its answer and its end. -/
theorem loop_rule {pass : σ → Outcome (Option β) σ} {Q : σ → Option β → σ → Prop}
    (exhausted : ∀ s, Q s none s)
    (answered : ∀ s b, (pass s).answer = some b → Q s (some b) (pass s).state)
    (again : ∀ s b s', (pass s).answer = none → Q (pass s).state b s' → Q s b s')
    (bound : Nat) : ∀ s, Q s (loop pass bound s).answer (loop pass bound s).state := by
  induction bound with
  | zero => exact exhausted
  | succ bound ih =>
    intro s
    cases hb : (pass s).answer with
    | none =>
      simp only [loop, andThen_answer, andThen_state, hb]
      exact again s _ _ hb (ih _)
    | some b =>
      simp only [loop, andThen_answer, andThen_state, hb, pure_answer, pure_state]
      exact answered s b hb

/-- A loop answers what one of its passes does. -/
theorem loop_answer {pass : σ → Outcome (Option β) σ} {P : β → Prop}
    (each : ∀ s b, (pass s).answer = some b → P b) (bound : Nat) (s : σ) :
    ∀ b, (loop pass bound s).answer = some b → P b := by
  apply loop_rule (Q := fun _ r _ => ∀ b, r = some b → P b)
  · intro s b hb
    cases hb
  · intro s b hb b' hb'
    cases hb'
    exact each s b hb
  · intro s r s' _ hrest
    exact hrest

/-- A loop answers if each pass that asks for another lowers a measure that is below the bound.
    What it does until then follows from what a pass adds to what is done from its end on. -/
theorem loop_traces {pass : σ → Outcome (Option β) σ} {I : σ → Prop}
    {Q : σ → β → List Effect → σ → Prop} {m : σ → Nat}
    (answered : ∀ s b, I s → (pass s).answer = some b → Q s b (pass s).effects (pass s).state)
    (again : ∀ s, I s → (pass s).answer = none → I (pass s).state ∧ m (pass s).state < m s ∧
      ∀ b es s', Q (pass s).state b es s' → Q s b ((pass s).effects ++ es) s')
    (bound : Nat) : ∀ s, I s → m s < bound →
      ∃ b, (loop pass bound s).answer = some b ∧
        Q s b (loop pass bound s).effects (loop pass bound s).state := by
  induction bound with
  | zero =>
    intro s _ hbound
    exact absurd hbound (Nat.not_lt_zero _)
  | succ bound ih =>
    intro s hs hbound
    cases hb : (pass s).answer with
    | none =>
      obtain ⟨hs', hless, hadds⟩ := again s hs hb
      obtain ⟨b, hanswer, hq⟩ := ih _ hs' (by omega)
      simp only [loop, andThen_answer, andThen_state, andThen_effects, hb]
      exact ⟨b, hanswer, hadds b _ _ hq⟩
    | some b =>
      simp only [loop, andThen_answer, andThen_state, andThen_effects, hb, pure_answer,
        pure_state, pure_effects, List.append_nil]
      exact ⟨b, rfl, answered s b hs hb⟩

/-- A loop answers if each pass that asks for another lowers a measure that is below the bound. -/
theorem loop_answers {pass : σ → Outcome (Option β) σ} {I : σ → Prop} {Q : β → σ → Prop}
    {m : σ → Nat}
    (answered : ∀ s b, I s → (pass s).answer = some b → Q b (pass s).state)
    (again : ∀ s, I s → (pass s).answer = none → I (pass s).state ∧ m (pass s).state < m s)
    (bound : Nat) (s : σ) (hs : I s) (hbound : m s < bound) :
    ∃ b, (loop pass bound s).answer = some b ∧ Q b (loop pass bound s).state := by
  refine loop_traces (Q := fun _ b _ s' => Q b s') answered ?_ bound s hs hbound
  intro s hs hnone
  obtain ⟨hkept, hless⟩ := again s hs hnone
  exact ⟨hkept, hless, fun _ _ _ h => h⟩

/-- What a pass does to the state with its effects, a loop does, if that can be repeated. -/
theorem loop_along {pass : σ → Outcome (Option β) σ} {R : σ → List Effect → σ → Prop}
    (refl : ∀ s, R s [] s)
    (trans : ∀ s es s' es' s'', R s es s' → R s' es' s'' → R s (es ++ es') s'')
    (each : ∀ s, R s (pass s).effects (pass s).state) (bound : Nat) :
    ∀ s, R s (loop pass bound s).effects (loop pass bound s).state := by
  induction bound with
  | zero => exact refl
  | succ bound ih =>
    intro s
    cases hb : (pass s).answer with
    | none =>
      simp only [loop, andThen_effects, andThen_state, hb]
      exact trans _ _ _ _ _ (each s) (ih _)
    | some b =>
      simp only [loop, andThen_effects, andThen_state, hb, pure_effects, pure_state,
        List.append_nil]
      exact each s

/-- What a pass leads to: one more pass, or the answer of the loop. -/
def Leads (o : Outcome (Option α) σ) (again : σ → Prop) (ends : α → σ → Prop) : Prop :=
  match o.answer with
  | none => again o.state
  | some a => ends a o.state

namespace Leads

variable {o : Outcome (Option α) σ} {again : σ → Prop} {ends : α → σ → Prop}

theorem of_none (hnone : o.answer = none) (h : again o.state) : o.Leads again ends := by
  rw [Leads, hnone]
  exact h

theorem of_some {a : α} (hsome : o.answer = some a) (h : ends a o.state) :
    o.Leads again ends := by
  rw [Leads, hsome]
  exact h

theorem after {o : Outcome β τ} {f : β → τ → Outcome (Option α) σ}
    (h : (f o.answer o.state).Leads again ends) : (o.andThen f).Leads again ends := h

theorem goes_on (h : o.Leads again ends) (hnone : o.answer = none) : again o.state := by
  rw [Leads, hnone] at h
  exact h

theorem answers (h : o.Leads again ends) {a : α} (hsome : o.answer = some a) :
    ends a o.state := by
  rw [Leads, hsome] at h
  exact h

end Leads

/-! ### Operations in lockstep -/

section Lockstep

variable {R : σ → σ → Prop} {S : τ → τ → Prop}

/-- Two operations answer alike and do the same, and their states stay related. -/
structure Lockstep (R : σ → σ → Prop) (o o' : Outcome α σ) : Prop where
  answer : o'.answer = o.answer
  effects : o'.effects = o.effects
  state : R o.state o'.state

variable {o o' : Outcome α σ}

theorem lockstep_pure {s s' : σ} (a : α) (h : R s s') : Lockstep R (pure a s) (pure a s') :=
  ⟨rfl, rfl, h⟩

theorem Lockstep.map (h : Lockstep R o o') (f : α → β) : Lockstep R (o.map f) (o'.map f) :=
  ⟨congrArg f h.answer, h.effects, h.state⟩

theorem Lockstep.lift {f f' : σ → τ} (h : Lockstep R o o')
    (hlift : ∀ s s', R s s' → S (f s) (f' s')) : Lockstep S (o.lift f) (o'.lift f') :=
  ⟨h.answer, h.effects, hlift _ _ h.state⟩

theorem Lockstep.andThen {f f' : α → σ → Outcome β τ} (h : Lockstep R o o')
    (hnext : ∀ s s', R s s' → Lockstep S (f o.answer s) (f' o.answer s')) :
    Lockstep S (o.andThen f) (o'.andThen f') := by
  obtain ⟨hanswer, heffects, hstate⟩ := hnext _ _ h.state
  refine ⟨?_, ?_, ?_⟩
  · rw [andThen_answer, andThen_answer, h.answer, hanswer]
  · rw [andThen_effects, andThen_effects, h.answer, h.effects, heffects]
  · rw [andThen_state, andThen_state, h.answer]
    exact hstate

theorem lockstep_loop {pass : σ → Outcome (Option β) σ}
    (hpass : ∀ s s', R s s' → Lockstep R (pass s) (pass s')) (bound : Nat) :
    ∀ s s', R s s' → Lockstep R (loop pass bound s) (loop pass bound s') := by
  induction bound with
  | zero =>
    intro s s' h
    exact lockstep_pure none h
  | succ bound ih =>
    intro s s' h
    refine (hpass s s' h).andThen fun r r' hr => ?_
    cases (pass s).answer with
    | none => exact ih r r' hr
    | some b => exact lockstep_pure (some b) hr

end Lockstep

end Outcome

end Conduit

/-
  Conduit/Proofs/Pool/Hooks.lean
  ==============================
  **An item is told once each time it is lent, and reset once each time it comes back.**

  Each lending and each return makes one call, whatever path the item takes, and nothing
  else makes any.  Metered items are likenesses of the items in them, so this is about
  every pool; and it is about boxed items, since boxes pass every call on.  An item that is
  destroyed is seen by its mark, so the items here leave any mark one likes, and what is
  destroyed shows its meter as well.

  So texts and lists that were given back are empty when they are lent again.
-/
import Conduit.Proofs.Pool.Meters

namespace Conduit.Pool

/-! ### Emptied items -/

/-- Items that their reset empties, and that are lent as they are. -/
class Emptied (β : Type) [Poolable β] where
  Empty : β → Prop
  reset_empty : ∀ a b : β, Poolable.reset a = .ok b → Empty b
  onBorrow_empty : ∀ a b : β, Poolable.onBorrow a = .ok b → Empty a → Empty b

instance {γ : Type} : Emptied (List γ) where
  Empty a := a = []
  reset_empty _ _ h := (Except.ok.inj h).symm
  onBorrow_empty _ _ h ha := (Except.ok.inj h).symm.trans ha

instance : Emptied String where
  Empty a := a = ""
  reset_empty _ _ h := (Except.ok.inj h).symm
  onBorrow_empty _ _ h ha := (Except.ok.inj h).symm.trans ha

instance {γ : Type} : Emptied (Deque γ) where
  Empty a := a.toList = []
  reset_empty _ _ h := congrArg Deque.toList (Except.ok.inj h).symm
  onBorrow_empty _ _ h ha := (congrArg Deque.toList (Except.ok.inj h)).symm.trans ha

namespace Session

section Emptying

variable {β : Type} [Specimen β] [Emptied β] {s : Session (Metered β)} {r : Request}
  {o : Answer (Metered β)}

/-- In a pool that resets what comes back, what was ever reset is parked empty. -/
def Clean (s : Session (Metered β)) : Prop :=
  ∀ p, s.pool = some p → p.ignoreDispose = false ∧
    ∀ a ∈ Slots.parked p.slots, 0 < a.meter.reset → Emptied.Empty a.content

theorem clean_parks {p p' : Pool (Metered β)} {a b : Metered β} {es : List Effect}
    (hignore : p.ignoreDispose = false)
    (hparked : ∀ a ∈ Slots.parked p.slots, 0 < a.meter.reset → Emptied.Empty a.content)
    (hclean : p.cleaned a = .ok b) (hpark : Parks p b es p') :
    p'.ignoreDispose = false ∧
      ∀ a ∈ Slots.parked p'.slots, 0 < a.meter.reset → Emptied.Empty a.content := by
  refine ⟨hpark.akin.ignoreDispose.trans hignore, fun c hc hreset => ?_⟩
  cases hpark with
  | full _ => exact hparked c hc hreset
  | parked hput =>
    obtain rfl | hother := List.mem_cons.mp ((Slots.put?_some hput).1.mem_iff.mp hc)
    · rw [cleaned, hignore] at hclean
      obtain ⟨content, hcontent, rfl⟩ := Metered.reset_ok hclean
      exact Emptied.reset_empty a.content content hcontent
    · exact hparked c hother hreset

theorem Clean.step (hs : Clean s) (h : Does s r o) : Clean o.state := by
  intro p' hpool'
  cases h with
  | lends _ _ hpool _ _ hfetch =>
    cases hpool'
    obtain ⟨hignore, hparked⟩ := hs _ hpool
    refine ⟨hfetch.akin.ignoreDispose.trans hignore, fun c hc => ?_⟩
    cases hfetch with
    | parked htake =>
      apply hparked
      rw [(Slots.take?_some htake).1]
      exact List.mem_cons_of_mem _ hc
    | fresh _ _ => exact hparked c hc
  | takesBack _ hpool _ hclean hpark =>
    cases hpool'
    obtain ⟨hignore, hparked⟩ := hs _ hpool
    exact clean_parks hignore hparked hclean hpark
  | takesIn hpool hclean hpark =>
    cases hpool'
    obtain ⟨hignore, hparked⟩ := hs _ hpool
    exact clean_parks hignore hparked hclean hpark
  | drops _ => cases hpool'
  | _ => exact hs p' hpool'

/-- An item that is lent again after it was given back is empty. -/
theorem Metes.lent_empty {came lent back : List Nat} {b : Metered β}
    (hs : Metes false s came lent back) (hclean : Clean s)
    (hcame : (came ++ (fresh s o.state ++ s.stranger r)).Nodup) (h : Moves s r o)
    (hlends : lentBy r o = some b) (hback : b.id ∈ back) : Emptied.Empty b.content := by
  cases h with
  | lends hpool hpool' hfetch hlent hlends' hreturns hitems hafter =>
    rename_i p p' a b' others
    obtain rfl : b' = b := Option.some.inj (hlends'.symm.trans hlends)
    obtain ⟨content, hcontent, rfl⟩ := Metered.onBorrow_ok hlent
    apply Emptied.onBorrow_empty a.content content hcontent
    generalize o.effects = es at hfetch
    cases hfetch with
    | parked htake =>
      have hmem : a ∈ Slots.parked p.slots := by
        rw [(Slots.take?_some htake).1]
        exact List.mem_cons_self
      have hitem : a ∈ s.items := by
        rw [items, hpool]
        exact List.mem_append_left _ hmem
      have hmeter := hs.reads a hitem
      apply (hclean p hpool).2 a hmem
      rw [hmeter]
      exact List.count_pos_iff.mpr hback
    | fresh _ hmake =>
      have hnew := hs.fresh_unknown hcame hpool hpool' hmake rfl
      exact absurd (hs.backKnown hback) hnew
  | returns _ _ _ _ hnone _ _ _ =>
    rw [hnone] at hlends
    cases hlends
  | keeps hnone _ _ =>
    rw [hnone] at hlends
    cases hlends

end Emptying

/-! ### What one step tells -/

section Telling

variable {α : Type} [Specimen α] {s : Session α} {r : Request} {o : Answer α}

/-- What goes with its pool is destroyed as it is. -/
theorem Does.drop_effects {p : Pool α} (h : Does s r o) (hpool : s.pool = some p)
    (hnone : o.state.pool = none) :
    o.effects = (Slots.parked p.slots).flatMap fun a => destroy a := by
  cases h with
  | drops hpool' =>
    cases hpool'.symm.trans hpool
    rfl
  | lends _ _ _ _ _ _ => cases hnone
  | takesBack _ _ _ _ _ => cases hnone
  | takesIn _ _ _ => cases hnone
  | _ => cases hpool.symm.trans hnone

/-- What a step does with the hooks: an item that it lends, parked or fresh, was told so once; one
    that it takes back was reset once, unless the pool ignores returns, whether there is room for
    it or not; and if it does neither, each item is as it was told and reset before. -/
structure Tells (meter : α → Meter) (s : Session α) (r : Request) (o : Answer α) : Prop where
  lent : ∀ b, lentBy r o = some b → ∃ p p' a, s.pool = some p ∧ o.state.pool = some p' ∧
    Fetches p a o.effects p' ∧ Poolable.onBorrow a = .ok b ∧
    meter b = ⟨(meter a).lent + 1, (meter a).reset⟩
  returned : ∀ a, s.returnedBy r o = some a → ∃ p p' b, s.pool = some p ∧
    o.state.pool = some p' ∧ p.cleaned a = .ok b ∧ Parks p b o.effects p' ∧
    meter b = ⟨(meter a).lent, (meter a).reset + if p.ignoreDispose then 0 else 1⟩
  others : lentBy r o = none → s.returnedBy r o = none →
    ∀ b ∈ o.state.items, ∃ a ∈ s.items, meter b = meter a

theorem Moves.tells {meter : α → Meter} (h : Moves s r o)
    (hborrow : ∀ a b : α, Poolable.onBorrow a = .ok b →
      meter b = ⟨(meter a).lent + 1, (meter a).reset⟩)
    (hcleaned : ∀ (p : Pool α) a b, p.cleaned a = .ok b →
      meter b = ⟨(meter a).lent, (meter a).reset + if p.ignoreDispose then 0 else 1⟩)
    (hpush : ∀ front text a, meter (Specimen.push front text a) = meter a) :
    Tells meter s r o := by
  cases h with
  | lends hpool hpool' hfetch hlent hlends hreturns _ _ =>
    refine ⟨?_, ?_, ?_⟩
    · intro b hb
      cases hlends.symm.trans hb
      exact ⟨_, _, _, hpool, hpool', hfetch, hlent, hborrow _ _ hlent⟩
    · intro a ha
      cases hreturns.symm.trans ha
    · intro hnone
      cases hlends.symm.trans hnone
  | returns hpool hpool' hclean hpark hlends hreturns _ _ =>
    refine ⟨?_, ?_, ?_⟩
    · intro b hb
      cases hlends.symm.trans hb
    · intro a ha
      cases hreturns.symm.trans ha
      exact ⟨_, _, _, hpool, hpool', hclean, hpark, hcleaned _ _ _ hclean⟩
    · intro _ hnone
      cases hreturns.symm.trans hnone
  | keeps hlends hreturns hafter =>
    refine ⟨?_, ?_, ?_⟩
    · intro b hb
      cases hlends.symm.trans hb
    · intro a ha
      cases hreturns.symm.trans ha
    · intro _ _ b hb
      obtain ⟨a, ha, rfl | ⟨front, text, rfl⟩⟩ := hafter b hb
      · exact ⟨b, ha, rfl⟩
      · exact ⟨a, ha, hpush front text a⟩

end Telling

end Session

/-! ### Marks -/

/-- A metered item that leaves a given mark when it is destroyed. -/
structure Marked {β : Type} (mark : Metered β → Option Nat) where
  item : Metered β

section Marking

variable {β : Type} {mark : Metered β → Option Nat}

instance [Poolable β] : Poolable (Marked mark) where
  onBorrow a := (Poolable.onBorrow a.item).map Marked.mk
  reset a := (Poolable.reset a.item).map Marked.mk
  mark? a := mark a.item

instance [Specimen β] : Specimen (Marked mark) where
  make n text := ⟨Specimen.make n text⟩
  push front text a := ⟨Specimen.push front text a.item⟩
  view a := Specimen.view a.item
  debug a := Specimen.debug a.item

/-- A mark makes no difference. -/
theorem likens_marked [Specimen β] : Likens (Marked.mk : Metered β → Marked mark) :=
  ⟨fun _ => rfl, fun _ => rfl, fun _ _ => rfl, fun _ _ _ => rfl, fun _ => rfl, fun _ => rfl⟩

end Marking

section Boxing

variable {β : Type} {mark : Metered β → Option Nat} {depth : Nat}

/-- A metered item with a mark, in as many boxes. -/
def wrap (mark : Metered β → Option Nat) (depth : Nat) (a : Metered β) :
    Boxes depth (Marked mark) := box depth ⟨a⟩

def unwrap (depth : Nat) (a : Boxes depth (Marked mark)) : Metered β := (unbox depth a).item

/-- What the meter of the item in the boxes shows. -/
def innerMeter (depth : Nat) (a : Boxes depth (Marked mark)) : Meter := (unwrap depth a).meter

/-- The same boxes around an item that has neither mark nor meter. -/
def unmetered (depth : Nat) (a : Boxes depth (Marked mark)) : Boxes depth β :=
  box depth (unwrap depth a).content

@[simp] theorem unwrap_wrap (a : Metered β) : unwrap depth (wrap mark depth a) = a := by
  rw [unwrap, wrap, unbox_box]

@[simp] theorem wrap_unwrap (a : Boxes depth (Marked mark)) :
    wrap mark depth (unwrap depth a) = a := box_unbox depth a

theorem unmetered_wrap (a : Metered β) :
    unmetered depth (wrap mark depth a) = box depth a.content := by
  rw [unmetered, unwrap_wrap]

variable [Specimen β] {a b : Boxes depth (Marked mark)}

theorem likens_wrap (mark : Metered β → Option Nat) (depth : Nat) : Likens (wrap mark depth) :=
  (likens_box depth).comp likens_marked

/-- What is destroyed shows its mark, as it is then. -/
theorem destroy_wrap (a : Boxes depth (Marked mark)) :
    destroy a = (mark (unwrap depth a)).toList.map .destroyed :=
  destroy_unbox depth a

theorem onBorrow_boxes (h : Poolable.onBorrow a = .ok b) :
    innerMeter depth b = ⟨(innerMeter depth a).lent + 1, (innerMeter depth a).reset⟩ := by
  rw [← wrap_unwrap a, (likens_wrap mark depth).onBorrow] at h
  cases hinner : Poolable.onBorrow (unwrap depth a) with
  | error e =>
    rw [hinner] at h
    cases h
  | ok c =>
    rw [hinner] at h
    cases h
    obtain ⟨content, _, rfl⟩ := Metered.onBorrow_ok hinner
    rw [innerMeter, unwrap_wrap]
    rfl

theorem cleaned_boxes {p : Pool (Boxes depth (Marked mark))} (h : p.cleaned a = .ok b) :
    innerMeter depth b = ⟨(innerMeter depth a).lent,
      (innerMeter depth a).reset + if p.ignoreDispose then 0 else 1⟩ := by
  rw [cleaned] at h
  cases hignore : p.ignoreDispose with
  | true =>
    rw [hignore] at h
    cases h
    rfl
  | false =>
    rw [hignore, if_neg Bool.false_ne_true, ← wrap_unwrap a, (likens_wrap mark depth).reset] at h
    cases hinner : Poolable.reset (unwrap depth a) with
    | error e =>
      rw [hinner] at h
      cases h
    | ok c =>
      rw [hinner] at h
      cases h
      obtain ⟨content, _, rfl⟩ := Metered.reset_ok hinner
      rw [innerMeter, unwrap_wrap]
      rfl

theorem push_boxes (front : Bool) (text : String) (a : Boxes depth (Marked mark)) :
    innerMeter depth (Specimen.push front text a) = innerMeter depth a := by
  rw [← wrap_unwrap a, (likens_wrap mark depth).push, innerMeter, innerMeter, unwrap_wrap,
    unwrap_wrap]
  rfl

end Boxing

/-! ### Careers -/

namespace Career

section Metering

variable {β : Type}

/-- The same career of a pool whose items are metered. -/
def metered (c : Career β) : Career (Metered β) where
  settings := c.settings
  make n := (c.make n).map (Metered.new n)
  label := c.label
  observer := c.observer
  requests := c.requests

theorem metered_image (c : Career β) : c.metered.image Metered.content = c := by
  have hmake : (fun n => ((c.make n).map (Metered.new n)).map Metered.content) = c.make := by
    funext n
    cases c.make n <;> rfl
  exact congrArg (fun make => Career.mk c.settings make c.label c.observer c.requests) hmake

theorem metered_new {c : Career β} {n : Nat} {a : Metered β} (h : c.metered.make n = .ok a) :
    a.id = n ∧ a.meter = ⟨0, 0⟩ := by
  have hmake : (c.make n).map (Metered.new n) = .ok a := h
  cases hn : c.make n with
  | ok b =>
    rw [hn] at hmake
    cases hmake
    exact ⟨rfl, rfl⟩
  | error e =>
    rw [hn] at hmake
    cases hmake

end Metering

section Conduct

variable {β : Type} [Specimen β]

theorem metered_calm {c : Career β} (hcalm : c.Calm) : c.metered.Calm := by
  rw [← calm_image Metered.likens_content c.metered, metered_image]
  exact hcalm

/-- The numbers of all items that there ever were in the career. -/
def arrivals (c : Career β) : List Nat :=
  made c.metered.make 0 c.metered.opening.state.calls ++ c.metered.start.arrivals c.requests

theorem metes_start {c : Career β} (hcalm : c.Calm) :
    c.metered.start.Metes c.settings.ignoreDispose
      (made c.metered.make 0 c.metered.opening.state.calls) [] [] := by
  have hnumber : ∀ n a, c.metered.make n = .ok a → Numbered.number a = n :=
    fun n a h => (metered_new h).1
  obtain ⟨_, hmade, _⟩ :=
    Session.assemble_conserves c.settings hnumber c.label c.observer
  obtain ⟨items, slots, hopening, hitems, hperm, _⟩ := assembled (metered_calm hcalm).opening
  have hstate : c.metered.opening.state
      = ⟨slots, c.metered.make, c.metered.filled, c.settings.ignoreDispose, c.label,
        c.observer⟩ := by
    rw [hopening]
    rfl
  refine ⟨⟨Named.distinct_nil, ?_⟩, ?_, ?_, List.nil_subset _, List.nil_subset _, ?_⟩
  · rintro p ⟨⟩
    rw [Counted, hstate]
    exact hnumber
  · rintro p ⟨⟩
    rw [hstate]
    exact ⟨rfl, fun n a h => (metered_new h).2⟩
  · rw [Session.items_numbers]
    show (Slots.numbers c.metered.opening.state.slots ++ []).Subperm _
    rw [List.append_nil]
    exact (List.sublist_append_right _ _).subperm.trans hmade.symm.subperm
  · intro a ha
    have hparked : a ∈ Slots.parked slots := by
      rw [start, hstate] at ha
      simpa [Session.items] using ha
    have hmem : Except.ok a ∈ (List.range c.metered.filled).map c.metered.make := by
      rw [hitems]
      exact List.mem_map_of_mem (hperm.mem_iff.mp hparked)
    obtain ⟨n, _, hn⟩ := List.mem_map.mp hmem
    rw [Metered.Reads, (metered_new hn).2, List.count_nil, ite_self]

theorem clean_start [Emptied β] {c : Career β} (hcalm : c.Calm)
    (hignore : c.settings.ignoreDispose = false) : c.metered.start.Clean := by
  intro p hpool
  have hmetes := metes_start hcalm
  refine ⟨(hmetes.pool p hpool).1.trans hignore, fun a ha hreset => ?_⟩
  have hitem : a ∈ c.metered.start.items := by
    rw [Session.items, hpool]
    exact List.mem_append_left _ ha
  rw [hmetes.reads a hitem, List.count_nil, ite_self] at hreset
  exact absurd hreset (Nat.lt_irrefl 0)

/-- At each step of a career its meters show what they should. -/
theorem metes_reached {c : Career β} (hcalm : c.Calm) (harrivals : c.arrivals.Nodup)
    {rs rest : List Request} (hrequests : c.requests = rs ++ rest) :
    let s := c.metered.start.reached rs
    let came := made c.metered.make 0 c.metered.opening.state.calls ++ c.metered.start.arrivals rs
    c.metered.start.Calm rs ∧ s.Calm rest ∧ (came ++ s.arrivals rest).Nodup ∧
      s.Metes c.settings.ignoreDispose came ((c.metered.start.lent rs).map Metered.id)
        ((c.metered.start.returned rs).map Metered.id) := by
  have hrun : c.metered.start.Calm c.requests := (metered_calm hcalm).run
  rw [hrequests, Session.calm_append] at hrun
  rw [arrivals, hrequests, Session.arrivals_append, ← List.append_assoc] at harrivals
  refine ⟨hrun.1, hrun.2, harrivals, ?_⟩
  have hmetes := (metes_start hcalm).reached hrun.1
    (harrivals.sublist (List.sublist_append_left _ _))
  exact hmetes

/-- **An item is told once each time it is lent, and reset once each time it comes back**, in
    however many boxes it is.  Meters make no difference to a pool, so let its items have some, let
    them leave any marks when they are destroyed, and let what is brought from elsewhere be other
    items.  As long as nothing panics, the meter of each item that is parked or held shows how
    often it was lent and how often it was given back, or no resets at all if the pool ignores
    returns.  At each step, what is lent was told so by this step, and what is given back was reset
    by it, even if it is destroyed then; no other step tells or resets anything, and what goes with
    its pool goes as it was parked, as its mark shows.  So where returns are not ignored, and a
    reset empties, what is lent again is empty, whatever its last holder left in it. -/
theorem hooks_called_once (depth : Nat) (c : Career β) (mark : Metered β → Option Nat)
    (hcalm : (c.image (box depth)).Calm) (harrivals : c.arrivals.Nodup) :
    let m : Career (Boxes depth (Marked mark)) := c.metered.image (wrap mark depth)
    let id (a : Boxes depth (Marked mark)) := (unwrap depth a).id
    (m.Calm ∧ m.replies = (c.image (box depth)).replies ∧
      m.finish.image (unmetered depth) = (c.image (box depth)).finish) ∧
    (∀ a ∈ m.finish.items, innerMeter depth a =
      ⟨(m.lent.map id).count (id a),
        if c.settings.ignoreDispose then 0 else (m.returned.map id).count (id a)⟩) ∧
    (∀ rs r rest, c.requests = rs ++ r :: rest →
      let s := m.start.reached rs
      Session.Tells (innerMeter depth) s r (s.step r) ∧
      (∀ p, s.pool = some p → (s.step r).state.pool = none →
        (s.step r).effects = (Slots.parked p.slots).flatMap fun a =>
          (mark (unwrap depth a)).toList.map .destroyed) ∧
      ∀ [Emptied β] b, c.settings.ignoreDispose = false →
        Session.lentBy r (s.step r) = some b → id b ∈ (m.start.returned rs).map id →
        Emptied.Empty (unwrap depth b).content) := by
  intro m id
  have hwrap := likens_wrap mark depth
  have hplain : c.Calm := (calm_image (likens_box depth) c).mp hcalm
  have hmetered : c.metered.Calm := metered_calm hplain
  have hcalm' : m.Calm := (calm_image hwrap c.metered).mpr hmetered
  have hid (as : List (Metered β)) : (as.map (wrap mark depth)).map id = as.map Metered.id := by
    rw [List.map_map]
    exact List.map_congr_left fun a _ => congrArg Metered.id (unwrap_wrap a)
  refine ⟨⟨hcalm', ?_, ?_⟩, ?_, ?_⟩
  · rw [replies_image hwrap, replies_image (likens_box depth),
      ← replies_image Metered.likens_content, metered_image]
  · have hsame : unmetered depth ∘ wrap mark depth = box depth ∘ Metered.content :=
      funext unmetered_wrap
    rw [finish_image hwrap, Session.image_image, hsame, ← Session.image_image,
      ← finish_image Metered.likens_content, metered_image, finish_image (likens_box depth)]
  · intro a ha
    obtain ⟨_, _, _, hmetes⟩ := metes_reached hplain harrivals (List.append_nil _).symm
    rw [finish_image hwrap, Session.items_image] at ha
    obtain ⟨x, hx, rfl⟩ := List.mem_map.mp ha
    have hreads := hmetes.reads x hx
    rw [lent_image hwrap, returned_image hwrap, hid, hid, innerMeter]
    simp only [id, unwrap_wrap]
    exact hreads
  · intro rs r rest hrequests s
    obtain ⟨hbefore, hrest, hnodup, hmetes⟩ := metes_reached hplain harrivals hrequests
    have hs : s = (c.metered.start.reached rs).image (wrap mark depth) := by
      show m.start.reached rs = _
      rw [start_image, Session.reached_image hwrap]
    have hmirrors := Session.step_mirrors hwrap (c.metered.start.reached rs) r
    rw [← hs] at hmirrors
    obtain ⟨hfirst, _⟩ := Session.calm_cons.mp hrest
    have hdoes := Session.step_does s r (hmirrors.1 ▸ hfirst)
    have hdistinct : s.holds.Distinct := by
      rw [hs]
      exact Session.distinct_image (wrap mark depth) hmetes.orderly.distinct
    refine ⟨?_, ?_, ?_⟩
    · exact (hdoes.moves hdistinct).tells (fun _ _ => onBorrow_boxes) (fun _ _ _ => cleaned_boxes)
        push_boxes
    · intro p hpool hnone
      simp only [hdoes.drop_effects hpool hnone, destroy_wrap]
    · intro _ b hignore hlends hback
      rw [hignore] at hmetes
      have hclean : (c.metered.start.reached rs).Clean :=
        Session.Calm.preserves hbefore (fun _ _ _ => Session.Clean.step)
          (clean_start hplain hignore)
      rw [Session.lentBy_image hmirrors] at hlends
      obtain ⟨a, ha, rfl⟩ := Option.map_eq_some_iff.mp hlends
      have hmoves := (Session.step_does _ r hfirst).moves hmetes.orderly.distinct
      have hback' : a.id ∈ (c.metered.start.returned rs).map Metered.id := by
        have hreturned : m.start.returned rs
            = (c.metered.start.returned rs).map (wrap mark depth) := by
          rw [start_image, Session.returned_image hwrap]
        rw [hreturned, hid] at hback
        simpa only [id, unwrap_wrap] using hback
      rw [unwrap_wrap]
      rw [Session.arrivals, ← List.append_assoc] at hnodup
      exact hmetes.lent_empty hclean (hnodup.sublist (List.sublist_append_left _ _)) hmoves ha
        hback'

/-- One slot filled with a text in two boxes.  It is lent, written on and given back, and lent again
    in a scope that is given up; one more is made and comes back first, so that there is no room
    for the other.  Another is made, and goes with the pool. -/
def rewritten : Career String where
  settings := ⟨1, true, false⟩
  make := generator []
  label := "texts"
  observer := .counting
  requests :=
    [.borrow "a", .push "a" "x" true, .release "a", .scope "a", .borrow "b", .release "b",
      .detach "a", .release "a", .borrow "c", .borrow "d", .release "d", .dropPool]

/-- A mark of two digits that shows how often an item was told and reset. -/
def meterMark (a : Metered String) : Option Nat := some (10 * a.meter.lent + a.meter.reset)

theorem hooks_called_once_rewritten :
    let m := rewritten.metered.image (wrap meterMark 2)
    let s := m.start.reached (rewritten.requests.take 11)
    (rewritten.image (box 2)).Calm ∧ rewritten.arrivals.Nodup ∧
      m.finish.items.map (innerMeter 2) = [⟨2, 1⟩] ∧
      (∀ a ∈ m.finish.items, innerMeter 2 a =
        ⟨(m.lent.map fun b => (unwrap 2 b).id).count (unwrap 2 a).id,
          (m.returned.map fun b => (unwrap 2 b).id).count (unwrap 2 a).id⟩) ∧
      (s.step .dropPool).effects = [.destroyed 11] := by
  intro m s
  have hcalm : (rewritten.image (box 2)).Calm := ⟨by decide, by decide⟩
  have harrivals : rewritten.arrivals.Nodup := by decide
  obtain ⟨_, hmeters, hsteps⟩ := hooks_called_once 2 rewritten meterMark hcalm harrivals
  obtain ⟨_, hdropped, _⟩ := hsteps (rewritten.requests.take 11) .dropPool [] rfl
  exact ⟨hcalm, harrivals, by decide, hmeters, (hdropped _ rfl rfl).trans (by decide)⟩

end Conduct

end Career

end Conduit.Pool

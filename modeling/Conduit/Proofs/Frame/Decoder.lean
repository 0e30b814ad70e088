/-
  Conduit/Proofs/Frame/Decoder.lean
  =================================
  **The decoder is a parser that can stop and go on at any byte.**

  `Station.future` is what a decoder is to report if the rest of the stream is given: what the
  parser makes of the frame that the decoder is in the middle of, with the rest behind it.
  Taking bytes in moves reports from the future to the past, whatever the bytes are and
  whatever was in the buffer before (`Reads`), and this composes; so no cut of the stream and
  no wait shows in the reports.
-/
import Conduit.Proofs.Frame.Buffer
import Conduit.Proofs.Frame.Desk
import Conduit.Proofs.Ring.Closing

namespace Conduit.Frame

open Conduit.Ring (Channel Poll Transfers)

/-! ### Headers and phases -/

/-- The header that announces a length, and what it announces. -/
theorem header_of {n : Nat} (hleast : 4 ≤ n) (hword : n < UInt32.size) :
    ∃ a b c d, Text.wordBytes n.toUInt32 = [a, b, c, d] ∧ announced? a b c d = some n := by
  have hn : n.toUInt32.toNat = n := UInt32.toNat_ofNat_of_lt hword
  refine ⟨_, _, _, _, rfl, ?_⟩
  rw [announced?, Text.wordOf_wordBytes, hn]
  exact if_pos hleast

theorem of_announced {a b c d : UInt8} {n : Nat} (h : announced? a b c d = some n) :
    4 ≤ n ∧ n < UInt32.size ∧ Text.wordBytes n.toUInt32 = [a, b, c, d] := by
  rw [announced?] at h
  split at h
  · rename_i hleast
    cases h
    refine ⟨hleast, UInt32.toNat_lt_size _, ?_⟩
    rw [Nat.toUInt32, UInt32.ofNat_toNat]
    exact Text.wordBytes_wordOf a b c d
  · cases h

/-- The bytes of the frame that the decoder has read. -/
def Phase.bytes : Phase → List UInt8
  | .header bytes => bytes
  | .body buffer filled => Text.wordBytes buffer.size.toUInt32 ++ buffer.toList.take filled

/-- Something of the header or of the body is still to come. -/
def Phase.Underway : Phase → Prop
  | .header bytes => bytes.length < 4
  | .body buffer filled => 4 ≤ buffer.size ∧ buffer.size < UInt32.size ∧ filled < buffer.size

theorem Phase.Underway.wanted {phase : Phase} (h : phase.Underway) : phase.wanted ≠ 0 := by
  cases phase with
  | header bytes => exact Nat.sub_ne_zero_of_lt h
  | body buffer filled => exact Nat.sub_ne_zero_of_lt h.2.2

/-- A stream that ends within a frame says nothing more. -/
theorem Phase.Underway.reports {phase : Phase} (h : phase.Underway) (pending : List UInt32) :
    reports pending phase.bytes = [.ended] := by
  cases phase with
  | header bytes => exact reports_cut h
  | body buffer filled =>
    obtain ⟨hleast, hword, hfilled⟩ := h
    obtain ⟨a, b, c, d, hheader, hannounced⟩ := header_of hleast hword
    rw [Phase.bytes, hheader]
    apply reports_partial hannounced
    show (buffer.toList.take filled).length < buffer.size
    rw [List.length_take]
    exact Nat.lt_of_le_of_lt (Nat.min_le_left _ _) hfilled

/-! ### Bodies -/

/-- A generator that never fails. -/
def Plentiful (p : Pool Buffer) : Prop := ∀ n, ∃ b, p.make n = .ok b

theorem park_make (b : Buffer) (p : Pool Buffer) : (p.park b).state.make = p.make := by
  rw [Pool.park]
  split
  · rfl
  · rfl

theorem release_make (b : Buffer) (p : Pool Buffer) : (p.release b).state.make = p.make := by
  rw [Pool.release]
  split
  · exact park_make b p
  · exact park_make .empty p

theorem borrow_plentiful {p : Pool Buffer} (h : Plentiful p) :
    (∃ b, p.borrow.answer = .ok b) ∧ p.borrow.state.make = p.make := by
  rw [Pool.borrow]
  split
  · rename_i b slots _
    exact ⟨⟨b, rfl⟩, rfl⟩
  · obtain ⟨b, hb⟩ := h p.calls
    simp only [Outcome.andThen_answer, Outcome.andThen_state, Pool.generate, Outcome.pure_answer,
      Outcome.pure_state, hb]
    exact ⟨⟨b, rfl⟩, rfl⟩

namespace Station

variable {s s' s'' : Station}

/-! ### Futures -/

/-- What the decoder is to report, if the rest of the stream is given. -/
def future (s : Station) (rest : List UInt8) : List Report :=
  match s.decoder with
  | none => []
  | some d => reports s.ids (d.phase.bytes ++ rest)

/-- A station whose bodies do not run out and whose decoder, if it has not ended, is in the middle
    of a frame. -/
structure Ready (s : Station) : Prop where
  bodies : Plentiful s.bodies
  underway : ∀ d, s.decoder = some d → d.phase.Underway

/-- A decoder that has read `front` of a frame, and perhaps the whole frame, goes on so. -/
structure Accepts (s : Station) (front : List UInt8) (told : List Report) (s' : Station) :
    Prop where
  ready : Ready s'
  future : ∀ rest, reports s.ids (front ++ rest) = told ++ s'.future rest
  desk : SameDesk s' (s.heed told)
  store : s'.channel.store = s.channel.store
  flag : s'.channel.writerClosed = s.channel.writerClosed

theorem stop_decoder (s : Station) (d : Decoder) : (s.stop d).state.decoder = none := by
  obtain ⟨key, _ | _⟩ := d
  · rfl
  · rfl

theorem closeReader_flag (c : Channel) : c.closeReader.state.writerClosed = c.writerClosed :=
  (Ring.closeReader_spares c).flag

/-- What is left when a decoder ends. -/
theorem stop_leaves (s : Station) (d : Decoder) (hbodies : Plentiful s.bodies) :
    (s.stop d).state.decoder = none ∧ Ready (s.stop d).state ∧ SameDesk (s.stop d).state s ∧
      (s.stop d).state.channel.store = s.channel.store ∧
      (s.stop d).state.channel.writerClosed = s.channel.writerClosed := by
  have hnone := stop_decoder s d
  refine ⟨hnone, ⟨?_, ?_⟩, ?_, ?_, ?_⟩
  · obtain ⟨key, _ | ⟨buffer, filled⟩⟩ := d
    · exact hbodies
    · intro n
      show ∃ b, (s.bodies.release buffer).state.make n = .ok b
      rw [release_make]
      exact hbodies n
  · intro d' hd'
    rw [hnone] at hd'
    cases hd'
  · obtain ⟨key, _ | _⟩ := d
    · exact ⟨rfl, rfl⟩
    · exact ⟨rfl, rfl⟩
  · obtain ⟨key, _ | _⟩ := d
    · exact Channel.closeReader_store _
    · exact Channel.closeReader_store _
  · obtain ⟨key, _ | _⟩ := d
    · exact closeReader_flag _
    · exact closeReader_flag _

/-! ### Taking bytes in -/

variable {d : Decoder}

/-- A decoder that goes on in the middle of a frame has reported nothing. -/
theorem goesOn_accepts (hbodies : Plentiful s.bodies) {pool : Pool Buffer}
    (hpool : pool.make = s.bodies.make) (hphase : d.phase.Underway) :
    Accepts s d.phase.bytes [] { s with bodies := pool, decoder := some d } := by
  constructor
  · constructor
    · intro n
      rw [hpool]
      exact hbodies n
    · rintro d' ⟨⟩
      exact hphase
  · intro rest
    rfl
  · exact ⟨rfl, rfl⟩
  · rfl
  · rfl

/-- A header that announces too little ends the decoder; any other has it borrow a buffer, whose
    contents are of no account. -/
theorem announced_accepts (hbodies : Plentiful s.bodies) {start bytes : List UInt8}
    {a b c e : UInt8} (hphase : d.phase = .header start) (hwhole : start ++ bytes = [a, b, c, e]) :
    Accepts s [a, b, c, e] (s.accept d bytes).answer (s.accept d bytes).state := by
  rw [accept, hphase]
  simp only [hwhole]
  cases hannounced : announced? a b c e with
  | none =>
    obtain ⟨hnone, hready, hdesk, hstore, hflag⟩ := stop_leaves s d hbodies
    refine ⟨hready, ?_, hdesk, hstore, hflag⟩
    intro rest
    rw [Outcome.map_state, future, hnone]
    exact reports_short hannounced
  | some n =>
    obtain ⟨⟨buffer, hbuffer⟩, hmake⟩ := borrow_plentiful hbodies
    obtain ⟨hleast, hword, hheader⟩ := of_announced hannounced
    have hunderway : Phase.Underway (.body (buffer.resize n) 0) :=
      ⟨hleast, hword, Nat.lt_of_lt_of_le (by decide) hleast⟩
    have hbytes : Phase.bytes (.body (buffer.resize n) 0) = [a, b, c, e] := by
      rw [Phase.bytes, List.take_zero, List.append_nil]
      exact hheader
    have haccepts := goesOn_accepts (d := ⟨d.key, .body (buffer.resize n) 0⟩) hbodies hmake
      hunderway
    rw [hbytes] at haccepts
    simp only [onBodies, Outcome.andThen_answer, Outcome.andThen_state, Outcome.lift_answer,
      Outcome.lift_state, hbuffer]
    exact haccepts

theorem header_accepts (hbodies : Plentiful s.bodies) {start bytes : List UInt8}
    (hphase : d.phase = .header start) (hle : start.length + bytes.length ≤ 4) :
    Accepts s (start ++ bytes) (s.accept d bytes).answer (s.accept d bytes).state := by
  by_cases hwhole : start.length + bytes.length = 4
  · obtain ⟨a, b, c, e, hfour⟩ : ∃ a b c e, start ++ bytes = [a, b, c, e] := by
      rw [← List.length_append] at hwhole
      exact List.length_eq_four.mp hwhole
    rw [hfour]
    exact announced_accepts hbodies hphase hfour
  · have hcut : (start ++ bytes).length < 4 := by
      rw [List.length_append]
      omega
    have haccept : s.accept d bytes
        = .pure [] { s with decoder := some ⟨d.key, .header (start ++ bytes)⟩ } := by
      rw [accept, hphase]
      simp only
      split
      · rename_i hfour
        rw [hfour] at hcut
        exact absurd hcut (Nat.lt_irrefl 4)
      · rfl
    rw [haccept]
    exact goesOn_accepts (d := ⟨d.key, .header (start ++ bytes)⟩) hbodies rfl hcut

/-- A whole body is reported as the parser reports it. -/
theorem deliver_accepts (hbodies : Plentiful s.bodies) (key : Signal.WaitKey) (buffer : Buffer)
    (hleast : 4 ≤ buffer.size) (hword : buffer.size < UInt32.size) :
    Accepts s (Text.wordBytes buffer.size.toUInt32 ++ buffer.toList)
      (s.deliver key buffer).answer (s.deliver key buffer).state := by
  obtain ⟨a, b, c, e, hheader, hannounced⟩ := header_of hleast hword
  let id := (contents buffer.toList).1
  let text := (contents buffer.toList).2
  let next : Station := { s with decoder := some ⟨key, .header []⟩ }
  obtain ⟨hreport, hids⟩ := answer_reported next id text
  obtain ⟨hchannel, hpool, hdecoder⟩ := answer_bench next id text
  constructor
  · constructor
    · intro n
      show ∃ b, ((next.answer id text).state.bodies.release buffer).state.make n = .ok b
      rw [release_make, hpool]
      exact hbodies n
    · intro d hd
      have hnew : some ⟨key, .header []⟩ = some d := hdecoder.symm.trans hd
      cases hnew
      exact Nat.zero_lt_succ _
  · intro rest
    have hfuture : (s.deliver key buffer).state.future rest
        = reports (next.answer id text).state.ids rest := by
      show Station.future { (next.answer id text).state with
        bodies := ((next.answer id text).state.bodies.release buffer).state } rest = _
      simp only [future, hdecoder]
      rfl
    have htold : (s.deliver key buffer).answer = [(next.answer id text).answer] := rfl
    rw [hfuture, htold, hids, hreport, hheader, List.append_assoc]
    exact reports_frame hannounced (Buffer.toList_length buffer)
  · have hnext : SameDesk (next.answer id text).state (next.heed [(next.answer id text).answer]) := by
      rw [answer_heeded]
      exact .refl _
    have hsame := hnext.trans (heed_desk [(next.answer id text).answer] (t := s) ⟨rfl, rfl⟩)
    exact ⟨hsame.replies, hsame.pending⟩
  · exact congrArg Channel.store hchannel
  · exact congrArg Channel.writerClosed hchannel

theorem body_accepts (hbodies : Plentiful s.bodies) {buffer : Buffer} {filled : Nat}
    {bytes : List UInt8} (hphase : d.phase = .body buffer filled) (hunderway : d.phase.Underway)
    (hle : filled + bytes.length ≤ buffer.size) :
    Accepts s (d.phase.bytes ++ bytes) (s.accept d bytes).answer (s.accept d bytes).state := by
  rw [hphase] at hunderway
  obtain ⟨hleast, hword, _⟩ := hunderway
  rw [accept, hphase, Phase.bytes, List.append_assoc]
  simp only
  by_cases hall : buffer.size ≤ filled + bytes.length
  · have hwhole : (buffer.overwrite filled bytes).size ≤ filled + bytes.length := hall
    rw [if_pos hwhole, ← Buffer.overwrite_toList (Nat.le_antisymm hle hall)]
    exact deliver_accepts hbodies d.key (buffer.overwrite filled bytes) hleast hword
  · have hpart : ¬ (buffer.overwrite filled bytes).size ≤ filled + bytes.length := hall
    rw [if_neg hpart, ← Buffer.overwrite_take hle]
    have hphase' : Phase.Underway (.body (buffer.overwrite filled bytes) (filled + bytes.length)) :=
      ⟨hleast, hword, Nat.lt_of_not_le hall⟩
    exact goesOn_accepts (d := ⟨d.key, _⟩) hbodies rfl hphase'

/-- **Bytes that are read are taken in as the parser takes them.** -/
theorem accept_accepts (hbodies : Plentiful s.bodies) {bytes : List UInt8}
    (hunderway : d.phase.Underway) (hle : bytes.length ≤ d.phase.wanted) :
    Accepts s (d.phase.bytes ++ bytes) (s.accept d bytes).answer (s.accept d bytes).state := by
  cases hphase : d.phase with
  | header start =>
    rw [hphase] at hunderway hle
    have hfits : start.length + bytes.length ≤ 4 := by
      have hroom : bytes.length ≤ 4 - start.length := hle
      have hcut : start.length < 4 := hunderway
      omega
    exact header_accepts hbodies hphase hfits
  | body buffer filled =>
    have hfits : filled + bytes.length ≤ buffer.size := by
      rw [hphase] at hunderway hle
      have hroom : bytes.length ≤ buffer.size - filled := hle
      have hcut : filled < buffer.size := hunderway.2.2
      omega
    rw [← hphase]
    exact body_accepts hbodies hphase hunderway hfits

/-! ### Polls -/

/-- The decoder is as far as the parser is: after the bytes `took` and the reports `told` the future
    of `s` is that of `s'`. -/
def InStep (s : Station) (took : List UInt8) (told : List Report) (s' : Station) : Prop :=
  ∀ rest, s.future (took ++ rest) = told ++ s'.future rest

/-- The stream is over, and so is the decoder. -/
structure Over (s : Station) (took : List UInt8) (told : List Report) (s' : Station) : Prop where
  last : s.future took = told
  ended : s'.decoder = none
  closed : s'.channel.writerClosed = true
  empty : s'.channel.store.Empty

variable {took took' : List UInt8} {told told' : List Report}

theorem InStep.trans (h : InStep s took told s') (h' : InStep s' took' told' s'') :
    InStep s (took ++ took') (told ++ told') s'' := by
  intro rest
  rw [List.append_assoc, h, h', List.append_assoc]

theorem InStep.finish (h : InStep s took told s') (h' : Over s' took' told' s'') :
    Over s (took ++ took') (told ++ told') s'' := by
  refine ⟨?_, h'.ended, h'.closed, h'.empty⟩
  rw [h, h'.last]

/-- A part of a run in which the decoder takes the bytes `took` and reports `told`. -/
structure Reads (s : Station) (took : List UInt8) (told : List Report) (s' : Station) : Prop where
  ready : Ready s'
  moved : Transfers [] took s.channel.store s'.channel.store
  flag : s'.channel.writerClosed = s.channel.writerClosed
  desk : SameDesk s' (s.heed told)
  future : InStep s took told s' ∨ Over s took told s'

theorem Reads.refl (h : Ready s) : Reads s [] [] s :=
  ⟨h, Transfers.refl _, rfl, .refl s, Or.inl fun _ => rfl⟩

theorem Reads.trans (h : Reads s took told s') (hon : InStep s took told s')
    (h' : Reads s' took' told' s'') : Reads s (took ++ took') (told ++ told') s'' := by
  refine ⟨h'.ready, h.moved.trans h'.moved, h'.flag.trans h.flag, ?_, ?_⟩
  · rw [heed_append]
    exact h'.desk.trans (heed_desk told' h.desk)
  · rcases h'.future with hon' | hover
    · exact Or.inl (hon.trans hon')
    · exact Or.inr (hon.finish hover)

theorem future_of_decoder (h : s.decoder = some d) (rest : List UInt8) :
    s.future rest = reports s.ids (d.phase.bytes ++ rest) := by
  rw [future, h]

section Read

-- a read has left the channel `c`, and the registration `key`
variable {c : Channel} {key : Signal.WaitKey} {bytes : List UInt8} (h : Ready s)
  (hdecoder : s.decoder = some d) (hmoved : Transfers [] bytes s.channel.store c.store)
  (hflag : c.writerClosed = s.channel.writerClosed)

include h hdecoder hmoved hflag

/-- The stream has ended, within the frame that the decoder is in the middle of. -/
theorem stop_reads (hnone : bytes = []) (hclosed : c.writerClosed = true)
    (hempty : c.store.Empty) :
    Reads s [] [.ended] (stop { s with channel := c } ⟨key, d.phase⟩).state := by
  subst hnone
  obtain ⟨hended, hready, hdesk, hstore, hflag'⟩ :=
    stop_leaves { s with channel := c } ⟨key, d.phase⟩ h.bodies
  have hlast : s.future [] = [.ended] := by
    rw [future_of_decoder hdecoder, List.append_nil]
    exact (h.underway d hdecoder).reports s.ids
  refine ⟨hready, ?_, hflag'.trans hflag, ⟨hdesk.replies, hdesk.pending⟩,
    Or.inr ⟨hlast, hended, hflag'.trans hclosed, ?_⟩⟩
  · rw [hstore]
    exact hmoved
  · rw [hstore]
    exact hempty

theorem accept_reads (hle : bytes.length ≤ d.phase.wanted) :
    let o := accept { s with channel := c } ⟨key, d.phase⟩ bytes
    Reads s bytes o.answer o.state ∧ InStep s bytes o.answer o.state := by
  have haccepts := accept_accepts (s := { s with channel := c }) (d := ⟨key, d.phase⟩) h.bodies
    (h.underway d hdecoder) hle
  have hon : InStep s bytes (accept { s with channel := c } ⟨key, d.phase⟩ bytes).answer
      (accept { s with channel := c } ⟨key, d.phase⟩ bytes).state := by
    intro rest
    rw [future_of_decoder hdecoder, ← List.append_assoc]
    exact haccepts.future rest
  refine ⟨⟨haccepts.ready, ?_, haccepts.flag.trans hflag, ?_, Or.inl hon⟩, hon⟩
  · rw [haccepts.store]
    exact hmoved
  · exact haccepts.desk.trans (heed_desk _ ⟨rfl, rfl⟩)

/-- Nothing was there. -/
theorem wait_reads (hnone : bytes = []) :
    Reads s [] [] { s with channel := c, decoder := some ⟨key, d.phase⟩ } := by
  subst hnone
  refine ⟨⟨h.bodies, ?_⟩, hmoved, hflag, ⟨rfl, rfl⟩, Or.inl ?_⟩
  · rintro d' ⟨⟩
    exact h.underway d hdecoder
  · intro rest
    rw [List.nil_append, List.nil_append, future_of_decoder hdecoder]
    rfl

end Read

/-- What one read of the decoder leads to: `told` is new among the reports, and a read that asks for
    another has taken a byte. -/
structure Passes (s : Told) (o : Outcome (Option Status) Told) (took : List UInt8)
    (told : List Report) : Prop where
  reported : o.state.2 = s.2 ++ told
  reads : Reads s.1 took told o.state.1
  again : o.answer = none → took ≠ [] ∧ InStep s.1 took told o.state.1

theorem pass_passes {s : Told} (h : Ready s.1) (hsized : s.1.channel.store.Sized) :
    ∃ took told, Passes s (pass s) took told := by
  obtain ⟨s, before⟩ := s
  rw [pass]
  cases hdecoder : s.decoder with
  | none =>
    refine ⟨[], [], (List.append_nil before).symm, .refl h, ?_⟩
    intro hnone
    cases hnone
  | some d =>
    have hmoved := Ring.pollRead_transfers 0 d.phase.wanted (s.channel, d.key)
    have hflag := (Ring.pollRead_spares 0 d.phase.wanted (s.channel, d.key)).flag
    have hanswered := Ring.pollRead_answered 0 (h.underway d hdecoder).wanted
      (s := (s.channel, d.key)) hsized
    dsimp only
    generalize Ring.pollRead 0 d.phase.wanted (s.channel, d.key) = o at hmoved hflag hanswered
    obtain ⟨answer, ⟨channel, key⟩, effects⟩ := o
    rcases answer with (_ | ⟨b, bs⟩) | _
    · obtain ⟨hclosed, hempty⟩ := hanswered.2 rfl
      refine ⟨[], [.ended], rfl, stop_reads h hdecoder hmoved hflag rfl hclosed hempty, ?_⟩
      intro hanswer
      cases hanswer
    · obtain ⟨hreads, hon⟩ := accept_reads h hdecoder hmoved hflag hanswered.1
      exact ⟨b :: bs, _, rfl, hreads, fun _ => ⟨List.cons_ne_nil b bs, hon⟩⟩
    · refine ⟨[], [], (List.append_nil before).symm, wait_reads h hdecoder hmoved hflag rfl, ?_⟩
      intro hanswer
      cases hanswer

/-- **A poll takes bytes as the parser does**, wherever it stops. -/
theorem poll_reads (h : Ready s) (hsized : s.channel.store.Sized) :
    ∃ took, Reads s took s.poll.answer.2 s.poll.state := by
  have hloop : ∀ s' : Told, Ready s'.1 ∧ s'.1.channel.store.Sized →
      ∃ took told, (Outcome.loop pass (s.channel.store.len.toNat + 2) s').state.2 = s'.2 ++ told ∧
        Reads s'.1 took told (Outcome.loop pass (s.channel.store.len.toNat + 2) s').state.1 := by
    apply Outcome.loop_rule (Q := fun (s : Told) _ (s' : Told) =>
      Ready s.1 ∧ s.1.channel.store.Sized → ∃ took told, s'.2 = s.2 ++ told ∧ Reads s.1 took told s'.1)
    · rintro s ⟨hready, _⟩
      exact ⟨[], [], (List.append_nil _).symm, .refl hready⟩
    · rintro s status _ ⟨hready, hsized⟩
      obtain ⟨took, told, hpass⟩ := pass_passes hready hsized
      exact ⟨took, told, hpass.reported, hpass.reads⟩
    · rintro s _ s' hnone hrest ⟨hready, hsized⟩
      obtain ⟨took, told, hpass⟩ := pass_passes hready hsized
      obtain ⟨took', told', hreported, hreads⟩ :=
        hrest ⟨hpass.reads.ready, (hpass.reads.moved.count hsized).1⟩
      refine ⟨took ++ took', told ++ told', ?_, hpass.reads.trans (hpass.again hnone).2 hreads⟩
      rw [hreported, hpass.reported, List.append_assoc]
  obtain ⟨took, told, hreported, hreads⟩ := hloop (s, []) ⟨h, hsized⟩
  refine ⟨took, ?_⟩
  have htold : s.poll.answer.2 = told := hreported
  rw [htold]
  exact hreads

/-- A decoder that has ended does nothing more. -/
theorem pass_ended (h : s.decoder = none) (told : List Report) :
    pass (s, told) = .pure (some .ended) (s, told) := by
  rw [pass, h]

theorem poll_ended (h : s.decoder = none) : s.poll = .pure (.ended, []) s := by
  rw [poll, Outcome.loop, pass_ended h]
  rfl

/-- After the close a read that asks for no other is the last. -/
theorem pass_closed {s : Told} (hclosed : s.1.channel.writerClosed = true) {status : Status}
    (hanswer : (pass s).answer = some status) :
    status = .ended ∧ (pass s).state.1.decoder = none := by
  obtain ⟨s, before⟩ := s
  revert hanswer
  rw [pass]
  cases hdecoder : s.decoder with
  | none =>
    rintro ⟨⟩
    exact ⟨rfl, hdecoder⟩
  | some d =>
    obtain ⟨hready, _⟩ := Ring.pollRead_closed 0 d.phase.wanted (s := (s.channel, d.key)) hclosed
    dsimp only
    generalize Ring.pollRead 0 d.phase.wanted (s.channel, d.key) = o at hready
    obtain ⟨answer, ⟨channel, key⟩, effects⟩ := o
    have hready' : answer = .ready (s.channel.tryRead d.phase.wanted).answer := hready
    rw [hready']
    rcases (s.channel.tryRead d.phase.wanted).answer with _ | ⟨b, bs⟩
    · rintro ⟨⟩
      exact ⟨rfl, stop_decoder { s with channel := channel } ⟨key, d.phase⟩⟩
    · rintro ⟨⟩

/-- What holds between the reads of a poll of `s`. -/
structure Between (s : Station) (t : Told) : Prop where
  ready : Ready t.1
  sized : t.1.channel.store.Sized
  flag : t.1.channel.writerClosed = s.channel.writerClosed

/-- A read that asks for another has taken a byte out of the ring. -/
theorem Between.drains {t : Told} (h : Between s t) (hnone : (pass t).answer = none) :
    Between s (pass t).state ∧
      (pass t).state.1.channel.store.len.toNat < t.1.channel.store.len.toNat := by
  obtain ⟨took, told, hpass⟩ := pass_passes h.ready h.sized
  obtain ⟨hsized, hcount⟩ := hpass.reads.moved.count h.sized
  have hbyte := List.length_pos_of_ne_nil (hpass.again hnone).1
  rw [List.length_nil] at hcount
  refine ⟨⟨hpass.reads.ready, hsized, hpass.reads.flag.trans h.flag⟩, ?_⟩
  omega

/-- **A poll answers what its last read does.**  Each read before it has taken a byte, so the reads do
    not run out. -/
theorem poll_last (h : Ready s) (hsized : s.channel.store.Sized) :
    ∃ last, Between s last ∧ (pass last).answer = some s.poll.answer.1 ∧
      (pass last).state.1 = s.poll.state := by
  have hanswered : ∀ t status, Between s t → (pass t).answer = some status →
      ∃ last, Between s last ∧ (pass last).answer = some status ∧
        (pass last).state = (pass t).state := by
    intro t status ht hanswer
    exact ⟨t, ht, hanswer, rfl⟩
  have hbound : s.channel.store.len.toNat < s.channel.store.len.toNat + 2 :=
    Nat.lt_add_of_pos_right Nat.two_pos
  obtain ⟨status, hstatus, last, hlast, hanswer, hstate⟩ :=
    Outcome.loop_answers (I := Between s) (m := fun t : Told => t.1.channel.store.len.toNat)
      (Q := fun status s' => ∃ last, Between s last ∧ (pass last).answer = some status ∧
        (pass last).state = s')
      hanswered (fun _ => Between.drains) _ (s, []) ⟨h, hsized, rfl⟩ hbound
  have hpoll : s.poll.answer.1 = status := by
    show (Outcome.loop pass (s.channel.store.len.toNat + 2) (s, [])).answer.getD .pending = status
    rw [hstatus]
    rfl
  exact ⟨last, hlast, hpoll ▸ hanswer, congrArg Prod.fst hstate⟩

/-- **A poll after the close ends the decoder.** -/
theorem poll_closed (h : Ready s) (hsized : s.channel.store.Sized)
    (hclosed : s.channel.writerClosed = true) :
    s.poll.answer.1 = .ended ∧ s.poll.state.decoder = none := by
  obtain ⟨last, hlast, hanswer, hstate⟩ := poll_last h hsized
  rw [← hstate]
  exact pass_closed (hlast.flag.trans hclosed) hanswer

end Station

end Conduit.Frame

/-
  Conduit/Proofs/Frame/RoundTrip.lean
  ===================================
  **Frames that are written to a ring are recovered, one by one and in order.**

  A letter is the number of a request and the text that answers it.  Its frame says how many
  bytes belong to it, so the parser finds where it ends whatever comes behind; and the bytes
  of a text are read as that text.  Both hold for texts whose frame can say how long it is.
-/
import Conduit.Proofs.Frame.Pipeline
import Conduit.Proofs.Text.Lossy

namespace Conduit.Frame

/-! ### Letters -/

/-- An answer on its way: the number of the request, and the text. -/
abbrev Letter := UInt32 × String

namespace Letter

def frame (l : Letter) : List UInt8 := encode l.1 (Text.utf8 l.2)

/-- The text is short enough for a frame to count its bytes. -/
def Fits (l : Letter) : Prop := (Text.utf8 l.2).length < 2 ^ 32 - 4

instance (l : Letter) : Decidable l.Fits := inferInstanceAs (Decidable (_ < _))

/-- The stream of all frames. -/
def frames (ls : List Letter) : List UInt8 := ls.flatMap frame

/-- What the letters lead to, one after another: each is answered if its request is still pending. -/
def delivered (pending : List UInt32) : List Letter → List Report
  | [] => []
  | l :: ls =>
    (reported pending l.1 l.2).1 :: delivered (reported pending l.1 l.2).2 ls

variable {l l' : Letter} {pending : List UInt32} {rest rest' : List UInt8}

/-! ### Parsing frames -/

theorem contents_wordBytes (id : UInt32) (body : List UInt8) :
    contents (Text.wordBytes id ++ body) = (id, Text.lossy body) := by
  show (Text.wordOf _ _ _ _, Text.lossy body) = _
  rw [Text.wordOf_wordBytes]

/-- The bytes that a frame counts are few enough for its header. -/
theorem Fits.count (h : l.Fits) : 4 + (Text.utf8 l.2).length < UInt32.size := by
  have hfits : (Text.utf8 l.2).length < 2 ^ 32 - 4 := h
  show _ < 2 ^ 32
  omega

theorem Fits.count_toNat (h : l.Fits) :
    (4 + (Text.utf8 l.2).length).toUInt32.toNat = 4 + (Text.utf8 l.2).length :=
  UInt32.toNat_ofNat_of_lt h.count

/-- **The parser takes a frame off the front of a stream.** -/
theorem reports_letter (h : l.Fits) :
    reports pending (l.frame ++ rest)
      = (reported pending l.1 l.2).1 :: reports (reported pending l.1 l.2).2 rest := by
  obtain ⟨a, b, c, d, hheader, hannounced⟩ := header_of (Nat.le_add_right 4 _) h.count
  have hbody : (Text.wordBytes l.1 ++ Text.utf8 l.2).length = 4 + (Text.utf8 l.2).length :=
    List.length_append
  have hframe : l.frame ++ rest
      = a :: b :: c :: d :: ((Text.wordBytes l.1 ++ Text.utf8 l.2) ++ rest) := by
    rw [frame, encode, hheader, List.append_assoc, List.append_assoc, List.append_assoc]
    rfl
  rw [hframe, reports_frame hannounced hbody, contents_wordBytes, Text.lossy_utf8]

theorem reports_letters {ls : List Letter} (h : ∀ l ∈ ls, l.Fits) : ∀ pending,
    reports pending (frames ls) = delivered pending ls ++ [.ended] := by
  induction ls with
  | nil =>
    intro pending
    exact reports_cut (by decide)
  | cons l ls ih =>
    intro pending
    have hrest := ih (fun l' hl' => h l' (List.mem_cons_of_mem _ hl'))
    rw [frames, List.flatMap_cons, reports_letter (h l List.mem_cons_self), delivered]
    rw [frames] at hrest
    rw [hrest]
    rfl

/-- Each letter is answered or unknown. -/
theorem delivered_eq (ls : List Letter) : ∀ pending, ∀ r ∈ delivered pending ls,
    ∃ l ∈ ls, r = .answered l.1 l.2 ∨ r = .unknown l.1 := by
  induction ls with
  | nil =>
    intro pending r hr
    cases hr
  | cons l ls ih =>
    intro pending r hr
    rcases List.mem_cons.mp hr with rfl | hrest
    · refine ⟨l, List.mem_cons_self, ?_⟩
      rw [reported]
      split
      · exact Or.inl rfl
      · exact Or.inr rfl
    · obtain ⟨l', hl', hr'⟩ := ih _ r hrest
      exact ⟨l', List.mem_cons_of_mem _ hl', hr'⟩

theorem delivered_length (ls : List Letter) : ∀ pending,
    (delivered pending ls).length = ls.length := by
  induction ls with
  | nil =>
    intro pending
    rfl
  | cons l ls ih =>
    intro pending
    rw [delivered, List.length_cons, List.length_cons, ih]

/-! ### Frames tell where they end -/

theorem wordBytes_inj {w w' : UInt32} (h : Text.wordBytes w = Text.wordBytes w') : w = w' := by
  rw [Text.wordBytes, Text.wordBytes] at h
  obtain ⟨ha, hb, hc, hd, _⟩ : _ ∧ _ ∧ _ ∧ _ ∧ True := by
    simpa only [List.cons.injEq, and_true] using h
  rw [← Text.wordOf_wordBytes w, ha, hb, hc, hd, Text.wordOf_wordBytes]

theorem utf8_inj {s t : String} (h : Text.utf8 s = Text.utf8 t) : s = t := by
  rw [← Text.lossy_utf8 s, h, Text.lossy_utf8]

/-- **Two frames at the front of one stream are the same.** -/
theorem frame_unique (h : l.Fits) (h' : l'.Fits) (hsame : l.frame ++ rest = l'.frame ++ rest') :
    l = l' ∧ rest = rest' := by
  simp only [frame, encode, List.append_assoc] at hsame
  obtain ⟨hheader, hbehind⟩ := List.append_inj hsame rfl
  obtain ⟨hid, hbody⟩ := List.append_inj hbehind rfl
  have hcount : 4 + (Text.utf8 l.2).length = 4 + (Text.utf8 l'.2).length := by
    have hword := congrArg UInt32.toNat (wordBytes_inj hheader)
    rw [h.count_toNat, h'.count_toNat] at hword
    exact hword
  obtain ⟨htext, hrest⟩ := List.append_inj hbody (Nat.add_left_cancel hcount)
  exact ⟨Prod.ext (wordBytes_inj hid) (utf8_inj htext), hrest⟩

theorem frame_ne_nil (l : Letter) (rest : List UInt8) : l.frame ++ rest ≠ [] := by
  rw [frame, encode, Text.wordBytes]
  exact List.cons_ne_nil _ _

/-- **Different letters never make the same stream.** -/
theorem frames_inj {ls : List Letter} (h : ∀ l ∈ ls, l.Fits) : ∀ {ls' : List Letter},
    (∀ l ∈ ls', l.Fits) → frames ls = frames ls' → ls = ls' := by
  induction ls with
  | nil =>
    intro ls' _ hsame
    cases ls' with
    | nil => rfl
    | cons l' ls' => exact absurd hsame.symm (frame_ne_nil l' (frames ls'))
  | cons l ls ih =>
    intro ls' h' hsame
    cases ls' with
    | nil => exact absurd hsame (frame_ne_nil l (frames ls))
    | cons l' ls' =>
      have hstream : l.frame ++ frames ls = l'.frame ++ frames ls' := hsame
      obtain ⟨hl, hls⟩ := frame_unique (h l List.mem_cons_self) (h' l' List.mem_cons_self) hstream
      have hrest := ih (fun k hk => h k (List.mem_cons_of_mem _ hk))
        (fun k hk => h' k (List.mem_cons_of_mem _ hk)) hls
      rw [hl, hrest]

end Letter

/-! ### Answering letters -/

/-- The station after the letters were answered, one after another. -/
def Station.answerAll (s : Station) : List Letter → Station
  | [] => s
  | l :: ls => answerAll (s.answer l.1 l.2).state ls

/-- To heed what the letters lead to is to answer them. -/
theorem Station.heed_delivered (ls : List Letter) : ∀ s : Station,
    s.heed (Letter.delivered s.ids ls ++ [.ended]) = s.answerAll ls := by
  induction ls with
  | nil =>
    intro s
    rfl
  | cons l ls ih =>
    intro s
    obtain ⟨hreport, hids⟩ := s.answer_reported l.1 l.2
    have hsplit : Letter.delivered s.ids (l :: ls)
        = [(s.answer l.1 l.2).answer] ++ Letter.delivered (s.answer l.1 l.2).state.ids ls := by
      rw [Letter.delivered, ← hreport, ← hids]
      rfl
    rw [hsplit, List.append_assoc, Station.heed_append, ← Station.answer_heeded, ih]
    rfl

namespace Pipeline

open Letter (delivered frames)

variable {p : Pipeline} {ls : List Letter}

/-- While letters are sent the decoder stays, so that no write is refused for want of a reader. -/
theorem decoder_stays (hfresh : p.Fresh) {pending : List UInt32}
    (hfuture : ∀ stream, p.station.future stream = reports pending stream)
    (hfits : ∀ l ∈ ls, l.Fits) {first later : List Turn} (hsealed : p.Sealed (first ++ later))
    (hopen : (p.after first).station.channel.writerClosed = false)
    (hsent : p.sent (first ++ later) = frames ls)
    (hshort : (frames ls).length < UInt64.size) : (p.after first).station.decoder ≠ none := by
  intro hended
  have hgrows : p.sent first <+: frames ls := hsent ▸ sent_begins first later p
  have htold {stream : List UInt8} (hstream : p.sent first <+: stream) :
      p.told (first ++ later) = reports pending stream := by
    rw [← hfuture]
    exact run_ended_early hfresh hsealed hended hopen (hsent.symm ▸ hshort) hstream
  -- one letter more would have made no difference
  have hmore : ∀ l ∈ ls ++ [(0, "")], l.Fits := by
    intro l hl
    rcases List.mem_append.mp hl with hl | hl
    · exact hfits l hl
    · rw [List.mem_singleton.mp hl]
      decide +kernel
  have hsame : delivered pending ls ++ [.ended]
      = delivered pending (ls ++ [(0, "")]) ++ [.ended] := by
    rw [← Letter.reports_letters hfits, ← Letter.reports_letters hmore, ← htold hgrows]
    apply htold
    rw [frames, List.flatMap_append]
    exact hgrows.trans (List.prefix_append _ _)
  have hlength := congrArg List.length hsame
  simp only [List.length_append, Letter.delivered_length, List.length_singleton] at hlength
  omega

end Pipeline

end Conduit.Frame

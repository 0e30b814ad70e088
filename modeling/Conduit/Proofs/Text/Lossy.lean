/-
  Conduit/Proofs/Text/Lossy.lean
  ==============================
  **The bytes of a text are read as that text.**

  A character is encoded in one to four bytes.  Its first byte says how many follow and between
  which bounds the second one lies; each byte that follows gives six bits.  Of the bounds only
  those are narrow that keep out longer encodings than needed, surrogates and what lies
  beyond the last code point, and no character comes near them.
-/
import Conduit.Text.Bytes
import Conduit.Text.Lossy

namespace Conduit.Text

/-! ### Following bytes -/

variable {p : Partial} {b : UInt8} {bs : List UInt8} {n bits : Nat} {low high : UInt8}

/-- A byte that the encoding under way still needs, with others behind it. -/
theorem lossyFrom_next (hlow : low ≤ b) (hhigh : b ≤ high) :
    lossyFrom (some ⟨n + 2, low, high, bits⟩) (b :: bs)
      = lossyFrom (some ⟨n + 1, 0x80, 0xBF, bits * 64 + (b.toNat - 0x80)⟩) bs := by
  have hbyte : lossyByte (some ⟨n + 2, low, high, bits⟩) b
      = ([], some ⟨n + 1, 0x80, 0xBF, bits * 64 + (b.toNat - 0x80)⟩) := if_pos ⟨hlow, hhigh⟩
  rw [lossyFrom, hbyte]
  rfl

/-- The last byte of an encoding. -/
theorem lossyFrom_last (hlow : low ≤ b) (hhigh : b ≤ high) :
    lossyFrom (some ⟨1, low, high, bits⟩) (b :: bs)
      = Char.ofNat (bits * 64 + (b.toNat - 0x80)) :: lossyFrom none bs := by
  have hbyte : lossyByte (some ⟨1, low, high, bits⟩) b
      = ([Char.ofNat (bits * 64 + (b.toNat - 0x80))], none) := if_pos ⟨hlow, hhigh⟩
  rw [lossyFrom, hbyte]
  rfl

/-- The byte that gives the last six bits of a number, if it is not the first of an encoding. -/
def tailByte (v : Nat) : UInt8 := UInt8.ofNat (v % 64 + 0x80)

theorem tailByte_toNat (v : Nat) : (tailByte v).toNat = v % 64 + 0x80 := by
  rw [tailByte, UInt8.toNat_ofNat']
  omega

theorem tailByte_low (v : Nat) : 0x80 ≤ tailByte v := by
  rw [UInt8.le_iff_toNat_le, tailByte_toNat]
  exact Nat.le_add_left _ _

theorem tailByte_high (v : Nat) : tailByte v ≤ 0xBF := by
  rw [UInt8.le_iff_toNat_le, tailByte_toNat]
  show v % 64 + 0x80 ≤ 0xBF
  omega

/-! ### First bytes -/

/-- A first byte after which something is missing. -/
theorem lossyFrom_lead (h : Partial.lead b = some ⟨n + 1, low, high, bits⟩) :
    lossyFrom none (b :: bs) = lossyFrom (some ⟨n + 1, low, high, bits⟩) bs := by
  have hbyte : lossyByte none b = ([], some ⟨n + 1, low, high, bits⟩) := by
    rw [lossyByte, lossyLead, h]
    rfl
  rw [lossyFrom, hbyte]
  rfl

theorem lead_one : ∀ x < 128, Partial.lead (UInt8.ofNat x) = some ⟨0, 0x80, 0xBF, x⟩ := by
  decide +kernel

theorem lead_two : ∀ x < 32, 2 ≤ x →
    Partial.lead (UInt8.ofNat (x + 0xC0)) = some ⟨1, 0x80, 0xBF, x⟩ := by
  decide +kernel

/-- The second byte of three is bounded so that they do not encode what two could, nor a
    surrogate. -/
theorem lead_three : ∀ x < 16, Partial.lead (UInt8.ofNat (x + 0xE0))
    = some ⟨2, if x = 0 then 0xA0 else 0x80, if x = 13 then 0x9F else 0xBF, x⟩ := by
  decide +kernel

/-- The second byte of four is bounded so that they do not encode what three could, nor what lies
    beyond the last code point. -/
theorem lead_four : ∀ x < 5, Partial.lead (UInt8.ofNat (x + 0xF0))
    = some ⟨3, if x = 0 then 0x90 else 0x80, if x = 4 then 0x8F else 0xBF, x⟩ := by
  decide +kernel

/-! ### Characters -/

variable {c : Char}

/-- The code point of a character is not a surrogate, and is not beyond the last. -/
theorem code_bounds (c : Char) :
    c.toNat < 0xD800 ∨ 0xDFFF < c.toNat ∧ c.toNat < 0x110000 := c.valid

theorem lossyFrom_one (h : c.toNat ≤ 0x7F) :
    lossyFrom none (UInt8.ofNat c.toNat :: bs) = c :: lossyFrom none bs := by
  have hbyte : lossyByte none (UInt8.ofNat c.toNat) = ([Char.ofNat c.toNat], none) := by
    rw [lossyByte, lossyLead, lead_one c.toNat (Nat.lt_succ_of_le h)]
    rfl
  rw [lossyFrom, hbyte, Char.ofNat_toNat]
  rfl

theorem lossyFrom_two (hlow : 0x7F < c.toNat) (hhigh : c.toNat ≤ 0x7FF) :
    lossyFrom none (UInt8.ofNat (c.toNat / 64 % 32 + 0xC0) :: tailByte c.toNat :: bs)
      = c :: lossyFrom none bs := by
  have hlead := lead_two (c.toNat / 64 % 32) (Nat.mod_lt _ (by decide)) (by omega)
  have hcode : c.toNat / 64 % 32 * 64 + (c.toNat % 64 + 0x80 - 0x80) = c.toNat := by omega
  rw [lossyFrom_lead hlead, lossyFrom_last (tailByte_low _) (tailByte_high _), tailByte_toNat, hcode,
    Char.ofNat_toNat]

theorem lossyFrom_three (hlow : 0x7FF < c.toNat) (hhigh : c.toNat ≤ 0xFFFF) :
    lossyFrom none (UInt8.ofNat (c.toNat / 4096 % 16 + 0xE0) :: tailByte (c.toNat / 64)
      :: tailByte c.toNat :: bs) = c :: lossyFrom none bs := by
  have hlead := lead_three (c.toNat / 4096 % 16) (Nat.mod_lt _ (by decide))
  have hsecond := tailByte_toNat (c.toNat / 64)
  have hcode : (c.toNat / 4096 % 16 * 64 + (c.toNat / 64 % 64 + 0x80 - 0x80)) * 64
      + (c.toNat % 64 + 0x80 - 0x80) = c.toNat := by omega
  have hbelow : (if c.toNat / 4096 % 16 = 0 then 0xA0 else 0x80) ≤ tailByte (c.toNat / 64) := by
    split
    · rw [UInt8.le_iff_toNat_le, hsecond]
      show 0xA0 ≤ _
      omega
    · exact tailByte_low _
  have habove : tailByte (c.toNat / 64) ≤ (if c.toNat / 4096 % 16 = 13 then 0x9F else 0xBF) := by
    split
    · have hbounds := code_bounds c
      rw [UInt8.le_iff_toNat_le, hsecond]
      show _ ≤ 0x9F
      omega
    · exact tailByte_high _
  rw [lossyFrom_lead hlead, lossyFrom_next hbelow habove,
    lossyFrom_last (tailByte_low _) (tailByte_high _), hsecond, tailByte_toNat, hcode,
    Char.ofNat_toNat]

theorem lossyFrom_four (hlow : 0xFFFF < c.toNat) :
    lossyFrom none (UInt8.ofNat (c.toNat / 262144 % 8 + 0xF0) :: tailByte (c.toNat / 4096)
      :: tailByte (c.toNat / 64) :: tailByte c.toNat :: bs) = c :: lossyFrom none bs := by
  have hbounds := code_bounds c
  have hlead := lead_four (c.toNat / 262144 % 8) (by omega)
  have hsecond := tailByte_toNat (c.toNat / 4096)
  have hcode : ((c.toNat / 262144 % 8 * 64 + (c.toNat / 4096 % 64 + 0x80 - 0x80)) * 64
      + (c.toNat / 64 % 64 + 0x80 - 0x80)) * 64 + (c.toNat % 64 + 0x80 - 0x80) = c.toNat := by
    omega
  have hbelow : (if c.toNat / 262144 % 8 = 0 then 0x90 else 0x80) ≤ tailByte (c.toNat / 4096) := by
    split
    · rw [UInt8.le_iff_toNat_le, hsecond]
      show 0x90 ≤ _
      omega
    · exact tailByte_low _
  have habove : tailByte (c.toNat / 4096) ≤ (if c.toNat / 262144 % 8 = 4 then 0x8F else 0xBF) := by
    split
    · rw [UInt8.le_iff_toNat_le, hsecond]
      show _ ≤ 0x8F
      omega
    · exact tailByte_high _
  rw [lossyFrom_lead hlead, lossyFrom_next hbelow habove,
    lossyFrom_next (tailByte_low _) (tailByte_high _),
    lossyFrom_last (tailByte_low _) (tailByte_high _), hsecond, tailByte_toNat, tailByte_toNat, hcode,
    Char.ofNat_toNat]

/-- **The encoding of a character is read as that character.** -/
theorem lossyFrom_encode (c : Char) (bs : List UInt8) :
    lossyFrom none (String.utf8EncodeChar c ++ bs) = c :: lossyFrom none bs := by
  rw [String.utf8EncodeChar]
  by_cases hone : c.val.toNat ≤ 0x7F
  · rw [if_pos hone]
    exact lossyFrom_one hone
  rw [if_neg hone]
  by_cases htwo : c.val.toNat ≤ 0x7FF
  · rw [if_pos htwo]
    exact lossyFrom_two (Nat.lt_of_not_le hone) htwo
  rw [if_neg htwo]
  by_cases hthree : c.val.toNat ≤ 0xFFFF
  · rw [if_pos hthree]
    exact lossyFrom_three (Nat.lt_of_not_le htwo) hthree
  rw [if_neg hthree]
  exact lossyFrom_four (Nat.lt_of_not_le hthree)

/-! ### Texts -/

theorem toList_loop (bytes : ByteArray) (i : Nat) (read : List UInt8) :
    ByteArray.toList.loop bytes i read = read.reverse ++ bytes.data.toList.drop i := by
  fun_induction ByteArray.toList.loop bytes i read with
  | case1 i read hmore ih =>
    have hget : bytes.get! i = bytes.data.toList[i] := getElem!_pos bytes.data i hmore
    rw [ih, List.reverse_cons, List.append_assoc, List.drop_eq_getElem_cons hmore, hget]
    rfl
  | case2 i read hall => rw [List.drop_eq_nil_of_le (Nat.le_of_not_lt hall), List.append_nil]

theorem toList_toByteArray (bytes : List UInt8) : bytes.toByteArray.toList = bytes := by
  rw [ByteArray.toList, toList_loop, List.toList_data_toByteArray]
  rfl

theorem utf8_ofList (cs : List Char) : utf8 (String.ofList cs) = cs.flatMap String.utf8EncodeChar :=
  toList_toByteArray _

theorem lossyFrom_encodes (cs : List Char) :
    lossyFrom none (cs.flatMap String.utf8EncodeChar) = cs := by
  induction cs with
  | nil => rfl
  | cons c cs ih => rw [List.flatMap_cons, lossyFrom_encode, ih]

/-- **The bytes of a text are read as that text.** -/
theorem lossy_utf8 (s : String) : lossy (utf8 s) = s := by
  have h := utf8_ofList s.toList
  rw [String.ofList_toList] at h
  rw [lossy, h, lossyFrom_encodes, String.ofList_toList]

end Conduit.Text

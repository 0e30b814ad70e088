/-
  Conduit/Proofs/Text/Bytes.lean
  ==============================
  **Four bytes and a word are the same.**
-/
import Conduit.Text.Bytes

namespace Conduit.Text

theorem wordOf_toNat (a b c d : UInt8) :
    (wordOf a b c d).toNat = ((a.toNat * 256 + b.toNat) * 256 + c.toNat) * 256 + d.toNat := by
  have ha := a.toNat_lt
  have hb := b.toNat_lt
  have hc := c.toNat_lt
  have hd := d.toNat_lt
  rw [wordOf, UInt32.toNat_ofNat']
  omega

/-- The place values of the bytes of a word. -/
theorem shift_toNat (w : UInt32) :
    (w >>> 24).toUInt8.toNat = w.toNat / 16777216 ∧
      (w >>> 16).toUInt8.toNat = w.toNat / 65536 % 256 ∧
      (w >>> 8).toUInt8.toNat = w.toNat / 256 % 256 ∧ w.toUInt8.toNat = w.toNat % 256 := by
  have hw := w.toNat_lt
  have hshift (n : UInt32) : (w >>> n).toUInt8.toNat = (w.toNat >>> (n.toNat % 32)) % 256 := by
    rw [UInt32.toNat_toUInt8, UInt32.toNat_shiftRight]
  have hfirst : (w >>> 24).toUInt8.toNat = w.toNat / 16777216 % 256 := by
    rw [hshift, Nat.shiftRight_eq_div_pow]
    rfl
  refine ⟨?_, ?_, ?_, UInt32.toNat_toUInt8 w⟩
  · rw [hfirst]
    omega
  · rw [hshift, Nat.shiftRight_eq_div_pow]
    rfl
  · rw [hshift, Nat.shiftRight_eq_div_pow]
    rfl

/-- **A word is the word of its bytes.** -/
theorem wordOf_wordBytes (w : UInt32) :
    wordOf (w >>> 24).toUInt8 (w >>> 16).toUInt8 (w >>> 8).toUInt8 w.toUInt8 = w := by
  obtain ⟨ha, hb, hc, hd⟩ := shift_toNat w
  apply UInt32.toNat_inj.mp
  rw [wordOf_toNat, ha, hb, hc, hd]
  omega

/-- **Four bytes are the bytes of their word.** -/
theorem wordBytes_wordOf (a b c d : UInt8) : wordBytes (wordOf a b c d) = [a, b, c, d] := by
  obtain ⟨ha, hb, hc, hd⟩ := shift_toNat (wordOf a b c d)
  have hb' := b.toNat_lt
  have hc' := c.toNat_lt
  have hd' := d.toNat_lt
  rw [wordOf_toNat] at ha hb hc hd
  rw [wordBytes]
  congr 1
  · apply UInt8.toNat_inj.mp
    omega
  congr 1
  · apply UInt8.toNat_inj.mp
    omega
  congr 1
  · apply UInt8.toNat_inj.mp
    omega
  congr 1
  apply UInt8.toNat_inj.mp
  omega

end Conduit.Text

import Mathlib.Tactic.NormNum.Prime
import TasteRuntime.Lib.CrcDistance
import TasteRuntime.Crc16.BitSerial

/-!
# TasteRuntime.Crc16.Period

The generator of `Crc16.c` has four terms, and its period is 32767, the number
7 · 31 · 151.  So checksums of ECSS-E-70-41C tell all messages apart that
differ in an odd number of bits, and those of at most 32767 bits that differ in
two.
-/

namespace TasteRuntime

open Crc BigEndian Function

/-- Three terms behind the leading one. -/
theorem crc16Generator_parity : parity (msbs 16 crc16Generator) = true := by decide

theorem isPeriodicPt_iff_zeros (d : Nat) :
    IsPeriodicPt (zeroStep crc16Generator) d (top 16) ↔
      zeros crc16Generator d (top 16) = top 16 := by
  rw [zeros_eq]
  rfl

/-- **Period**: the front bit of the register comes back to itself after 32767
zero bits, and not before. -/
theorem minimalPeriod_crc16Generator :
    minimalPeriod (zeroStep crc16Generator) (top 16) = 7 * (31 * 151) := by
  have hperiod : IsPeriodicPt (zeroStep crc16Generator) (7 * (31 * 151)) (top 16) :=
    (isPeriodicPt_iff_zeros _).mpr (by decide +kernel)
  -- no quotient of the period by one of its three primes is one
  have hquotient (d : Nat) (hzeros : zeros crc16Generator d (top 16) ≠ top 16) :
      ¬ minimalPeriod (zeroStep crc16Generator) (top 16) ∣ d := fun hdvd =>
    hzeros ((isPeriodicPt_iff_zeros d).mp (isPeriodicPt_iff_minimalPeriod_dvd.mpr hdvd))
  have h217 := hquotient (7 * 31) (by decide +kernel)
  have h1057 := hquotient (7 * 151) (by decide +kernel)
  have h4681 := hquotient (31 * 151) (by decide +kernel)
  obtain ⟨a, m, ha, hm, heq⟩ := Nat.dvd_mul.mp hperiod.minimalPeriod_dvd
  obtain ⟨b, c, hb, hc, rfl⟩ := Nat.dvd_mul.mp hm
  rw [← heq] at h217 h1057 h4681 ⊢
  obtain rfl | rfl := (Nat.dvd_prime (by norm_num)).mp ha
  · exact absurd (by simpa using Nat.mul_dvd_mul hb hc) h4681
  · obtain rfl | rfl := (Nat.dvd_prime (by norm_num)).mp hb
    · exact absurd (Nat.mul_dvd_mul (dvd_refl 7) (by simpa using hc)) h1057
    · obtain rfl | rfl := (Nat.dvd_prime (by norm_num)).mp hc
      · exact absurd (by decide) h217
      · rfl

theorem isPeriodicPt_crc16Generator_iff (d : Nat) :
    IsPeriodicPt (zeroStep crc16Generator) d (top 16) ↔ 32767 ∣ d := by
  rw [isPeriodicPt_iff_minimalPeriod_dvd, minimalPeriod_crc16Generator]

/-- The bytes of a register are its bits. -/
theorem bits_toBytes_two (c : BitVec 16) : bits (toBytes 2 c.toNat) = msbs 16 c := by
  have hbyte (x k : Nat) (hk : k < 8) :
      (UInt8.ofNat x).toBitVec.getMsbD k = x.testBit (7 - k) := by
    have hofNat : (UInt8.ofNat x).toBitVec = BitVec.ofNat 8 x := rfl
    rw [hofNat, BitVec.getMsbD_eq_getLsbD, BitVec.getLsbD_ofNat]
    simp [hk, show 7 - k < 8 by omega]
  have hword (k : Nat) (hk : k < 16) : c.getMsbD k = c.toNat.testBit (15 - k) := by
    rw [BitVec.getMsbD_eq_getLsbD, BitVec.getLsbD]
    simp [hk]
  rw [toBytes_two, bits_cons, bits_cons]
  refine List.ext_getElem (by simp [bits]) fun i hi _ => ?_
  have hi' : i < 16 := by simpa [bits] using hi
  simp only [bits, List.flatMap_nil, List.append_nil, msbs, List.getElem_map, List.getElem_range,
    hword i hi']
  by_cases hfront : i < 8
  · rw [List.getElem_append_left (by simpa using hfront)]
    simp only [byteBits, msbs, List.getElem_map, List.getElem_range, hbyte _ i hfront]
    rw [show (256 : Nat) = 2 ^ 8 from rfl, Nat.testBit_div_two_pow,
      show 7 - i + 8 = 15 - i by omega]
  · rw [List.getElem_append_right (by simpa using hfront)]
    simp only [byteBits, msbs, List.getElem_map, List.getElem_range, List.length_map,
      List.length_range, hbyte _ (i - 8) (by omega)]
    rw [show 7 - (i - 8) = 15 - i by omega]

/-- **`calculateCrc16`** followed by its own value leaves no bit set. -/
theorem register_calculateCrc16 (data : List UInt8) :
    register crc16Generator 0xFFFF#16 (bits (data ++ toBytes 2 (calculateCrc16 data).toNat)) =
      0#16 := by
  rw [toNat_calculateCrc16, bits_append, register_append, bits_toBytes_two, register_msbs]
  exact BitVec.shiftLeft_eq_zero (Nat.le_refl 16)

end TasteRuntime

import TasteRuntime.Lib.Crc
import TasteRuntime.Crc16

/-!
# TasteRuntime.Crc16.BitSerial

The table-driven checksum of `Crc16.c` is the bit-serial CRC with generator
x^16 + x^12 + x^5 + 1: each entry of the table is the register eight bits
leave (`toNat_crc16Table`), and a byte takes eight bits at once
(`toNat_crc16`).
-/

namespace TasteRuntime

open Crc BigEndian

/-- x^16 + x^12 + x^5 + 1, without its leading term. -/
def crc16Generator : BitVec 16 := 0x1021#16

/-- The CRC of ECSS-E-70-41C Annex B.1, bit by bit: most significant bit first,
from a register of ones, without a final inversion. -/
def crc16BitSerial (data : List UInt8) : UInt16 :=
  UInt16.ofBitVec (register crc16Generator 0xFFFF#16 (bits data))

/-- The generator has a constant term. -/
theorem crc16Generator_constant : crc16Generator.getMsbD (16 - 1) = true := by decide

/-- The table lists the registers the bits of its indices leave. -/
theorem map_toNat_crc16Table : crc16Table.map UInt32.toNat =
    (List.range 256).map fun x =>
      (register crc16Generator 0#16 (msbs 8 (BitVec.ofNat 8 x))).toNat := by
  decide +kernel

/-- An entry of the table is the register the bits of its index leave. -/
theorem toNat_crc16Table : ∀ x < 256, (crc16Table.getD x 0).toNat =
    (register crc16Generator 0#16 (msbs 8 (BitVec.ofNat 8 x))).toNat := by
  intro x hx
  have hentry := congrArg (fun table => table[x]?.getD 0) map_toNat_crc16Table
  have hindex : x < crc16Table.length := length_crc16Table.symm ▸ hx
  simpa [hx, hindex] using hentry

/-- The front of the register, exclusive-or-ed with a byte. -/
theorem zipWith_msbs_byteBits (c : BitVec 16) (data : UInt8) :
    List.zipWith (· ^^ ·) (msbs (byteBits data).length c) (byteBits data) =
      msbs 8 (BitVec.ofNat 8 (c.toNat / 256 ^^^ data.toNat)) := by
  refine List.ext_getElem (by simp) fun i hi _ => ?_
  have hi' : i < 8 := by simpa using hi
  have hfront : (c.toNat / 256).testBit (7 - i) = c.toNat.testBit (15 - i) := by
    rw [show (256 : Nat) = 2 ^ 8 from rfl, Nat.testBit_div_two_pow,
      show 7 - i + 8 = 15 - i by omega]
  have hdata : data.toBitVec.toNat = data.toNat := rfl
  simp only [byteBits, msbs, List.getElem_zipWith, List.getElem_map, List.getElem_range,
    BitVec.getMsbD_eq_getLsbD, BitVec.getLsbD_ofNat, Nat.testBit_xor]
  rw [BitVec.getLsbD, BitVec.getLsbD, hdata, show 8 - 1 - i = 7 - i by omega, hfront]
  simp [hi', show i < 16 by omega, show 7 - i < 8 by omega]

/-- One byte is eight bits. -/
theorem toNat_crc16 (data : UInt8) {crc : UInt32} {c : BitVec 16} (h : crc.toNat = c.toNat) :
    (crc16 data crc).toNat = (register crc16Generator c (byteBits data)).toNat := by
  have hc : c.toNat < 2 ^ 16 := c.isLt
  have hdata := data.toNat_lt
  have hlt : c.toNat / 256 ^^^ data.toNat < 256 :=
    Nat.xor_lt_two_pow (n := 8) (by omega) (by omega)
  have hindex : (crc16Index data crc).toNat = c.toNat / 256 ^^^ data.toNat := by
    rw [crc16Index, toNat_and_low, UInt32.toNat_xor, toNat_shiftRight_byte, h,
      UInt8.toNat_toUInt32, Nat.mod_eq_of_lt hlt]
  have hshift : ((crc <<< 8) &&& 0xFF00).toNat = (c <<< 8).toNat := by
    rw [UInt32.toNat_and, toNat_shiftLeft_byte, h, BitVec.toNat_shiftLeft, Nat.shiftLeft_eq,
      show UInt32.toNat 0xFF00 = (2 ^ 8 - 1) * 2 ^ 8 from rfl, and_mask]
    omega
  rw [register_eq_table, zipWith_msbs_byteBits, BitVec.toNat_xor, ← toNat_crc16Table _ hlt,
    length_byteBits, ← hshift, crc16, hindex, UInt32.toNat_xor, Nat.xor_comm]

/-- The accumulator after a byte string; it never needs more than 16 bits. -/
theorem toNat_foldl_crc16 (data : List UInt8) {crc : UInt32} {c : BitVec 16}
    (h : crc.toNat = c.toNat) :
    (data.foldl (fun crc byte => crc16 byte crc) crc).toNat =
      (register crc16Generator c (bits data)).toNat := by
  induction data generalizing crc c with
  | nil => exact h
  | cons b data ih =>
      rw [List.foldl_cons, bits_cons, register_append]
      exact ih (toNat_crc16 b h)

/-- **`calculateCrc16`** is the register after the bits of its input. -/
theorem toNat_calculateCrc16 (data : List UInt8) :
    (calculateCrc16 data).toNat = (register crc16Generator 0xFFFF#16 (bits data)).toNat := by
  have hstart : crc16InitialValue.toNat = (0xFFFF#16).toNat := rfl
  rw [calculateCrc16, UInt32.toNat_toUInt16, toNat_foldl_crc16 data hstart]
  exact Nat.mod_eq_of_lt (BitVec.isLt _)

/-- Table and bits give one checksum. -/
theorem calculateCrc16_eq (data : List UInt8) : calculateCrc16 data = crc16BitSerial data :=
  UInt16.toNat_inj.mp (toNat_calculateCrc16 data)

/-- **Table and bits**: both compute the same CRC, and after every byte the
accumulator has no bit above its sixteen. -/
theorem calculateCrc16_eq_bitSerial (data : List UInt8) :
    calculateCrc16 data = crc16BitSerial data ∧
      ∀ k, ((data.take k).foldl (fun crc byte => crc16 byte crc) crc16InitialValue).toNat <
        2 ^ 16 := by
  constructor
  · exact calculateCrc16_eq data
  · intro k
    have hstart : crc16InitialValue.toNat = (0xFFFF#16).toNat := rfl
    rw [toNat_foldl_crc16 (data.take k) hstart]
    exact BitVec.isLt _

/-- **Bursts**: byte strings of one length with one checksum that differ in 16
consecutive bits only are the same. -/
theorem eq_of_calculateCrc16_eq {data data' : List UInt8} (hlen : data.length = data'.length)
    (h : calculateCrc16 data = calculateCrc16 data') (s : Nat)
    (hburst : ∀ i, (bits data)[i]? ≠ (bits data')[i]? → s ≤ i ∧ i < s + 16) : data = data' := by
  have hregister : register crc16Generator 0xFFFF#16 (bits data) =
      register crc16Generator 0xFFFF#16 (bits data') := by
    apply BitVec.eq_of_toNat_eq
    rw [← toNat_calculateCrc16, ← toNat_calculateCrc16, h]
  exact bits_inj (eq_of_register_eq crc16Generator_constant (by simp [hlen]) hregister s hburst)

end TasteRuntime

import TasteRuntime.Packetizer
import TasteRuntime.CCSDSPacketizer
import TasteRuntime.Crc16.BitSerial
import TasteRuntime.IsoChecksum.Standard

/-!
# TasteRuntime.Integrity

What the checks of a format say about a packet that was altered on its way.

In the default format an alteration of header and data inside 16 consecutive
bits is always noticed (`depacketize_of_burst`), and so is any single bit but
those of the sender PID, which stands between the bytes the CRC covers and the
CRC itself (`depacketize_flipBit_iff`).  In the strict format a replaced byte
and two neighbours in each other's place are noticed unless the bytes agree
modulo 255 (`depacketize_of_replaced_or_swapped`).
-/

namespace TasteRuntime

open CMemory BigEndian Crc PacketFormat

namespace PacketFormat

/-! ## altered packets -/

/-- The CRC of a packet stands behind the bytes it covers. -/
theorem wordAt_eq_of_drop_eq (hlen : packet'.length = packet.length) (hle : 4 ≤ packet.length)
    (h : packet.drop (packet.length - 4) = packet'.drop (packet.length - 4)) :
    wordAt packet' (packet'.length - 2) = wordAt packet (packet.length - 2) := by
  have hindex : packet.length - 2 = packet.length - 4 + 2 := by omega
  rw [hlen, hindex, ← wordAt_drop, ← wordAt_drop, h]

/-- Two accepted packets of one length that differ in a burst inside header
and data are the same. -/
theorem eq_of_defaultVerdict_of_burst {packetType : PacketType}
    (hlen : packet'.length = packet.length) (h : defaultVerdict w packetType packet = .accept)
    (h' : defaultVerdict w packetType packet' = .accept) (s : Nat)
    (hburst : ∀ i, (bits packet)[i]? ≠ (bits packet')[i]? →
      s ≤ i ∧ i < s + 16 ∧ i < 8 * (packet.length - 4)) : packet = packet' := by
  obtain ⟨hle, -, hcrc, -⟩ := defaultVerdict_eq_accept_iff.mp h
  obtain ⟨-, -, hcrc', -⟩ := defaultVerdict_eq_accept_iff.mp h'
  have htrailer : packet.drop (packet.length - 4) = packet'.drop (packet.length - 4) :=
    drop_eq_of_bits_agree fun i hi => by
      by_contra hne
      exact absurd (hburst i hne).2.2 (Nat.not_lt.mpr hi)
  rw [wordAt_eq_of_drop_eq hlen (by omega) htrailer, hcrc, hlen] at hcrc'
  have hcovered : packet.take (packet.length - 4) = packet'.take (packet.length - 4) := by
    refine eq_of_calculateCrc16_eq (by simp [hlen]) hcrc' s fun i hne => ?_
    rw [bits_take, bits_take, List.getElem?_take, List.getElem?_take] at hne
    split at hne
    · exact ⟨(hburst i hne).1, (hburst i hne).2.1⟩
    · contradiction
  rw [← List.take_append_drop (packet.length - 4) packet, hcovered, htrailer,
    List.take_append_drop]

/-- Two accepted packets of one length with the same header and data have the
same CRC. -/
theorem drop_eq_of_defaultVerdict {packetType : PacketType}
    (hlen : packet'.length = packet.length) (h : defaultVerdict w packetType packet = .accept)
    (h' : defaultVerdict w packetType packet' = .accept)
    (hcovered : packet.take (packet.length - 4) = packet'.take (packet.length - 4)) :
    packet.drop (packet.length - 2) = packet'.drop (packet.length - 2) := by
  obtain ⟨hle, -, hcrc, -⟩ := defaultVerdict_eq_accept_iff.mp h
  obtain ⟨-, -, hcrc', -⟩ := defaultVerdict_eq_accept_iff.mp h'
  have hfield (l : List UInt8) (hl : l.length = packet.length) :
      toBytes 2 (wordAt l (packet.length - 2)).toNat = l.drop (packet.length - 2) := by
    rw [toBytes_wordAt (by omega), List.take_of_length_le (by rw [List.length_drop]; omega)]
  rw [hlen] at hcrc'
  rw [← hfield packet rfl, ← hfield packet' hlen, hcrc, hcrc', hcovered]

/-- The sender PID is not checked: a packet that differs in it alone is
accepted as well. -/
theorem defaultVerdict_eq_of_senderPid {packetType : PacketType}
    (hlen : packet'.length = packet.length) (h : defaultVerdict w packetType packet = .accept)
    (hcovered : packet.take (packet.length - 4) = packet'.take (packet.length - 4))
    (hcrc : packet.drop (packet.length - 2) = packet'.drop (packet.length - 2)) :
    defaultVerdict w packetType packet' = .accept := by
  obtain ⟨hle, hsize, hmatch, htype⟩ := defaultVerdict_eq_accept_iff.mp h
  have hsize' : defaultSize packet' = defaultSize packet := by
    rw [← defaultSize_take (k := packet.length - 4) (by omega), ← hcovered,
      defaultSize_take (by omega)]
  have htype' : defaultType packet' = defaultType packet := by
    rw [← defaultType_take (k := packet.length - 4) (by omega), ← hcovered,
      defaultType_take (by omega)]
  have hcrc' : wordAt packet' (packet.length - 2) = wordAt packet (packet.length - 2) := by
    rw [← Nat.add_zero (packet.length - 2), ← wordAt_drop, ← hcrc, wordAt_drop]
  rw [defaultVerdict_eq_accept_iff, hlen, hsize', htype', hcrc', ← hcovered]
  exact ⟨hle, hsize, hmatch, htype⟩

/-- A flipped bit of the CRC is noticed. -/
theorem defaultVerdict_flipBit_crc_ne_accept {packetType : PacketType}
    (h : defaultVerdict w packetType packet = .accept) (hi : i < 8 * packet.length)
    (hcrc : 8 * (packet.length - 2) ≤ i) :
    defaultVerdict w packetType (flipBit packet i) ≠ .accept := by
  intro haccept
  have hcovered : packet.take (packet.length - 4) = (flipBit packet i).take (packet.length - 4) :=
    take_flipBit packet (by omega)
  have hsame := drop_eq_of_defaultVerdict (length_flipBit packet i) h haccept hcovered
  have hfront : packet.take (packet.length - 2) = (flipBit packet i).take (packet.length - 2) :=
    take_flipBit packet hcrc
  refine flipBit_ne hi ?_
  rw [← List.take_append_drop (packet.length - 2) (flipBit packet i), ← hfront, ← hsame,
    List.take_append_drop]

/-- A single altered bit is noticed exactly outside the sender PID. -/
theorem defaultVerdict_flipBit_ne_accept_iff {packetType : PacketType}
    (h : defaultVerdict w packetType packet = .accept) (hi : i < 8 * packet.length) :
    defaultVerdict w packetType (flipBit packet i) ≠ .accept ↔
      i < 8 * (packet.length - 4) ∨ 8 * (packet.length - 2) ≤ i := by
  have hlen := length_flipBit packet i
  constructor
  · intro hreject
    by_contra hpid
    exact hreject (defaultVerdict_eq_of_senderPid hlen h (take_flipBit packet (by omega))
      (drop_flipBit packet (by omega)))
  · rintro (hbody | hcrc)
    · intro haccept
      refine flipBit_ne hi (eq_of_defaultVerdict_of_burst hlen h haccept i fun j hne => ?_).symm
      have hflip := eq_of_bits_flipBit_ne hne
      omega
    · exact defaultVerdict_flipBit_crc_ne_accept h hi hcrc

end PacketFormat

namespace Packetizer

/-- **Bursts**: a packet that differs from an accepted one inside 16
consecutive bits of header and data is rejected. -/
theorem depacketize_of_burst (self receiver : Packetizer) (packetType : PacketType)
    (busId : Bus) (receiveBus : Bus') (out out' accepted : DepacketizeOut)
    (hw : packet.length < 2 ^ w)
    (haccept : depacketize w self packetType packet busId out = .ok (true, accepted))
    (hlen : packet'.length = packet.length) (hne : packet' ≠ packet) (s : Nat)
    (hburst : ∀ i, (bits packet)[i]? ≠ (bits packet')[i]? →
      s ≤ i ∧ i < s + 16 ∧ i < 8 * (packet.length - 4)) :
    ∃ outcome, depacketize w receiver packetType packet' receiveBus out' = .ok outcome ∧
      outcome.1 = false := by
  rw [depacketize_eq self packetType busId out hw, Except.ok.injEq,
    Verdict.outcome_eq_true_iff] at haccept
  refine ⟨_, depacketize_eq receiver packetType receiveBus out' (hlen ▸ hw), ?_⟩
  rw [Verdict.outcome_fst_eq_false_iff]
  intro haccept'
  exact hne (eq_of_defaultVerdict_of_burst hlen haccept.1 haccept' s hburst).symm

/-- Sixteen bits across three bytes of the smallest packet. -/
theorem depacketize_of_burst_header :
    ∃ outcome, depacketize 16 ⟨0⟩ .telemetry
        [0, 0, 0x0F, 0xFF, 0x0F, 0xFF, 0xFF, 0xFF, 0, 0, 0xA8, 0xF1] () ⟨0, 0, 0, 0, some 0⟩ =
        .ok outcome ∧ outcome.1 = false :=
  depacketize_of_burst ⟨0⟩ ⟨0⟩ .telemetry () () ⟨0, 0, 0, 0, some 0⟩ ⟨0, 0, 0, 0, some 0⟩
    ⟨0, 0, 8, 0, some 0⟩
    (show [0, 0, 0, 0, 0xFF, 0xFF, 0xFF, 0xFF, 0, 0, 0xA8, 0xF1].length < 2 ^ 16 by decide)
    (by decide +kernel) rfl (by decide) 20
    fun i hne => by
      by_cases hi : i < 96
      · have hbits : ∀ i < 96,
            (bits [0, 0, 0, 0, 0xFF, 0xFF, 0xFF, 0xFF, 0, 0, 0xA8, 0xF1])[i]? ≠
              (bits [0, 0, 0x0F, 0xFF, 0x0F, 0xFF, 0xFF, 0xFF, 0, 0, 0xA8, 0xF1])[i]? →
            20 ≤ i ∧ i < 36 ∧ i < 64 := by
          decide +kernel
        exact hbits i hi hne
      · rw [List.getElem?_eq_none (by simpa using hi), List.getElem?_eq_none (by simpa using hi)]
          at hne
        contradiction

/-- **Single bits**: with one bit flipped an accepted packet is rejected
exactly if the bit is not one of the sender PID. -/
theorem depacketize_flipBit_iff (self receiver : Packetizer) (packetType : PacketType)
    (busId : Bus) (receiveBus : Bus') (out out' accepted : DepacketizeOut)
    (hw : packet.length < 2 ^ w)
    (haccept : depacketize w self packetType packet busId out = .ok (true, accepted))
    (hi : i < 8 * packet.length) :
    ∃ outcome, depacketize w receiver packetType (flipBit packet i) receiveBus out' =
        .ok outcome ∧
      (outcome.1 = false ↔ i < 8 * (packet.length - 4) ∨ 8 * (packet.length - 2) ≤ i) := by
  rw [depacketize_eq self packetType busId out hw, Except.ok.injEq,
    Verdict.outcome_eq_true_iff] at haccept
  refine ⟨_, depacketize_eq receiver packetType receiveBus out' (by simpa using hw), ?_⟩
  rw [Verdict.outcome_fst_eq_false_iff, defaultVerdict_flipBit_ne_accept_iff haccept.1 hi]

/-- The first bit of the smallest packet. -/
theorem depacketize_flipBit_iff_zero :
    ∃ outcome, depacketize 16 ⟨0⟩ .telemetry
        (flipBit [0, 0, 0, 0, 0xFF, 0xFF, 0xFF, 0xFF, 0, 0, 0xA8, 0xF1] 0) ()
        ⟨0, 0, 0, 0, some 0⟩ = .ok outcome ∧
      (outcome.1 = false ↔ 0 < 8 * (12 - 4) ∨ 8 * (12 - 2) ≤ 0) :=
  depacketize_flipBit_iff ⟨0⟩ ⟨0⟩ .telemetry () () ⟨0, 0, 0, 0, some 0⟩ ⟨0, 0, 0, 0, some 0⟩
    ⟨0, 0, 8, 0, some 0⟩ (by decide) (by decide +kernel) (by decide)

/-- A flipped bit of the sender PID goes unnoticed, and the packet is
attributed to another sender. -/
theorem depacketize_flipBit_senderPid :
    depacketize 32 ⟨0⟩ .telemetry [0, 0, 0, 0, 0xFF, 0xFF, 0xFF, 0xFF, 0, 0, 0xA8, 0xF1] ()
        ⟨0, 0, 0, 0, some 0⟩ = .ok (true, ⟨0, 0, 8, 0, some 0⟩) ∧
      depacketize 32 ⟨0⟩ .telemetry
        (flipBit [0, 0, 0, 0, 0xFF, 0xFF, 0xFF, 0xFF, 0, 0, 0xA8, 0xF1] 79) ()
        ⟨0, 0, 0, 0, some 0⟩ = .ok (true, ⟨1, 0, 8, 0, some 0⟩) := by
  constructor <;> decide +kernel

end Packetizer

/-! ## altered strict packets -/

namespace PacketFormat

/-- A strict packet ends with the checksum of what stands before. -/
theorem toBytes_calculate_of_strictVerdict {packetType : PacketType}
    (h : strictVerdict packetType (covered ++ checksum) = .accept) (hlen : checksum.length = 2) :
    toBytes 2 (IsoChecksum.calculate covered).toNat = checksum := by
  obtain ⟨-, -, hmatch, -⟩ := strictVerdict_eq_accept_iff.mp h
  rw [List.length_append, hlen, Nat.add_sub_cancel, List.take_left' rfl] at hmatch
  rw [← hmatch, toBytes_wordAt (by rw [List.length_append]; omega), List.drop_left' rfl,
    List.take_of_length_le (by omega)]

/-- Two accepted strict packets with the same checksum have the same two sums. -/
theorem standardSums_eq_of_strictVerdict {packetType : PacketType}
    (h : strictVerdict packetType (covered ++ checksum) = .accept)
    (h' : strictVerdict packetType (covered' ++ checksum) = .accept) (hlen : checksum.length = 2) :
    IsoChecksum.standardSums covered = IsoChecksum.standardSums covered' := by
  have hsame := (toBytes_calculate_of_strictVerdict h hlen).trans
    (toBytes_calculate_of_strictVerdict h' hlen).symm
  rw [toBytes_two_inj, IsoChecksum.calculate_eq_standard, IsoChecksum.calculate_eq_standard]
    at hsame
  exact IsoChecksum.standardSums_eq_of_standard_eq hsame

/-- The last two bytes of a message. -/
theorem exists_checksum (rest : List UInt8) (h : 2 ≤ rest.length) :
    ∃ data checksum, rest = data ++ checksum ∧ checksum.length = 2 :=
  ⟨rest.take (rest.length - 2), rest.drop (rest.length - 2), (List.take_append_drop _ _).symm,
    by rw [List.length_drop]; omega⟩

/-- Two accepted strict packets that differ in one byte have bytes there that
agree modulo 255. -/
theorem mod_eq_of_strictVerdict_replace {packetType : PacketType} {a b : UInt8}
    (h : strictVerdict packetType (front ++ a :: rest) = .accept)
    (h' : strictVerdict packetType (front ++ b :: rest) = .accept) :
    a.toNat % 255 = b.toNat % 255 := by
  by_cases hrest : 2 ≤ rest.length
  · obtain ⟨data, checksum, rfl, hlen⟩ := exists_checksum rest hrest
    rw [← List.cons_append, ← List.append_assoc] at h h'
    have hsums := congrArg Fletcher.Sums.c0 (standardSums_eq_of_strictVerdict h h' hlen)
    simp only [IsoChecksum.standardSums, IsoChecksum.residues, List.map_append, List.map_cons,
      Fletcher.c0_replace_iff] at hsums
    exact (ZMod.natCast_eq_natCast_iff' _ _ _).mp hsums
  · -- the byte is one of the checksum, which the other bytes determine
    obtain ⟨hlong, -⟩ := strictVerdict_eq_accept_iff.mp h
    rw [List.length_append, List.length_cons] at hlong
    obtain ⟨covered, low, rfl, hlow⟩ : ∃ covered low, front = covered ++ low ∧
        low.length + rest.length = 1 :=
      ⟨front.take (front.length + rest.length - 1), front.drop (front.length + rest.length - 1),
        (List.take_append_drop _ _).symm, by rw [List.length_drop]; omega⟩
    rw [List.append_assoc] at h h'
    have hsame := (toBytes_calculate_of_strictVerdict h (by simp; omega)).symm.trans
      (toBytes_calculate_of_strictVerdict h' (by simp; omega))
    rw [List.append_cancel_left_eq, List.cons.injEq] at hsame
    rw [hsame.1]

/-- Two accepted strict packets in which two neighbours of the covered part
stand in each other's place have neighbours that agree modulo 255. -/
theorem mod_eq_of_strictVerdict_swap {packetType : PacketType} {a b : UInt8}
    (h : strictVerdict packetType (front ++ a :: b :: rest) = .accept)
    (h' : strictVerdict packetType (front ++ b :: a :: rest) = .accept)
    (hrest : 2 ≤ rest.length) : a.toNat % 255 = b.toNat % 255 := by
  obtain ⟨data, checksum, rfl, hlen⟩ := exists_checksum rest hrest
  rw [← List.cons_append, ← List.cons_append, ← List.append_assoc] at h h'
  have hsums := congrArg Fletcher.Sums.c1 (standardSums_eq_of_strictVerdict h h' hlen)
  simp only [IsoChecksum.standardSums, IsoChecksum.residues, List.map_append, List.map_cons,
    Fletcher.c1_swap_iff] at hsums
  exact (ZMod.natCast_eq_natCast_iff' _ _ _).mp hsums

/-- Only 0x00 and 0xFF agree modulo 255. -/
theorem exchanged_of_mod_eq {a b : UInt8} (hne : a ≠ b) (h : a.toNat % 255 = b.toNat % 255) :
    (a = 0 ∧ b = 0xFF) ∨ (a = 0xFF ∧ b = 0) := by
  have ha := a.toNat_lt
  have hb := b.toNat_lt
  have hne' : a.toNat ≠ b.toNat := mt UInt8.toNat_inj.mp hne
  have hcases : (a.toNat = 0 ∧ b.toNat = 255) ∨ (a.toNat = 255 ∧ b.toNat = 0) := by omega
  exact hcases.imp (fun h => ⟨UInt8.toNat_inj.mp h.1, UInt8.toNat_inj.mp h.2⟩)
    (fun h => ⟨UInt8.toNat_inj.mp h.1, UInt8.toNat_inj.mp h.2⟩)

end PacketFormat

namespace CCSDSPacketizer

/-- A packet the checks refuse is rejected. -/
theorem depacketize_of_strictVerdict_ne_accept (receiver : Packetizer) (packetType : PacketType)
    (receiveBus : Bus) (out : DepacketizeOut) (hsize : 16 ≤ w) (hw : packet.length < 2 ^ w)
    (h : strictVerdict packetType packet ≠ .accept) :
    ∃ outcome, depacketize w receiver packetType packet receiveBus out = .ok outcome ∧
      outcome.1 = false :=
  ⟨_, depacketize_eq receiver packetType receiveBus out hsize hw,
    (Verdict.outcome_fst_eq_false_iff).mpr h⟩

/-- **Replaced bytes, neighbours in each other's place**: unless the bytes
agree modulo 255, an accepted packet altered so is rejected. -/
theorem depacketize_of_replaced_or_swapped (self receiver : Packetizer) (packetType : PacketType)
    (busId receiveBus : Bus) (out out' accepted : DepacketizeOut) (hsize : 16 ≤ w)
    (hw : packet.length < 2 ^ w)
    (haccept : depacketize w self packetType packet busId out = .ok (true, accepted)) :
    (∀ front a b rest, packet = front ++ a :: rest → a ≠ b → ¬(a = 0x00 ∧ b = 0xFF) →
      ¬(a = 0xFF ∧ b = 0x00) →
      ∃ outcome, depacketize w receiver packetType (front ++ b :: rest) receiveBus out' =
          .ok outcome ∧ outcome.1 = false) ∧
    (∀ front a b rest, packet = front ++ a :: b :: rest → 2 ≤ rest.length →
      a.toNat % 255 ≠ b.toNat % 255 →
      ∃ outcome, depacketize w receiver packetType (front ++ b :: a :: rest) receiveBus out' =
          .ok outcome ∧ outcome.1 = false) := by
  rw [depacketize_eq self packetType busId out hsize hw, Except.ok.injEq,
    Verdict.outcome_eq_true_iff] at haccept
  constructor
  · rintro front a b rest rfl hne hup hdown
    apply depacketize_of_strictVerdict_ne_accept _ _ _ _ hsize (by simpa using hw)
    intro haccept'
    have hexchanged :=
      exchanged_of_mod_eq hne (mod_eq_of_strictVerdict_replace haccept.1 haccept')
    exact hexchanged.elim hup hdown
  · rintro front a b rest rfl hrest hne
    apply depacketize_of_strictVerdict_ne_accept _ _ _ _ hsize (by simpa using hw)
    intro haccept'
    exact hne (mod_eq_of_strictVerdict_swap haccept.1 haccept' hrest)

/-- A replaced size field and swapped destination bytes in a packet of one
byte of data. -/
theorem depacketize_of_replaced_or_swapped_one :
    (∃ outcome, depacketize 32 ⟨0⟩ .telemetry [0x08, 1, 0xC0, 5, 0, 3, 7, 0x07, 0x21] ()
        ⟨0, 0, 0, 0, some 0⟩ = .ok outcome ∧ outcome.1 = false) ∧
      ∃ outcome, depacketize 32 ⟨0⟩ .telemetry [1, 0x08, 0xC0, 5, 0, 2, 7, 0x07, 0x21] ()
        ⟨0, 0, 0, 0, some 0⟩ = .ok outcome ∧ outcome.1 = false :=
  have h := depacketize_of_replaced_or_swapped (w := 32) ⟨0⟩ ⟨0⟩ .telemetry () ()
    ⟨0, 0, 0, 0, some 0⟩ ⟨0, 0, 0, 0, some 0⟩ ⟨0, 1, 6, 1, some 0⟩ (by decide) (by decide)
    (by decide +kernel)
  ⟨h.1 [0x08, 1, 0xC0, 5, 0] 2 3 [7, 0x07, 0x21] rfl (by decide) (by decide) (by decide),
    h.2 [] 0x08 1 [0xC0, 5, 0, 2, 7, 0x07, 0x21] rfl (by decide) (by decide)⟩

end CCSDSPacketizer

end TasteRuntime

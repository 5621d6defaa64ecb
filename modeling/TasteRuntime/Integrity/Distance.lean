import TasteRuntime.Crc16.Period
import TasteRuntime.Integrity

/-!
# TasteRuntime.Integrity.Distance

How many altered bits the CRC of the default format notices.  Besides the
sender PID, which it does not cover, it notices any odd number, and in packets
of up to 4097 bytes any two, so that up to three never go unnoticed there
(`depacketize_of_distance`).  That bound is the right one: two altered bits of
the data go unnoticed exactly if they are a multiple of 32767 bits apart
(`depacketize_flipBit_flipBit_iff`).
-/

namespace TasteRuntime

open CMemory BigEndian Crc PacketFormat

namespace PacketFormat

/-- A packet without its sender PID. -/
def withoutSenderPid (packet : List UInt8) : List UInt8 :=
  packet.take (packet.length - 4) ++ packet.drop (packet.length - 2)

theorem length_withoutSenderPid (h : 4 ≤ packet.length) :
    (withoutSenderPid packet).length = packet.length - 2 := by
  rw [withoutSenderPid, List.length_append, List.length_take, List.length_drop]
  omega

/-- An accepted packet leaves no bit of the register set. -/
theorem register_withoutSenderPid {packetType : PacketType}
    (h : defaultVerdict w packetType packet = .accept) :
    register crc16Generator 0xFFFF#16 (bits (withoutSenderPid packet)) = 0#16 := by
  obtain ⟨hle, -, hcrc, -⟩ := defaultVerdict_eq_accept_iff.mp h
  have htrailer : packet.drop (packet.length - 2) =
      toBytes 2 (calculateCrc16 (packet.take (packet.length - 4))).toNat := by
    rw [← hcrc, toBytes_wordAt (by omega), List.take_of_length_le (by rw [List.length_drop]; omega)]
  rw [withoutSenderPid, htrailer, register_calculateCrc16]

/-- Two accepted packets of one length differ, besides their sender PIDs, in an
even number of bits, and not in two if they have at most 4097 bytes. -/
theorem distance_of_defaultVerdict {packetType : PacketType}
    (hlen : packet'.length = packet.length) (h : defaultVerdict w packetType packet = .accept)
    (h' : defaultVerdict w packetType packet' = .accept) :
    distance (bits (withoutSenderPid packet)) (bits (withoutSenderPid packet')) % 2 = 0 ∧
      (packet.length ≤ 4097 →
        distance (bits (withoutSenderPid packet)) (bits (withoutSenderPid packet')) ≠ 2) := by
  obtain ⟨hle, -⟩ := defaultVerdict_eq_accept_iff.mp h
  have hlength : (bits (withoutSenderPid packet)).length =
      (bits (withoutSenderPid packet')).length := by
    rw [length_bits, length_bits, length_withoutSenderPid (by omega),
      length_withoutSenderPid (by omega), hlen]
  have hsame := (register_withoutSenderPid h).trans (register_withoutSenderPid h').symm
  refine ⟨even_distance crc16Generator_parity hlength hsame, fun hshort =>
    distance_ne_two crc16Generator_constant (by decide) hlength (fun d hpos hd hperiodic => ?_)
      hsame⟩
  rw [length_bits, length_withoutSenderPid (by omega)] at hd
  have hdvd := Nat.le_of_dvd hpos ((isPeriodicPt_crc16Generator_iff d).mp hperiodic)
  omega

theorem flipBit_take (bytes : List UInt8) (k i : Nat) :
    (flipBit bytes i).take k = flipBit (bytes.take k) i := List.take_modify _ _ _ _

/-- Two flipped bits of the data go unnoticed exactly if the CRC stays the
same. -/
theorem defaultVerdict_flipBit_flipBit_iff {packetType : PacketType}
    (h : defaultVerdict w packetType packet = .accept) (hi : 64 ≤ i) (hij : i < j)
    (hj : j < 8 * (packet.length - 4)) :
    defaultVerdict w packetType (flipBit (flipBit packet i) j) = .accept ↔ 32767 ∣ j - i := by
  obtain ⟨hle, hsize, hcrc, htype⟩ := defaultVerdict_eq_accept_iff.mp h
  -- the header and what stands behind the data are the same
  have hheader : packet.take 8 = (flipBit (flipBit packet i) j).take 8 :=
    (take_flipBit packet (by omega)).trans (take_flipBit _ (by omega))
  have htrailer : packet.drop (packet.length - 4) =
      (flipBit (flipBit packet i) j).drop (packet.length - 4) :=
    (drop_flipBit packet (by omega)).trans (drop_flipBit _ hj)
  have hsize' : defaultSize (flipBit (flipBit packet i) j) = defaultSize packet := by
    rw [← defaultSize_take (Nat.le_refl 8), ← hheader, defaultSize_take (Nat.le_refl 8)]
  have htype' : defaultType (flipBit (flipBit packet i) j) = defaultType packet := by
    rw [← defaultType_take (k := 8) (by decide), ← hheader, defaultType_take (by decide)]
  have hcrc' := wordAt_eq_of_drop_eq (by rw [length_flipBit, length_flipBit]) (by omega) htrailer
  -- so that only the CRC can tell the packets apart
  have hregister : calculateCrc16 (packet.take (packet.length - 4)) =
      calculateCrc16 (flipBit (flipBit (packet.take (packet.length - 4)) i) j) ↔ 32767 ∣ j - i := by
    obtain ⟨front, a, middle, b, rest, hbits, hbits', hmiddle⟩ :=
      exists_two_flips (packet.take (packet.length - 4)) hij (by rw [List.length_take]; omega)
    rw [← isPeriodicPt_crc16Generator_iff, ← hmiddle,
      ← register_eq_of_two_iff crc16Generator_constant (by decide) 0xFFFF#16 front a middle b rest,
      ← hbits, ← hbits', ← UInt16.toNat_inj, toNat_calculateCrc16, toNat_calculateCrc16,
      BitVec.toNat_inj]
  rw [defaultVerdict_eq_accept_iff, hsize', htype', hcrc', hcrc, ← hregister, flipBit_take,
    flipBit_take]
  simp only [length_flipBit] at *
  exact ⟨fun haccept => haccept.2.2.1, fun hsame => ⟨hle, hsize, hsame, htype⟩⟩

end PacketFormat

namespace Packetizer

/-- **Distance**: a packet that differs from an accepted one in an odd number
of bits besides those of the sender PID, or in two of at most 4097 bytes, is
rejected. -/
theorem depacketize_of_distance (self receiver : Packetizer) (packetType : PacketType)
    (busId : Bus) (receiveBus : Bus') (out out' accepted : DepacketizeOut)
    (hw : packet.length < 2 ^ w)
    (haccept : depacketize w self packetType packet busId out = .ok (true, accepted))
    (hlen : packet'.length = packet.length)
    (hfew : distance (bits (withoutSenderPid packet)) (bits (withoutSenderPid packet')) % 2 = 1 ∨
      distance (bits (withoutSenderPid packet)) (bits (withoutSenderPid packet')) = 2 ∧
        packet.length ≤ 4097) :
    ∃ outcome, depacketize w receiver packetType packet' receiveBus out' = .ok outcome ∧
      outcome.1 = false := by
  rw [depacketize_eq self packetType busId out hw, Except.ok.injEq,
    Verdict.outcome_eq_true_iff] at haccept
  refine ⟨_, depacketize_eq receiver packetType receiveBus out' (hlen ▸ hw), ?_⟩
  rw [Verdict.outcome_fst_eq_false_iff]
  intro haccept'
  obtain ⟨heven, htwo⟩ := distance_of_defaultVerdict hlen haccept.1 haccept'
  obtain hodd | ⟨hdistance, hshort⟩ := hfew
  · omega
  · exact htwo hshort hdistance

/-- Two altered bits at the ends of a packet of one byte of data. -/
theorem depacketize_of_distance_two :
    ∃ outcome, depacketize 32 ⟨0⟩ .telemetry
        [0x80, 0, 0, 0, 0, 0, 0, 0, 7, 0, 0, 0x68, 0x94] () ⟨0, 0, 0, 0, some 0⟩ = .ok outcome ∧
      outcome.1 = false :=
  depacketize_of_distance ⟨0⟩ ⟨0⟩ .telemetry () () ⟨0, 0, 0, 0, some 0⟩ ⟨0, 0, 0, 0, some 0⟩
    ⟨0, 0, 8, 1, some 0⟩
    (show [0, 0, 0, 0, 0, 0, 0, 0, 7, 0, 0, 0x68, 0x95].length < 2 ^ 32 by decide)
    (by decide +kernel) rfl (.inr ⟨by decide +kernel, by decide⟩)

/-- **Two bits of the data**: with two of them flipped an accepted packet is
rejected exactly if their distance is no multiple of 32767. -/
theorem depacketize_flipBit_flipBit_iff (self receiver : Packetizer) (packetType : PacketType)
    (busId : Bus) (receiveBus : Bus') (out out' accepted : DepacketizeOut)
    (hw : packet.length < 2 ^ w)
    (haccept : depacketize w self packetType packet busId out = .ok (true, accepted))
    (hi : 64 ≤ i) (hij : i < j) (hj : j < 8 * (packet.length - 4)) :
    ∃ outcome, depacketize w receiver packetType (flipBit (flipBit packet i) j) receiveBus out' =
        .ok outcome ∧
      (outcome.1 = false ↔ ¬ 32767 ∣ j - i) := by
  rw [depacketize_eq self packetType busId out hw, Except.ok.injEq,
    Verdict.outcome_eq_true_iff] at haccept
  refine ⟨_, depacketize_eq receiver packetType receiveBus out' (by simpa using hw), ?_⟩
  rw [Verdict.outcome_fst_eq_false_iff, ne_eq,
    defaultVerdict_flipBit_flipBit_iff haccept.1 hi hij hj]

/-- Two neighbours in one byte of data. -/
theorem depacketize_flipBit_flipBit_iff_neighbours :
    ∃ outcome, depacketize 32 ⟨0⟩ .telemetry
        (flipBit (flipBit [0, 0, 0, 0, 0, 0, 0, 0, 7, 0, 0, 0x68, 0x95] 64) 65) ()
        ⟨0, 0, 0, 0, some 0⟩ = .ok outcome ∧ (outcome.1 = false ↔ ¬ 32767 ∣ 65 - 64) :=
  depacketize_flipBit_flipBit_iff ⟨0⟩ ⟨0⟩ .telemetry () () ⟨0, 0, 0, 0, some 0⟩
    ⟨0, 0, 0, 0, some 0⟩ ⟨0, 0, 8, 1, some 0⟩ (by decide) (by decide +kernel) (by decide)
    (by decide) (by decide)

end Packetizer

/-! ## two bytes of a strict packet -/

namespace PacketFormat

theorem residues_two (front middle rest : List UInt8) (a b : UInt8) :
    IsoChecksum.residues (front ++ a :: (middle ++ b :: rest)) =
      IsoChecksum.residues front ++ (a.toNat : ZMod 255) ::
        (IsoChecksum.residues middle ++ (b.toNat : ZMod 255) :: IsoChecksum.residues rest) := by
  simp [IsoChecksum.residues]

/-- Two replaced bytes leave the checksum as it is. -/
theorem calculate_replace_two_iff (front middle rest : List UInt8) (a a' b b' : UInt8) :
    IsoChecksum.calculate (front ++ a :: (middle ++ b :: rest)) =
        IsoChecksum.calculate (front ++ a' :: (middle ++ b' :: rest)) ↔
      (a.toNat + b.toNat) % 255 = (a'.toNat + b'.toNat) % 255 ∧
        (middle.length + 1) * a.toNat % 255 = (middle.length + 1) * a'.toNat % 255 := by
  have hsums : IsoChecksum.standard (front ++ a :: (middle ++ b :: rest)) =
      IsoChecksum.standard (front ++ a' :: (middle ++ b' :: rest)) ↔
        IsoChecksum.standardSums (front ++ a :: (middle ++ b :: rest)) =
          IsoChecksum.standardSums (front ++ a' :: (middle ++ b' :: rest)) :=
    ⟨IsoChecksum.standardSums_eq_of_standard_eq, fun h => by
      rw [IsoChecksum.standard, h, IsoChecksum.standard]⟩
  rw [IsoChecksum.calculate_eq_standard, IsoChecksum.calculate_eq_standard, hsums,
    IsoChecksum.standardSums, IsoChecksum.standardSums, residues_two, residues_two,
    Fletcher.sums_replace_two_iff, ← ZMod.natCast_eq_natCast_iff', ← ZMod.natCast_eq_natCast_iff']
  simp [IsoChecksum.residues, nsmul_eq_mul]

theorem strictSize_append (h : 6 ≤ front.length) (rest : List UInt8) :
    strictSize (front ++ rest) = strictSize front := by
  rw [strictSize, strictSize, toNat_wordAt, toNat_wordAt, List.getD_append _ _ _ _ (by omega),
    List.getD_append _ _ _ _ (by omega)]

theorem strictType_append (h : 0 < front.length) (rest : List UInt8) :
    strictType (front ++ rest) = strictType front := by
  rw [strictType, strictType, List.getD_append _ _ _ _ h]

/-- The checks of a packet that ends with a checksum. -/
theorem strictVerdict_append_eq_accept_iff {packetType : PacketType} (h : checksum.length = 2) :
    strictVerdict packetType (covered ++ checksum) = .accept ↔
      6 < covered.length ∧ 6 + strictSize (covered ++ checksum) = covered.length + 2 ∧
      wordAt checksum 0 = IsoChecksum.calculate covered ∧
      strictType (covered ++ checksum) = packetType.toUInt8.toNat := by
  have hword : wordAt (covered ++ checksum) covered.length = wordAt checksum 0 := by
    have hdrop := wordAt_drop (covered ++ checksum) covered.length 0
    rw [List.drop_left, Nat.add_zero] at hdrop
    exact hdrop.symm
  rw [strictVerdict_eq_accept_iff, List.length_append, h, Nat.add_sub_cancel, hword,
    List.take_left]
  exact and_congr (by omega) Iff.rfl

/-- Two replaced bytes of the data of an accepted packet go unnoticed exactly
if the checksum stays as it is. -/
theorem strictVerdict_replace_two_iff {packetType : PacketType} {a a' b b' : UInt8}
    (h : strictVerdict packetType (front ++ a :: (middle ++ b :: rest)) = .accept)
    (hfront : 6 ≤ front.length) (hrest : 2 ≤ rest.length) :
    strictVerdict packetType (front ++ a' :: (middle ++ b' :: rest)) = .accept ↔
      (a.toNat + b.toNat) % 255 = (a'.toNat + b'.toNat) % 255 ∧
        (middle.length + 1) * a.toNat % 255 = (middle.length + 1) * a'.toNat % 255 := by
  obtain ⟨data, checksum, rfl, hchecksum⟩ := exists_checksum rest hrest
  have hsplit (x y : UInt8) : front ++ x :: (middle ++ y :: (data ++ checksum)) =
      (front ++ x :: (middle ++ y :: data)) ++ checksum := by simp
  rw [hsplit, strictVerdict_append_eq_accept_iff hchecksum, ← hsplit,
    strictSize_append hfront, strictType_append (by omega)] at h
  obtain ⟨hlong, hsize, hmatch, htype⟩ := h
  have hlength : (front ++ a' :: (middle ++ b' :: data)).length =
      (front ++ a :: (middle ++ b :: data)).length := by simp
  rw [hsplit, strictVerdict_append_eq_accept_iff hchecksum, ← hsplit,
    strictSize_append hfront, strictType_append (by omega), hlength, hmatch,
    ← calculate_replace_two_iff front middle data a a' b b']
  exact ⟨fun haccept => haccept.2.2.1, fun hsame => ⟨hlong, hsize, hsame, htype⟩⟩

end PacketFormat

namespace CCSDSPacketizer

/-- **Two bytes of the data**: with two of them replaced an accepted packet is
rejected, unless modulo 255 their sum stays the same and so does the product of
the first with their distance. -/
theorem depacketize_of_two_replaced_iff (self receiver : Packetizer) (packetType : PacketType)
    (busId receiveBus : Bus) (out out' accepted : DepacketizeOut) (hsize : 16 ≤ w)
    (front middle rest : List UInt8) (a a' b b' : UInt8)
    (hw : (front ++ a :: (middle ++ b :: rest)).length < 2 ^ w)
    (haccept : depacketize w self packetType (front ++ a :: (middle ++ b :: rest)) busId out =
      .ok (true, accepted)) (hfront : 6 ≤ front.length) (hrest : 2 ≤ rest.length) :
    ∃ outcome, depacketize w receiver packetType (front ++ a' :: (middle ++ b' :: rest))
        receiveBus out' = .ok outcome ∧
      (outcome.1 = false ↔ ¬((a.toNat + b.toNat) % 255 = (a'.toNat + b'.toNat) % 255 ∧
        (middle.length + 1) * a.toNat % 255 = (middle.length + 1) * a'.toNat % 255)) := by
  rw [depacketize_eq self packetType busId out hsize hw, Except.ok.injEq,
    Verdict.outcome_eq_true_iff] at haccept
  refine ⟨_, depacketize_eq receiver packetType receiveBus out' hsize (by simpa using hw), ?_⟩
  rw [Verdict.outcome_fst_eq_false_iff, ne_eq,
    strictVerdict_replace_two_iff haccept.1 hfront hrest]

/-- Two neighbours of a packet of two bytes of data, one less and one more. -/
theorem depacketize_of_two_replaced_iff_neighbours :
    ∃ outcome, depacketize 32 ⟨0⟩ .telemetry [0x08, 1, 0xC0, 5, 0, 3, 6, 8, 0x1D, 0x03] ()
        ⟨0, 0, 0, 0, some 0⟩ = .ok outcome ∧
      (outcome.1 = false ↔ ¬((7 + 7) % 255 = (6 + 8) % 255 ∧ 1 * 7 % 255 = 1 * 6 % 255)) :=
  depacketize_of_two_replaced_iff ⟨0⟩ ⟨0⟩ .telemetry () () ⟨0, 0, 0, 0, some 0⟩
    ⟨0, 0, 0, 0, some 0⟩ ⟨0, 1, 6, 2, some 0⟩ (by decide) [0x08, 1, 0xC0, 5, 0, 3] []
    [0x1D, 0x03] 7 6 7 8 (by decide) (by decide +kernel) (by decide) (by decide)

end CCSDSPacketizer

end TasteRuntime

import TasteRuntime.Lib.CMemory

/-!
# TasteRuntime.SpacePacket

The constants and data types the packet formats share (`SpacePacket.h`,
`SpacePacketInternal.h`, `PacketizerInternal.h`, `Packetizer.h`).

Every size constant is a simp lemma, so that proofs compute with the numbers.
-/

namespace TasteRuntime

open CMemory

/-! ## sizes and limits -/

/-- `THIN_SPACE_PACKET_PRIMARY_HEADER_SIZE` -/
@[simp] abbrev thinSpacePacketPrimaryHeaderSize : Nat := 4

/-- `CCSDS_SPACE_PACKET_PRIMARY_HEADER_SIZE` -/
@[simp] abbrev ccsdsSpacePacketPrimaryHeaderSize : Nat := 6

/-- `SPACE_PACKET_PRIMARY_HEADER_SIZE` -/
@[simp] abbrev spacePacketPrimaryHeaderSize : Nat := 8

/-- `SPACE_PACKET_ERROR_CONTROL_SIZE` -/
@[simp] abbrev spacePacketErrorControlSize : Nat := 2

/-- `SPACE_PACKET_SENDER_PID_SIZE` -/
@[simp] abbrev spacePacketSenderPidSize : Nat := 2

/-- `CCSDS_SPACE_PACKET_MAX_PACKET_DATA_SIZE` -/
@[simp] abbrev ccsdsSpacePacketMaxPacketDataSize : Nat := 65536

/-- `SPACE_PACKET_MAX_PACKET_DATA_SIZE` -/
@[simp] abbrev spacePacketMaxPacketDataSize : Nat := 4294967295

/-- `SPACE_PACKET_MAX_APID` -/
@[simp] abbrev spacePacketMaxApid : UInt16 := 2047

/-- `SPACE_PACKET_MAX_PACKET_SEQUENCE_COUNT` -/
@[simp] abbrev spacePacketMaxPacketSequenceCount : UInt16 := 16383

/-! ## masks and offsets -/

/-- `SPACE_PACKET_TYPE_MASK` -/
def spacePacketTypeMask : UInt8 := 0x08

/-- `SPACE_PACKET_APID_HIGH_BITS_MASK` -/
def spacePacketApidHighBitsMask : UInt8 := 0xE0

/-- `SPACE_PACKET_TYPE_OFFSET` -/
def spacePacketTypeOffset : UInt8 := 3

/-- `SPACE_PACKET_APID_HIGH_BITS_OFFSET` -/
def spacePacketApidHighBitsOffset : UInt16 := 5

/-- `SPACE_PACKET_SECONDARY_HEADER_FLAG_OFFSET` -/
def spacePacketSecondaryHeaderFlagOffset : UInt8 := 4

/-- `SPACE_PACKET_SEQUENCE_FLAGS_FIRST_OFFSET` -/
def spacePacketSequenceFlagsFirstOffset : UInt8 := 0

/-- `SPACE_PACKET_SEQUENCE_FLAGS_SECOND_OFFSET` -/
def spacePacketSequenceFlagsSecondOffset : UInt8 := 1

/-- `SPACE_PACKET_SEQUENCE_CONTROL_HIGH_BITS_OFFSET` -/
def spacePacketSequenceControlHighBitsOffset : UInt16 := 2

/-- `CCSDS_SPACE_PACKET_TYPE_MASK` -/
def ccsdsSpacePacketTypeMask : UInt8 := 0x10

/-- `CCSDS_SPACE_PACKET_APID_HIGH_BITS_MASK` -/
def ccsdsSpacePacketApidHighBitsMask : UInt16 := 0x07

/-- `CCSDS_SPACE_PACKET_TYPE_OFFSET` -/
def ccsdsSpacePacketTypeOffset : UInt8 := 4

/-- `CCSDS_SPACE_PACKET_SECONDARY_HEADER_FLAG_OFFSET` -/
def ccsdsSpacePacketSecondaryHeaderFlagOffset : UInt8 := 3

/-- `CCSDS_SPACE_PACKET_SEQUENCE_FLAGS_FIRST_OFFSET` -/
def ccsdsSpacePacketSequenceFlagsFirstOffset : UInt8 := 7

/-- `CCSDS_SPACE_PACKET_SEQUENCE_FLAGS_SECOND_OFFSET` -/
def ccsdsSpacePacketSequenceFlagsSecondOffset : UInt8 := 6

/-- `PACKETIZER_DESTINATION_HIGH_BITS_MASK` -/
def packetizerDestinationHighBitsMask : UInt16 := 0x0700

/-- `PACKETIZER_PACKET_SEQUENCE_CONTROL_HIGH_BITS_MASK` -/
def packetizerPacketSequenceControlHighBitsMask : UInt16 := 0x3F00

/-! ## data types -/

/-- `Packetizer_PacketType` -/
inductive PacketType where
  | telemetry
  | telecommand
  deriving DecidableEq, Repr

/-- The value of the enumerator. -/
def PacketType.toUInt8 : PacketType → UInt8
  | .telemetry => 0
  | .telecommand => 1

theorem PacketType.toNat_toUInt8_lt (packetType : PacketType) : packetType.toUInt8.toNat < 2 := by
  cases packetType <;> decide

theorem PacketType.toNat_toUInt8_inj {a b : PacketType} :
    a.toUInt8.toNat = b.toUInt8.toNat ↔ a = b := by
  cases a <;> cases b <;> decide

/-- `Packetizer_ErrorCode`; `CCSDS_Packetizer_ErrorCode` has the same values,
without the last one and with the first called `IncorrectChecksum`. -/
inductive ErrorCode where
  | incorrectCrc16
  | incorrectPacketType
  | incorrectPacketSize
  | packetTooSmall
  deriving DecidableEq, Repr

/-- The value of the enumerator. -/
def ErrorCode.toInt32 : ErrorCode → Int32
  | .incorrectCrc16 => 1
  | .incorrectPacketType => 2
  | .incorrectPacketSize => 3
  | .packetTooSmall => 4

theorem ErrorCode.toInt32_inj {a b : ErrorCode} : a.toInt32 = b.toInt32 ↔ a = b := by
  cases a <;> cases b <;> decide

/-- The structure `Packetizer`. -/
structure Packetizer where
  packetSequenceCount : UInt16
  deriving DecidableEq, Repr

/-- What a packetize function leaves behind: the returned size, the packetizer
and the object `packetPointer` points to. -/
structure Packetized where
  packetSize : Nat
  self : Packetizer
  buffer : List UInt8
  deriving DecidableEq, Repr

/-- The object keeps its size, and the counter its bound. -/
def Packetized.Keeps (self : Packetizer) (buffer : List UInt8) (sent : Packetized) : Prop :=
  sent.buffer.length = buffer.length ∧
    (self.packetSequenceCount ≤ spacePacketMaxPacketSequenceCount →
      sent.self.packetSequenceCount ≤ spacePacketMaxPacketSequenceCount)

/-- What the output pointers of a depacketize function point to; `errorCode`
is `none` for a null pointer. -/
structure DepacketizeOut where
  source : UInt16
  destination : UInt16
  dataOffset : Nat
  dataSize : Nat
  errorCode : Option Int32
  deriving DecidableEq, Repr

/-- `if(errorCode != NULL) { *errorCode = code; }` -/
def DepacketizeOut.setErrorCode (out : DepacketizeOut) (code : ErrorCode) : DepacketizeOut :=
  { out with errorCode := out.errorCode.map fun _ => code.toInt32 }

/-- How a depacketize function decides: it accepts, or it rejects and names
the check that failed; `none` is a check that fails without an error code. -/
inductive Verdict where
  | accept
  | reject (code : Option ErrorCode)
  deriving DecidableEq, Repr

/-- The outputs of a rejecting depacketize function. -/
def DepacketizeOut.reject (out : DepacketizeOut) : Option ErrorCode → DepacketizeOut
  | some code => out.setErrorCode code
  | none => out

/-- What a depacketize function returns and leaves in the outputs, given what
it leaves there when it accepts. -/
def Verdict.outcome (verdict : Verdict) (out accepted : DepacketizeOut) : Bool × DepacketizeOut :=
  match verdict with
  | .accept => (true, accepted)
  | .reject code => (false, out.reject code)

@[simp] theorem Verdict.outcome_fst_eq_true_iff {verdict : Verdict}
    {out accepted : DepacketizeOut} :
    (verdict.outcome out accepted).1 = true ↔ verdict = .accept := by
  cases verdict <;> simp [Verdict.outcome]

@[simp] theorem Verdict.outcome_fst_eq_false_iff {verdict : Verdict}
    {out accepted : DepacketizeOut} :
    (verdict.outcome out accepted).1 = false ↔ verdict ≠ .accept := by
  cases verdict <;> simp [Verdict.outcome]

/-- What an accepting depacketize function leaves in the outputs. -/
theorem Verdict.outcome_eq_true_iff {verdict : Verdict} {out accepted out' : DepacketizeOut} :
    verdict.outcome out accepted = (true, out') ↔ verdict = .accept ∧ out' = accepted := by
  cases verdict <;> simp [Verdict.outcome, eq_comm]

/-! ## packetizer functions -/

/-- `packetizer_init_function`: the packetizer and `*headerSize`.  The last
argument and result are the header sizes kept for the buses whose packetizer
the device provides. -/
abbrev InitFunction (Bus : Type) :=
  Packetizer → Bus → (Bus → Nat) → Exec (Packetizer × Nat × (Bus → Nat))

/-- `packetizer_packetize_function` -/
abbrev PacketizeFunction (Bus : Type) :=
  Packetizer → PacketType → Bus → UInt16 → UInt16 → List UInt8 → Nat → Nat → Exec Packetized

/-- `packetizer_depacketize_function` -/
abbrev DepacketizeFunction (Bus : Type) :=
  Packetizer → PacketType → List UInt8 → Bus → DepacketizeOut → Exec (Bool × DepacketizeOut)

/-- The structure `PacketizerFunctions`. -/
structure PacketizerFunctions (Bus : Type) where
  headerSize : Nat
  init : InitFunction Bus
  packetize : PacketizeFunction Bus
  depacketize : DepacketizeFunction Bus

/-! ## sequence counter -/

namespace Packetizer

/-- The counter after a packet: it wraps to zero after 2^14 - 1. -/
def countPacket (self : Packetizer) : Packetizer :=
  let count := self.packetSequenceCount + 1
  if count > spacePacketMaxPacketSequenceCount then { self with packetSequenceCount := 0 }
  else { self with packetSequenceCount := count }

/-- The counter counts modulo 2^14. -/
theorem toNat_countPacket {self : Packetizer} (h : self.packetSequenceCount ≤ 16383) :
    self.countPacket.packetSequenceCount.toNat =
      (self.packetSequenceCount.toNat + 1) % 2 ^ 14 := by
  have hle : self.packetSequenceCount.toNat ≤ 16383 := UInt16.le_iff_toNat_le.mp h
  have hsucc : (self.packetSequenceCount + 1).toNat = self.packetSequenceCount.toNat + 1 := by
    rw [UInt16.toNat_add]
    exact Nat.mod_eq_of_lt (by simp; omega)
  unfold countPacket
  by_cases hwrap : self.packetSequenceCount.toNat = 16383
  · have hgt : self.packetSequenceCount + 1 > spacePacketMaxPacketSequenceCount := by
      rw [gt_iff_lt, UInt16.lt_iff_toNat_lt, hsucc, hwrap]
      decide
    simp only [if_pos hgt, hwrap]
    rfl
  · have hle' : ¬ self.packetSequenceCount + 1 > spacePacketMaxPacketSequenceCount := by
      rw [gt_iff_lt, UInt16.lt_iff_toNat_lt, hsucc]
      simp
      omega
    simp only [if_neg hle', hsucc]
    omega

/-- The counter never exceeds its maximum. -/
theorem countPacket_le {self : Packetizer} (h : self.packetSequenceCount ≤ 16383) :
    self.countPacket.packetSequenceCount ≤ 16383 := by
  rw [UInt16.le_iff_toNat_le, toNat_countPacket h]
  have hmod : (self.packetSequenceCount.toNat + 1) % 2 ^ 14 < 2 ^ 14 := Nat.mod_lt _ (by decide)
  simp
  omega

end Packetizer

end TasteRuntime

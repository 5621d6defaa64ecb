import TasteRuntime.SystemSpec

/-!
# TasteRuntime.PassthroughPacketizer

The packetizer of a bus without packets (`PassthroughPacketizer.c`): the data
goes out as it is, and what comes in is for the one interface of the bus.
-/

namespace TasteRuntime

open CMemory

namespace PassthroughPacketizer

/-- `PassthroughPacketizer_init`: the packetizer, left as it was, and
`*headerSize`. -/
def init (spec : SystemSpec) (self : Packetizer) (busId : spec.Bus) : Exec (Packetizer × Nat) :=
  if (spec.busToUniquePortMap busId).val = interfaceInvalidId ∧
      spec.busHasAnyDestinationPort busId ≠ 0 then
    -- a passthrough packetizer requires a unique interface on its bus
    throw .aborted
  else pure (self, 0)

theorem init_eq_aborted_iff {spec : SystemSpec} {busId : spec.Bus} (self : Packetizer) :
    init spec self busId = .error .aborted ↔
      (spec.busToUniquePortMap busId).val = interfaceInvalidId ∧
        spec.busHasAnyDestinationPort busId ≠ 0 := by
  unfold init
  split
  · simp_all
  · simp_all

/-- `PassthroughPacketizer_packetize` -/
def packetize (spec : SystemSpec) (self : Packetizer) (_packetType : PacketType)
    (_busId : spec.Bus) (_source _destination : UInt16) (packetPointer : List UInt8)
    (_dataOffset dataSize : Nat) : Exec Packetized := do
  assert (dataSize ≥ 1)
  pure ⟨dataSize, self, packetPointer⟩

/-- `PassthroughPacketizer_depacketize`; `*source` stays as it was. -/
def depacketize (spec : SystemSpec) (_self : Packetizer) (_packetType : PacketType)
    (packet : List UInt8) (busId : spec.Bus) (out : DepacketizeOut) :
    Exec (Bool × DepacketizeOut) :=
  pure (true, { out with
    destination := UInt16.ofNat (spec.busToUniquePortMap busId)
    dataOffset := 0
    dataSize := packet.length })

end PassthroughPacketizer

end TasteRuntime

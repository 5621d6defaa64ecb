import TasteRuntime.SystemSpec

/-!
# TasteRuntime.DeviceProvidedPacketizer

The packetizer of a bus whose device brings its own
(`DeviceProvidedPacketizer.c`): each function looks up the function of the
device and calls it.
-/

namespace TasteRuntime

open CMemory

namespace DeviceProvidedPacketizer

/-- `DeviceProvidedPacketizer_init`; the source does not look whether the
device has an init function. -/
def init (spec : SystemSpec) : InitFunction spec.Bus := fun self busId headerSizes =>
  match spec.deviceProvided.getInitFunction busId with
  | none => throw .nullCall
  | some packetizerInit => do
      let (self, headerSize) ← packetizerInit self busId
      pure (self, headerSize, Function.update headerSizes busId headerSize)

/-- `DeviceProvidedPacketizer_packetize` -/
def packetize (spec : SystemSpec) : PacketizeFunction spec.Bus :=
  fun self packetType busId source destination packetPointer dataOffset dataSize =>
    match spec.deviceProvided.getPacketizeFunction busId with
    | none => pure ⟨0, self, packetPointer⟩
    | some packetizerPacketize =>
        packetizerPacketize self packetType busId source destination packetPointer dataOffset
          dataSize

/-- `DeviceProvidedPacketizer_depacketize` -/
def depacketize (spec : SystemSpec) : DepacketizeFunction spec.Bus :=
  fun self packetType packet busId out =>
    match spec.deviceProvided.getDepacketizeFunction busId with
    | none => pure (false, out)
    | some packetizerDepacketize => packetizerDepacketize self packetType packet busId out

end DeviceProvidedPacketizer

end TasteRuntime

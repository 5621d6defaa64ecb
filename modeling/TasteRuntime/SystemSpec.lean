import TasteRuntime.SpacePacket

/-!
# TasteRuntime.SystemSpec

What the runtime is configured with: the tables and numbers that are generated
for one partition of a system (`system_spec.h`, `routing.h`,
`request_size.h`), the tables the runtime provides to the broker, and the
choices a build makes.

A bus is an index of the tables over buses and an interface an index of the
tables over interfaces, so that no table can be read outside by what it is
indexed with; a number that only becomes an index at run time is a plain
number and is checked where it does.
-/

namespace TasteRuntime

open CMemory

/-- `enum PacketizerCfg` -/
inductive PacketizerCfg where
  | default
  | ccsds
  | strictCcsds
  | thin
  | deviceProvided
  | passthrough
  deriving DecidableEq, Repr

/-- `INTERFACE_INVALID_ID` -/
abbrev interfaceInvalidId : Nat := 0

/-- `BUS_INVALID_ID` -/
abbrev busInvalidId : Nat := 0

/-- The packetizer functions of the devices (`device_provided_packetizer.h`);
`none` is a null pointer. -/
structure DeviceProvided (Bus : Type) where
  getInitFunction : Bus → Option (Packetizer → Bus → Exec (Packetizer × Nat))
  getPacketizeFunction : Bus → Option (PacketizeFunction Bus)
  getDepacketizeFunction : Bus → Option (DepacketizeFunction Bus)

/-- The configuration of one partition. -/
structure SystemSpec where
  /-- The bits of `size_t`. -/
  sizeBits : Nat
  /-- `SYSTEM_BUSES_NUMBER` -/
  systemBusesNumber : Nat
  /-- `INTERFACE_MAX_ID` -/
  interfaceMaxId : Nat
  /-- `GENERIC_PARTITION_BUFFER_SIZE` -/
  genericPartitionBufferSize : Nat
  /-- `port_to_bus_map` -/
  portToBusMap : Fin interfaceMaxId → Fin systemBusesNumber
  /-- `bus_to_packetizer_cfg` -/
  busToPacketizerCfg : Fin systemBusesNumber → PacketizerCfg
  /-- `bus_to_unique_port_map` -/
  busToUniquePortMap : Fin systemBusesNumber → Fin interfaceMaxId
  /-- `bus_has_any_destination_port` -/
  busHasAnyDestinationPort : Fin systemBusesNumber → Int
  /-- The packet type of `BROKER_SEND_TELECOMMAND` and `BROKER_SEND_TELEMETRY`. -/
  sendPacketType : PacketType
  /-- The packet type of `BROKER_EXPECT_TELECOMMAND` and `BROKER_EXPECT_TELEMETRY`. -/
  expectPacketType : PacketType
  /-- The target is one of those whose requests carry the PID of their sender. -/
  hasSenderPid : Bool
  /-- The packetizers of the devices. -/
  deviceProvided : DeviceProvided (Fin systemBusesNumber)
  /-- C asks for 16 bits at least. -/
  sizeBits_ge : 16 ≤ sizeBits
  /-- The size of the buffer of the broker is a size. -/
  bufferSize_lt : spacePacketPrimaryHeaderSize + genericPartitionBufferSize +
    spacePacketSenderPidSize + spacePacketErrorControlSize < 2 ^ sizeBits

namespace SystemSpec

/-- `enum SystemBus` -/
abbrev Bus (spec : SystemSpec) : Type := Fin spec.systemBusesNumber

/-- `enum RemoteInterface` -/
abbrev Interface (spec : SystemSpec) : Type := Fin spec.interfaceMaxId

/-- `BROKER_BUFFER_SIZE` -/
def brokerBufferSize (spec : SystemSpec) : Nat :=
  spacePacketPrimaryHeaderSize + spec.genericPartitionBufferSize +
    spacePacketSenderPidSize + spacePacketErrorControlSize

/-- No bus leaves its packetizer to the device. -/
def BuiltIn (spec : SystemSpec) : Prop :=
  ∀ bus, spec.busToPacketizerCfg bus ≠ .deviceProvided

instance (spec : SystemSpec) : Decidable spec.BuiltIn :=
  inferInstanceAs (Decidable (∀ _, _))

/-- A configuration with the sizes of the runtime mocks
(`RuntimeMocks/system_spec.h`, `request_size.h`): two buses, one interface and
requests of up to 20 bytes, on a target of 64 bits.  The routing tables have
one entry per bus and interface, where the mocks stop at the first, and
requests carry the PID of their sender. -/
def mock (cfg : PacketizerCfg) : SystemSpec where
  sizeBits := 64
  systemBusesNumber := 2
  interfaceMaxId := 1
  genericPartitionBufferSize := 20
  portToBusMap := fun _ => 0
  busToPacketizerCfg := fun _ => cfg
  busToUniquePortMap := fun _ => 0
  busHasAnyDestinationPort := fun _ => 0
  sendPacketType := .telemetry
  expectPacketType := .telemetry
  hasSenderPid := true
  deviceProvided := ⟨fun _ => none, fun _ => none, fun _ => none⟩
  sizeBits_ge := by decide
  bufferSize_lt := by decide

theorem builtIn_mock (h : cfg ≠ .deviceProvided) : (mock cfg).BuiltIn := fun _ => h

end SystemSpec

end TasteRuntime

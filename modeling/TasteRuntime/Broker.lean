import TasteRuntime.Lib.Transducer
import TasteRuntime.Packetizer
import TasteRuntime.CCSDSPacketizer
import TasteRuntime.ThinPacketizer
import TasteRuntime.PassthroughPacketizer
import TasteRuntime.DeviceProvidedPacketizer

/-!
# TasteRuntime.Broker

The broker (`Broker.c`): it carries requests to the drivers of the buses and
packets from the drivers to the interfaces.

The static variables of the source are the fields of `Broker`; what the broker
calls outside itself (the lock, the drivers, the interfaces, the error
callback) are the events of an operation, in order.  Each operation runs under
the lock from its first to its last step, so operations follow each other.
-/

namespace TasteRuntime

open CMemory

/-- `Broker_ErrorType` -/
inductive BrokerErrorType where
  | unknownError
  | incorrectCrc16
  | incorrectPacketType
  | incorrectPacketSize
  | packetTooSmall
  deriving DecidableEq, Repr

/-- The static variables of the broker. -/
structure Broker (spec : SystemSpec) where
  /-- `packetizers_data` -/
  packetizersData : spec.Bus → Packetizer
  /-- `packetizer_buffer` -/
  packetizerBuffer : List UInt8
  /-- `broker_error_callback` is not null. -/
  brokerErrorCallback : Bool
  /-- The header sizes behind `setDeviceProvidedPacketizerHeaderSize`. -/
  deviceHeaderSizes : spec.Bus → Nat

/-- A call of `Broker_deliver_request`. -/
structure Request (spec : SystemSpec) where
  interface : spec.Interface
  senderPid : Nat
  data : List UInt8

/-- A call the broker makes.  The sender PID of a delivery is there on targets
whose requests carry it. -/
inductive BrokerCall (spec : SystemSpec) where
  | acquireLock
  | releaseLock
  | send (busId : spec.Bus) (packet : List UInt8)
  | deliver (interface : spec.Interface) (senderPid : Option Nat) (data : List UInt8)
  | errorDetected (errorType : BrokerErrorType) (packet : List UInt8)
  deriving DecidableEq

namespace Broker

/-- The static variables as the program starts with them. -/
def static (spec : SystemSpec) : Broker spec where
  packetizersData := fun _ => ⟨0⟩
  packetizerBuffer := List.replicate spec.brokerBufferSize 0
  brokerErrorCallback := false
  deviceHeaderSizes := fun _ => 0

/-! ## the source's functions -/

/-- `Broker_packetizer_error_to_broker_error` -/
def packetizerErrorToBrokerError (packetizerError : Int32) : BrokerErrorType :=
  if packetizerError = ErrorCode.incorrectCrc16.toInt32 then .incorrectCrc16
  else if packetizerError = ErrorCode.incorrectPacketType.toInt32 then .incorrectPacketType
  else if packetizerError = ErrorCode.incorrectPacketSize.toInt32 then .incorrectPacketSize
  else if packetizerError = ErrorCode.packetTooSmall.toInt32 then .packetTooSmall
  else .unknownError

/-- An init function that leaves the header sizes of the devices alone. -/
def builtInInit (init : Packetizer → Bus → Exec (Packetizer × Nat)) : InitFunction Bus :=
  fun self busId headerSizes => do
    let (self, headerSize) ← init self busId
    pure (self, headerSize, headerSizes)

/-- `packetizers_functions`, as `Broker_initialize_packetizers_functions` fills
it. -/
def packetizersFunctions (spec : SystemSpec) : PacketizerCfg → PacketizerFunctions spec.Bus
  | .default | .ccsds =>
      { headerSize := spacePacketPrimaryHeaderSize
        init := builtInInit fun self busId => pure (Packetizer.init self busId)
        packetize := Packetizer.packetize spec.sizeBits
        depacketize := Packetizer.depacketize spec.sizeBits }
  | .strictCcsds =>
      { headerSize := ccsdsSpacePacketPrimaryHeaderSize
        init := builtInInit fun self busId => pure (CCSDSPacketizer.init self busId)
        packetize := CCSDSPacketizer.packetize spec.sizeBits
        depacketize := CCSDSPacketizer.depacketize spec.sizeBits }
  | .thin =>
      { headerSize := thinSpacePacketPrimaryHeaderSize
        init := builtInInit fun self busId => pure (ThinPacketizer.init self busId)
        packetize := ThinPacketizer.packetize spec.sizeBits
        depacketize := ThinPacketizer.depacketize spec.sizeBits }
  | .deviceProvided =>
      { headerSize := 0
        init := DeviceProvidedPacketizer.init spec
        packetize := DeviceProvidedPacketizer.packetize spec
        depacketize := DeviceProvidedPacketizer.depacketize spec }
  | .passthrough =>
      { headerSize := 0
        init := builtInInit (PassthroughPacketizer.init spec)
        packetize := PassthroughPacketizer.packetize spec
        depacketize := PassthroughPacketizer.depacketize spec }

/-- One round of the loop of `Broker_initialize`, for a bus. -/
def initializeBus (spec : SystemSpec) (broker : Broker spec) (busId : spec.Bus) :
    Exec (Broker spec) := do
  let packetizerType := spec.busToPacketizerCfg busId
  let (self, _headerSize, headerSizes) ← (packetizersFunctions spec packetizerType).init
    (broker.packetizersData busId) busId broker.deviceHeaderSizes
  pure { broker with
    packetizersData := Function.update broker.packetizersData busId self
    deviceHeaderSizes := headerSizes }

/-- The loop of `Broker_initialize` over the buses from index `i` on. -/
def initializeBuses (spec : SystemSpec) (broker : Broker spec) : List Nat → Exec (Broker spec)
  | [] => pure broker
  | busId :: rest =>
      if busId = busInvalidId then pure broker
      else if h : busId < spec.systemBusesNumber then do
        let broker ← initializeBus spec broker ⟨busId, h⟩
        initializeBuses spec broker rest
      else initializeBuses spec broker rest

/-- `Broker_initialize` -/
def brokerInitialize (spec : SystemSpec) (broker : Broker spec)
    (validBuses : Fin spec.systemBusesNumber → Nat) : Exec (Broker spec) :=
  initializeBuses spec broker (List.ofFn validBuses)

/-- `Broker_deliver_request` -/
def deliverRequest (spec : SystemSpec) (broker : Broker spec) (request : Request spec) :
    Exec (Broker spec × List (BrokerCall spec)) := do
  let length := request.data.length
  let busId := spec.portToBusMap request.interface
  let packetizerType := spec.busToPacketizerCfg busId
  let headerSize :=
    if packetizerType = .deviceProvided then broker.deviceHeaderSizes busId
    else (packetizersFunctions spec packetizerType).headerSize
  let buffer ← memcpy broker.packetizerBuffer headerSize request.data length
  let source := if spec.hasSenderPid then UInt16.ofNat request.senderPid else 0
  let sent ← (packetizersFunctions spec packetizerType).packetize (broker.packetizersData busId)
    spec.sendPacketType busId source (UInt16.ofNat request.interface) buffer headerSize length
  let packet ← slice sent.buffer 0 sent.packetSize
  pure ({ broker with
      packetizersData := Function.update broker.packetizersData busId sent.self
      packetizerBuffer := sent.buffer },
    [.acquireLock, .send busId packet, .releaseLock])

/-- `Broker_receive_packet`; `data` and `length` are the bytes of the packet. -/
def receivePacket (spec : SystemSpec) (broker : Broker spec) (busId : spec.Bus)
    (data : List UInt8) : Exec (Broker spec × List (BrokerCall spec)) := do
  let packetizerType := spec.busToPacketizerCfg busId
  let (success, out) ← (packetizersFunctions spec packetizerType).depacketize
    (broker.packetizersData busId) spec.expectPacketType data busId ⟨0, 0, 0, 0, some 0⟩
  if ¬ success then
    if broker.brokerErrorCallback then
      return (broker, [.acquireLock,
        .errorDetected (packetizerErrorToBrokerError (out.errorCode.getD 0)) data, .releaseLock])
    return (broker, [.acquireLock, .releaseLock])
  -- the table of deliver functions, read at whatever destination came in
  if h : out.destination.toNat < spec.interfaceMaxId then do
    let payload ← slice data out.dataOffset out.dataSize
    return (broker, [.acquireLock,
      .deliver ⟨out.destination.toNat, h⟩
        (if spec.hasSenderPid then some out.source.toNat else none) payload,
      .releaseLock])
  else throw (.readOutOfBounds out.destination.toNat)

/-- `Broker_register_error_callback`; `callback` says whether it is not null. -/
def registerErrorCallback (broker : Broker spec) (callback : Bool) : Broker spec :=
  { broker with brokerErrorCallback := callback }

end Broker

/-! ## runs -/

/-- A call of one of the functions of the broker. -/
inductive BrokerOp (spec : SystemSpec) where
  | deliverRequest (request : Request spec)
  | receivePacket (busId : spec.Bus) (data : List UInt8)
  | registerErrorCallback (callback : Bool)

namespace Broker

/-- One operation. -/
def step (spec : SystemSpec) (broker : Broker spec) :
    BrokerOp spec → Exec (Broker spec × List (BrokerCall spec))
  | .deliverRequest request => deliverRequest spec broker request
  | .receivePacket busId data => receivePacket spec broker busId data
  | .registerErrorCallback callback => pure (broker.registerErrorCallback callback, [])

/-- A run: one operation after the other, until one does not return. -/
def run (spec : SystemSpec) (broker : Broker spec) (ops : List (BrokerOp spec)) :
    Exec (Broker spec × List (BrokerCall spec)) :=
  Transducer.runCall (step spec) broker ops

end Broker

end TasteRuntime

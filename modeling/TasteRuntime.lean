import TasteRuntime.EndToEnd
import TasteRuntime.Accepted
import TasteRuntime.Integrity.Distance
import TasteRuntime.Integrity.Length
import TasteRuntime.Broker.Rejection
import TasteRuntime.Broker.Arrival
import TasteRuntime.Broker.Assertions
import TasteRuntime.Broker.Capacity
import TasteRuntime.Broker.Completion
import TasteRuntime.Broker.Concurrency
import TasteRuntime.Broker.Startup
import TasteRuntime.Escaper.Chunks
import TasteRuntime.Escaper.Bounds
import TasteRuntime.Escaper.Origin
import TasteRuntime.Escaper.Duplex
import TasteRuntime.RoutingHelper
import TasteRuntime.DriverHelper
import TasteRuntime.Link.Recovery
import TasteRuntime.Link.Mismatch
import TasteRuntime.Link.Progress

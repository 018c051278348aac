import Imkcpp.Accounting
import Imkcpp.ArrivalOrder
import Imkcpp.Backoff
import Imkcpp.Batching
import Imkcpp.Checking
import Imkcpp.ClockGranularity
import Imkcpp.ClockShift
import Imkcpp.CongestionGrowth
import Imkcpp.Consumption
import Imkcpp.DeadLink
import Imkcpp.Deadlines
import Imkcpp.Decoding
import Imkcpp.Delivery
import Imkcpp.Draining
import Imkcpp.DropIn
import Imkcpp.Exchange
import Imkcpp.FastAck
import Imkcpp.FastRetransmission
import Imkcpp.FlowControl
import Imkcpp.Framing
import Imkcpp.Liveness
import Imkcpp.MalformedTail
import Imkcpp.Packing
import Imkcpp.PeerWindow
import Imkcpp.Polling
import Imkcpp.Reassembly
import Imkcpp.ReceiveWindow
import Imkcpp.ReceiverHistory
import Imkcpp.ReferenceEncoding
import Imkcpp.Robustness
import Imkcpp.RoundTrips
import Imkcpp.RtoBounds
import Imkcpp.RtoEstimator
import Imkcpp.SendLimits
import Imkcpp.SendWindow
import Imkcpp.Statistics
import Imkcpp.WindowProbing
import Imkcpp.WireFormat
import Imkcpp.Wraparound

import Netscan.Lib.LabelledSystem
import Netscan.Lib.Refinement
import Netscan.Lib.WindowScan
import Netscan.Lib.History
import Netscan.Lib.SlotTable
import Netscan.Lib.MachineInt
import Netscan.Lib.ByteMemory
import Netscan.Lib.Descriptors
import Netscan.Lib.Calls
import Netscan.Utils.Cidr
import Netscan.Utils.DottedQuad
import Netscan.Utils.CidrText
import Netscan.Utils.Interface
import Netscan.Utils.SysCalls
import Netscan.Ping.Packet
import Netscan.Ping.Scanner
import Netscan.Ping.SlotInvariant
import Netscan.Ping.Run
import Netscan.Ping.Steps
import Netscan.Ping.Frame
import Netscan.Ping.SlotSafety
import Netscan.Ping.Populate
import Netscan.Ping.Trace
import Netscan.Ping.Coverage
import Netscan.Ping.Delivery
import Netscan.Ping.Replies
import Netscan.Ping.Soundness
import Netscan.Ping.Ledger
import Netscan.Ping.SendFailure
import Netscan.Ping.Completeness
import Netscan.Ping.Termination
import Netscan.Ping.SendBuffers
import Netscan.Ping.RxBuffers
import Netscan.Ping.ReceiveDrain
import Netscan.Ping.ReplyOrder
import Netscan.Ping.RoundTrip
import Netscan.Ping.Rollback
import Netscan.Ping.FullWait
import Netscan.Ping.ProbeBalance
import Netscan.Ping.Fates
import Netscan.Ping.Wire
import Netscan.Ping.Reuse
import Netscan.Ping.ControlData
import Netscan.Tcp.Scanner
import Netscan.Tcp.Run
import Netscan.Tcp.Steps
import Netscan.Tcp.Ownership
import Netscan.Tcp.Frame
import Netscan.Tcp.SlotSafety
import Netscan.Tcp.Reuse
import Netscan.Tcp.Trace
import Netscan.Tcp.Reports
import Netscan.Tcp.Coverage
import Netscan.Tcp.Completeness
import Netscan.Tcp.Termination
import Netscan.Tcp.Fates
import Netscan.Arp.Table
import Netscan.Arp.Bounds
import Netscan.Arp.Dump
import Netscan.Arp.Decoding
import Netscan.Arp.Closing
import Netscan.TimeOverflow
import Netscan.Main
import Netscan.Sizes
import Netscan.Options
import Netscan.Ping.Lifetime
import Netscan.Ping.Wakeup
import Netscan.Lib.ClosedLoop
import Netscan.Ping.Network
import Netscan.Ping.Timing
import Netscan.Lib.LastWins
import Netscan.Dispatch
import Netscan.OwnSubnet

import IoBluetooth.Interaction.Program
import IoBluetooth.Interaction.Environment
import IoBluetooth.Interaction.Ledger
import IoBluetooth.Interaction.Events
import IoBluetooth.Sys.Common
import IoBluetooth.Sys.Discovery
import IoBluetooth.Sys.Runs
import IoBluetooth.Sys.Calls
import IoBluetooth.Sys.TimedConnect
import IoBluetooth.Sys.Waits
import IoBluetooth.Properties.AddressCodec
import IoBluetooth.Properties.DiscoveryRelease
import IoBluetooth.Properties.SentAddresses
import IoBluetooth.Properties.ProtocolLayout
import IoBluetooth.Properties.PeerOrigin
import IoBluetooth.Properties.SelectTimeout
import IoBluetooth.Properties.ConnectOutcome
import IoBluetooth.Properties.InterruptedConnect
import IoBluetooth.Properties.WaitTiming
import IoBluetooth.Sys.Ownership
import IoBluetooth.Properties.DescriptorOwnership
import IoBluetooth.Interaction.Total
import IoBluetooth.Sys.Failures
import IoBluetooth.Properties.ZeroTimeout
import IoBluetooth.Properties.DiscoveryComplete
import IoBluetooth.Sys.Options
import IoBluetooth.Properties.MillisecondTimeout
import IoBluetooth.Properties.TimevalTimeout
import IoBluetooth.Bt.Streams
import IoBluetooth.Interaction.AtMostOne
import IoBluetooth.Sys.Exclusive
import IoBluetooth.Properties.EachAddress
import IoBluetooth.Properties.ByteCounts
import IoBluetooth.Interaction.Monitor
import IoBluetooth.Interaction.Threads
import IoBluetooth.Interaction.Custody
import IoBluetooth.Memory.Relaxed
import IoBluetooth.Sys.Requests
import IoBluetooth.Sys.Custody
import IoBluetooth.Sys.Sharing
import IoBluetooth.Properties.ConcurrentOwnership
import IoBluetooth.Sys.TryCloexec
import IoBluetooth.Properties.TryCloexec
import IoBluetooth.Properties.AtomicCloexec
import IoBluetooth.Interaction.Brief
import IoBluetooth.Interaction.Atomic
import IoBluetooth.Interaction.Duplex
import IoBluetooth.Sys.Brief
import IoBluetooth.Sys.Connection
import IoBluetooth.Properties.ByteStreams
import IoBluetooth.Sys.Timeouts
import IoBluetooth.Properties.SharedTimeouts
import IoBluetooth.Interaction.References
import IoBluetooth.Sys.References
import IoBluetooth.Properties.SharedReferences
import IoBluetooth.Sys.Backlog
import IoBluetooth.Properties.AcceptOrder
import IoBluetooth.Interaction.Stages
import IoBluetooth.Sys.Stages
import IoBluetooth.Sys.Course
import IoBluetooth.Properties.SocketStages

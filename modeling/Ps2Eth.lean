import Ps2Eth.Lib.Runs
import Ps2Eth.Smap.TxAccounting
import Ps2Eth.Smap.TxDequeue
import Ps2Eth.Smap.References
import Ps2Eth.Smap.TxOrder
import Ps2Eth.Smap.LinkDown
import Ps2Eth.Smap.IntrHandler
import Ps2Eth.Smap.WakeUp
import Ps2Eth.SmapLinux.TxDescriptors
import Ps2Eth.SmapLinux.TxMemory
import Ps2Eth.SmapLinux.SendPaths
import Ps2Eth.Lib.WorkQueue
import Ps2Eth.SmapLinux.RequestQueue
import Ps2Eth.SmapLinux.SendThreads
import Ps2Eth.SmapLinux.StrandedSenders
import Ps2Eth.SmapLinux.RequestOrder
import Ps2Eth.Lib.Polling
import Ps2Eth.SmapLinux.Phy
import Ps2Eth.SmapLinux.ValidLink
import Ps2Eth.SmapLinux.ForcedSpeed
import Ps2Eth.Lib.SerialBus
import Ps2Eth.SmapLinux.Eeprom
import Ps2Eth.Smap.Retransmission
import Ps2Eth.Lib.Loops
import Ps2Eth.Smap.Receive
import Ps2Eth.SmapLinux.Receive
import Ps2Eth.Smap.InitPhy
import Ps2Eth.Smap.LinkWitness
import Ps2Eth.Smap.LinkMode
import Ps2Eth.SmapLinux.Interrupt
import Ps2Eth.SmapLinux.Completions
import Ps2Eth.Ps2klsi.Output
import Ps2Eth.Ps2klsi.Transfers
import Ps2Eth.Ps2klsi.OwnTransfers
import Ps2Eth.Smap.ThreadMoves
import Ps2Eth.Smap.InitStart
import Ps2Eth.Smap.StartStop
import Ps2Eth.Smap.LinkRecovery
import Ps2Eth.Smap.PhyReset
import Ps2Eth.Ps2klsi.Framing
import Ps2Eth.Ps2klsi.Input
import Ps2Eth.Lib.Memory
import Ps2Eth.Ps2klsi.Netif
import Ps2Eth.Ps2klsi.LinkOutput
import Ps2Eth.Ps2klsi.Etharp
import Ps2Eth.Lib.CText
import Ps2Eth.Smap.Configuration
import Ps2Eth.Smap.SmapInit
import Ps2Eth.Smap.StartGate
import Ps2Eth.MacAddress
import Ps2Eth.Lib.While
import Ps2Eth.Ps2klsi.InetAddr
import Ps2Eth.Smap.Pause
import Ps2Eth.Smap.ReferenceBalance
import Ps2Eth.Smap.QueueHead
import Ps2Eth.Lib.OnesComplement
import Ps2Eth.Ps2klsi.UdpLog
import Ps2Eth.Smap.Advertised
import Ps2Eth.Lib.Layout
import Ps2Eth.Lib.AgedMap
import Ps2Eth.Lib.Broadcast
import Ps2Eth.Etharp.Header
import Ps2Eth.Etharp.Table
import Ps2Eth.Etharp.Cache
import Ps2Eth.Etharp.Input
import Ps2Eth.Etharp.Network
import Ps2Eth.Etharp.Resolution
import Ps2Eth.Etharp.Image
import Ps2Eth.Etharp.Wire
import Ps2Eth.Lib.FrameRing
import Ps2Eth.Lib.Service
import Ps2Eth.Smap.ReceiveRuns
import Ps2Eth.SmapLinux.ReceiveRuns
import Ps2Eth.Smap.TxReports
import Ps2Eth.Lib.SerialMemory
import Ps2Eth.SmapLinux.NodeAddr
import Ps2Eth.SmapLinux.EmacMode
import Ps2Eth.Ps2klsi.Attach
import Ps2Eth.SmapLinux.Lifecycle
import Ps2Eth.SmapLinux.TxFrames
import Ps2Eth.SmapLinux.Sending

import TwinpassGateway.Mps.FifoQueue
import TwinpassGateway.Mps.Mailbox
import TwinpassGateway.Mps.Publication
import TwinpassGateway.Foundation.Ring
import TwinpassGateway.Mps.BufferPool
import TwinpassGateway.Mps.BufferAccount
import TwinpassGateway.Mps.BufferConservation
import TwinpassGateway.Build.ConfigOptions
import TwinpassGateway.Build.ConfigPriority
import TwinpassGateway.Crypto.Sha1
import TwinpassGateway.Crypto.Sha1Contexts
import TwinpassGateway.Crypto.AesCipher
import TwinpassGateway.Crypto.Aes
import TwinpassGateway.Crypto.AesContexts
import TwinpassGateway.Wireless.IoctlSend
import TwinpassGateway.Mps.RemoteCommand
import TwinpassGateway.Wireless.OwnResponse
import TwinpassGateway.Mps.RemoteCommandSound
import TwinpassGateway.Dma.Device
import TwinpassGateway.Dma.Conservation
import TwinpassGateway.Foundation.Lifetime
import TwinpassGateway.Wireless.IoctlHandlers
import TwinpassGateway.Wireless.IoctlBuffers
import TwinpassGateway.Wireless.VapTable
import TwinpassGateway.Mps.Callbacks
import TwinpassGateway.Ipc.BioSocket
import TwinpassGateway.Ipc.Framing
import TwinpassGateway.Ipc.Connect
import TwinpassGateway.Crypto.Hmac
import TwinpassGateway.Crypto.Des
import TwinpassGateway.Crypto.SetKey
import TwinpassGateway.Crypto.SecApi
import TwinpassGateway.Crypto.SecApiOutcome
import TwinpassGateway.Foundation.Field
import TwinpassGateway.Switch.Adm6996
import TwinpassGateway.Switch.Settings
import TwinpassGateway.Eth.Xmit
import TwinpassGateway.Foundation.Loan
import TwinpassGateway.Eth.TransmitSlots
import TwinpassGateway.Eth.FlowControl
import TwinpassGateway.Eth.WakeUp
import TwinpassGateway.Foundation.Ranked
import TwinpassGateway.Build.ModuleValues
import TwinpassGateway.Build.CommandLine
import TwinpassGateway.Build.ConfigStrings
import TwinpassGateway.Build.Validity
import TwinpassGateway.Build.Printers
import TwinpassGateway.Foundation.Window
import TwinpassGateway.Dma.TransmitLedger
import TwinpassGateway.Dma.ReceiveRing
import TwinpassGateway.Dma.Reservation
import TwinpassGateway.Dma.Tasklet
import TwinpassGateway.Crypto.Md5Driver
import TwinpassGateway.Crypto.HashFeed
import TwinpassGateway.Crypto.HmacLength
import TwinpassGateway.Foundation.BoundedFifo
import TwinpassGateway.Mps.DatamsgQueue
import TwinpassGateway.Mps.PoolQueue
import TwinpassGateway.Mps.QueueInit
import TwinpassGateway.Foundation.Linked
import TwinpassGateway.Mps.Backlog
import TwinpassGateway.Mps.DataList
import TwinpassGateway.Mps.Reception
import TwinpassGateway.Mps.SendOutcome
import TwinpassGateway.Foundation.Areas
import TwinpassGateway.Mps.Headroom
import TwinpassGateway.Foundation.ByteRange
import TwinpassGateway.Mps.Mitigation
import TwinpassGateway.Mps.SkbCopy
import TwinpassGateway.Spi.Transmit
import TwinpassGateway.Spi.Baud
import TwinpassGateway.Spi.Receive
import TwinpassGateway.Foundation.CharArray
import TwinpassGateway.Util.ErrorFormat
import TwinpassGateway.Foundation.Printf
import TwinpassGateway.Util.ErrorMessage
import TwinpassGateway.Foundation.StableOrder
import TwinpassGateway.Util.ErrorNotify
import TwinpassGateway.Util.NotifyHistory
import TwinpassGateway.Switch.Bandwidth
import TwinpassGateway.Switch.Filters
import TwinpassGateway.Util.StringCompare
import TwinpassGateway.Util.StringParts
import TwinpassGateway.Foundation.Substring
import TwinpassGateway.Util.StringReplace
import TwinpassGateway.Ppp.Pppoatm
import TwinpassGateway.Ppp.Circuits
import TwinpassGateway.Foundation.Framing
import TwinpassGateway.Ppp.Transport
import TwinpassGateway.Ipc.StringRead
import TwinpassGateway.Util.MgtClient
import TwinpassGateway.Build.MkconfigLine
import TwinpassGateway.Build.MkconfigInclude
import TwinpassGateway.Build.MkconfigStack
import TwinpassGateway.Switch.ProtocolFilters
import TwinpassGateway.Switch.AdmIoctl
import TwinpassGateway.Eth.LoopDetect
import TwinpassGateway.Eth.AtuLookup
import TwinpassGateway.Eth.RouteTable
import TwinpassGateway.Eth.Receive
import TwinpassGateway.Foundation.Amortized
import TwinpassGateway.Dma.FairService
import TwinpassGateway.Dma.Drain
import TwinpassGateway.Foundation.Routine
import TwinpassGateway.Foundation.LocalMemory
import TwinpassGateway.Switch.ProcWrite
import TwinpassGateway.Foundation.RoutineRefines
import TwinpassGateway.Eth.ProcParsers
import TwinpassGateway.Eth.ProcCommands
import TwinpassGateway.Foundation.DecTest
import TwinpassGateway.Mps.EntryLocks
import TwinpassGateway.Eth.MdioAccess
import TwinpassGateway.Foundation.LowestBit
import TwinpassGateway.Irq.Icu
import TwinpassGateway.Serial.Asc
import TwinpassGateway.Serial.Receive
import TwinpassGateway.Serial.ReceiveOrder
import TwinpassGateway.Gpio.Ownership
import TwinpassGateway.Boot.PromInit
import TwinpassGateway.Boot.CommandLine
import TwinpassGateway.Foundation.LocalText
import TwinpassGateway.Eth.RouteText
import TwinpassGateway.Eth.TokenText
import TwinpassGateway.Eth.RouteArguments
import TwinpassGateway.Eth.RouteLines
import TwinpassGateway.Eth.RouteRoundTrip
import TwinpassGateway.Eth.ReadProc
import TwinpassGateway.Foundation.Paging
import TwinpassGateway.Eth.ReadProcPages
import TwinpassGateway.Eth.ReadProcRoute
import TwinpassGateway.Eth.ReadProcTables
import TwinpassGateway.Foundation.Dialogue
import TwinpassGateway.Ipc.Dialogue
import TwinpassGateway.Ipc.Rendezvous
import TwinpassGateway.Build.MkconfigFlatten
import TwinpassGateway.Crypto.CipherSessions
import TwinpassGateway.Mps.DualCore
import TwinpassGateway.Mps.DualCoreDelivery
import TwinpassGateway.Mps.DualCoreProgress
import TwinpassGateway.Spi.Session
import TwinpassGateway.Spi.SessionFraming
import TwinpassGateway.Spi.Mdio

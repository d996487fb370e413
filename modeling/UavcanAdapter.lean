import UavcanAdapter.Base.Bytes
import UavcanAdapter.Base.Call
import UavcanAdapter.Base.Prog
import UavcanAdapter.Base.Machine
import UavcanAdapter.Base.Words
import UavcanAdapter.Base.Bits
import UavcanAdapter.Base.BitSet
import UavcanAdapter.Base.Parts
import UavcanAdapter.Base.ShiftRegister
import UavcanAdapter.Base.SequenceNumbers
import UavcanAdapter.Base.Mailbox
import UavcanAdapter.Base.PagedFlash
import UavcanAdapter.Base.Cells
import UavcanAdapter.Base.StableQueue
import UavcanAdapter.Base.Fill
import UavcanAdapter.Os.HString
import UavcanAdapter.Os.IntToString
import UavcanAdapter.Os.HeaplessString
import UavcanAdapter.Os.StringEquality
import UavcanAdapter.Os.SystemTime
import UavcanAdapter.Bootloader.Types
import UavcanAdapter.Bootloader.Crc64
import UavcanAdapter.Bootloader.BurstErrors
import UavcanAdapter.Bootloader.Storage
import UavcanAdapter.Bootloader.Locate
import UavcanAdapter.Bootloader.Control
import UavcanAdapter.Bootloader.Threads
import UavcanAdapter.Bootloader.BootDelay
import UavcanAdapter.Bootloader.Upgrade
import UavcanAdapter.Flash.Writer
import UavcanAdapter.Flash.Erase
import UavcanAdapter.Flash.AppStorage
import UavcanAdapter.Flash.Download
import UavcanAdapter.Flash.PowerLoss
import UavcanAdapter.Tool.BootDescriptor
import UavcanAdapter.Tool.SignThenVerify
import UavcanAdapter.Tool.DescriptorSearch
import UavcanAdapter.Node.Timekeeper
import UavcanAdapter.Node.Canard
import UavcanAdapter.Canard.TransferCrc
import UavcanAdapter.Canard.CanId
import UavcanAdapter.Canard.TxQueue
import UavcanAdapter.Canard.Allocator
import UavcanAdapter.Canard.Types
import UavcanAdapter.Canard.Transmission
import UavcanAdapter.Canard.RxState
import UavcanAdapter.Canard.Reception
import UavcanAdapter.Canard.Instance
import UavcanAdapter.Canard.Session
import UavcanAdapter.Canard.Stream
import UavcanAdapter.Canard.Delivery
import UavcanAdapter.Canard.Network
import UavcanAdapter.Canard.BitCopy
import UavcanAdapter.Node.State
import UavcanAdapter.Node.Reception
import UavcanAdapter.Node.AcceptanceFilter
import UavcanAdapter.Node.NodeInfo
import UavcanAdapter.Node.Robustness
import UavcanAdapter.Node.Download
import UavcanAdapter.Node.Stream
import UavcanAdapter.Node.Authenticity
import UavcanAdapter.Node.Allocation
import UavcanAdapter.Board.System
import UavcanAdapter.Node.UpdateLoop
import UavcanAdapter.Node.PathTransport
import UavcanAdapter.Board.Handover
import UavcanAdapter.Board.Acceptance
import UavcanAdapter.Interface.Marshaller
import UavcanAdapter.Interface.Scattered
import UavcanAdapter.Interface.AppShared
import UavcanAdapter.Interface.UpdateRequest
import UavcanAdapter.Os.Watchdog
import UavcanAdapter.Config.Param
import UavcanAdapter.Config.Store
import UavcanAdapter.Config.Eeprom
import UavcanAdapter.Config.Pool
import UavcanAdapter.Config.Restore
import UavcanAdapter.Config.FlashBackend
import UavcanAdapter.Config.Crash
import UavcanAdapter.Config.Layout
import UavcanAdapter.Sensor.Driver4525D
import UavcanAdapter.Sensor.AirspeedLoop
import UavcanAdapter.Board.Isolation
import UavcanAdapter.Canard.Descatter
import UavcanAdapter.Canard.Scalar
import UavcanAdapter.Driver.Registers
import UavcanAdapter.Driver.Mailboxes
import UavcanAdapter.Driver.Sender
import UavcanAdapter.Driver.Timings
import UavcanAdapter.Driver.Filters

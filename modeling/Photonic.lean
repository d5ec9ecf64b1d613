import Photonic.Lib.Machine
import Photonic.Lib.Pool
import Photonic.Lib.Heap
import Photonic.Lib.Quads
import Photonic.Lib.Routine
import Photonic.Lib.Tiling
import Photonic.Engine.State
import Photonic.Engine.Step
import Photonic.Engine.Cases
import Photonic.Engine.Callbacks
import Photonic.Engine.Placement
import Photonic.Engine.Knowledge
import Photonic.Engine.Cookies
import Photonic.Engine.Accounting
import Photonic.Engine.Coalescing
import Photonic.Engine.Election
import Photonic.Engine.Supply
import Photonic.Engine.Renewal
import Photonic.Engine.Chunks
import Photonic.Device.State
import Photonic.Device.Step
import Photonic.Device.Cases
import Photonic.Device.Projection
import Photonic.Session.Calls
import Photonic.Session.Mode
import Photonic.Session.Running
import Photonic.Session.Partition
import Photonic.Session.Delivery
import Photonic.Session.Idle
import Photonic.Session.Measure
import Photonic.Session.Progress
import Photonic.Session.Quiesce
import Photonic.Session.Vacancy
import Photonic.Session.Completion
import Photonic.Session.Resources
import Photonic.Session.Binding
import Photonic.Session.Quarantine
import Photonic.Session.StopFirst
import Photonic.Session.Enable
import Photonic.Session.Work
import Photonic.Session.Camera
import Photonic.Session.Halt
import Photonic.Session.CancelWork
import Photonic.Session.FrontEnd
import Photonic.Session.Feed
import Photonic.Interface.Extension
import Photonic.Interface.Exclusion
import Photonic.Interface.Handles
import Photonic.Ioctl.Ring
import Photonic.Ioctl.Events
import Photonic.Ioctl.Slot
import Photonic.Ioctl.Verbs
import Photonic.Ioctl.Cases
import Photonic.Ioctl.Phases
import Photonic.Ioctl.Rest
import Photonic.Ioctl.Rotation
import Photonic.Ioctl.Founded
import Photonic.Ioctl.Feed
import Photonic.Ioctl.Failure
import Photonic.Ioctl.Atomicity
import Photonic.Ioctl.Pages
import Photonic.Ioctl.NonOwner
import Photonic.Mailbox.Head
import Photonic.Mailbox.RawPacket
import Photonic.Bus.Irb
import Photonic.Bus.Handshake
import Photonic.Bus.Generation
import Photonic.Dcam.Registers
import Photonic.Dcam.Modes
import Photonic.Dcam.Table
import Photonic.Dcam.Configure
import Photonic.Dcam.Rates
import Photonic.Dcam.PacketSize
import Photonic.Dcam.Current
import Photonic.Dcam.RateSet
import Photonic.Fake.Format7
import Photonic.Fake.Agreement
import Photonic.Fake.Frame
import Photonic.Fake.Transmit
import Photonic.Stream.Formats
import Photonic.Stream.Negotiation
import Photonic.Stream.History
import Photonic.Stream.Agreement
import Photonic.Stream.Intersection
import Photonic.Stream.BitRates
import Photonic.Stream.FrameSize
import Photonic.Stream.Rundown
import Photonic.Stream.Reads
import Photonic.Stream.ReadSteps
import Photonic.Stream.Custody
import Photonic.Stream.Teardown
import Photonic.Stream.Cancel
import Photonic.Stream.Numbers
import Photonic.Lib.SharedBuffer
import Photonic.Ioctl.Handlers
import Photonic.Ioctl.Contract
import Photonic.Session.FrameBytes
import Photonic.Ioctl.FrameSize
import Photonic.Fake.Checksum
import Photonic.Fake.Listener
import Photonic.Fake.Heard
import Photonic.Fake.Bursts
import Photonic.Fake.FrameLines
import Photonic.Fake.LossAccounting
import Photonic.Fake.Trigger
import Photonic.Fake.QueueFrame
import Photonic.Fake.RingQueue
import Photonic.Fake.Enumeration
import Photonic.Lib.Tally
import Photonic.Lib.BoundedArray
import Photonic.Fake.ConfigRom
import Photonic.Bus.CsrBase
import Photonic.Dcam.Features
import Photonic.Dcam.Probing
import Photonic.Fake.Features

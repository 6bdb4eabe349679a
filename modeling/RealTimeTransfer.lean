import RealTimeTransfer.Lib.Machine
import RealTimeTransfer.Lib.Words
import RealTimeTransfer.Utils.Error
import RealTimeTransfer.Timers.Timespec
import RealTimeTransfer.Timers.Clock
import RealTimeTransfer.Timers.Timer
import RealTimeTransfer.Timers.Schedule
import RealTimeTransfer.Lib.Sync
import RealTimeTransfer.Senders.DataPackets
import RealTimeTransfer.Senders.Worker
import RealTimeTransfer.Senders.Handshake
import RealTimeTransfer.Senders.Sender
import RealTimeTransfer.Senders.Control
import RealTimeTransfer.Senders.Session
import RealTimeTransfer.Senders.Stream
import RealTimeTransfer.Senders.Completion
import RealTimeTransfer.Senders.Lifetimes
import RealTimeTransfer.Systems.Discipline
import RealTimeTransfer.Systems.RunTrace
import RealTimeTransfer.Senders.Copies
import RealTimeTransfer.Systems.RunSender
import RealTimeTransfer.Timers.Targets
import RealTimeTransfer.Timers.Contract
import RealTimeTransfer.Systems.Shutdown
import RealTimeTransfer.Systems.Tolerance
import RealTimeTransfer.Systems.Delays
import RealTimeTransfer.Systems.Deadline
import RealTimeTransfer.Senders.Transmission
import RealTimeTransfer.Senders.Notifications
import RealTimeTransfer.Systems.BeforeRun
import RealTimeTransfer.Timers.Regular
import RealTimeTransfer.Timers.Sleep
import RealTimeTransfer.Timers.Call
import RealTimeTransfer.Timers.Safety
import RealTimeTransfer.Timers.Precision
import RealTimeTransfer.Systems.Polling
import RealTimeTransfer.Systems.Disconnect
import RealTimeTransfer.Lib.Progress
import RealTimeTransfer.Senders.Liveness
import RealTimeTransfer.Senders.Waiting
import RealTimeTransfer.Lib.Simulation
import RealTimeTransfer.Senders.Report
import RealTimeTransfer.Senders.ZeroCopy
import RealTimeTransfer.Systems.Causes
import RealTimeTransfer.Senders.Renewal
import RealTimeTransfer.Senders.Descriptors
import RealTimeTransfer.Systems.RunTimer
import RealTimeTransfer.Systems.Slots
import RealTimeTransfer.Senders.Delivery
import RealTimeTransfer.Systems.RunStream
import RealTimeTransfer.Senders.ListMemory
import RealTimeTransfer.Systems.RunLists
import RealTimeTransfer.Systems.RunZeroCopy
import RealTimeTransfer.Systems.Program

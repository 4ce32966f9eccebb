import Dnp3Bridge.Concurrency.Run
import Dnp3Bridge.Concurrency.Threads
import Dnp3Bridge.Concurrency.Promises
import Dnp3Bridge.Concurrency.Latest
import Dnp3Bridge.Sequences.Delimited
import Dnp3Bridge.Sequences.Grouped
import Dnp3Bridge.Sequences.LastSet
import Dnp3Bridge.Reporting.OnChange
import Dnp3Bridge.Errors.Except
import Dnp3Bridge.Errors.FirstError
import Dnp3Bridge.Numeric.CountedLoop
import Dnp3Bridge.Numeric.Double
import Dnp3Bridge.Proto.Messages
import Dnp3Bridge.Dispatcher.Model
import Dnp3Bridge.Dispatcher.Step
import Dnp3Bridge.Dispatcher.Locks
import Dnp3Bridge.Dispatcher.Meeting
import Dnp3Bridge.Dispatcher.Agreement
import Dnp3Bridge.Dispatcher.CommandIds
import Dnp3Bridge.Dispatcher.PendingTable
import Dnp3Bridge.Dispatcher.Writes
import Dnp3Bridge.Dispatcher.Restart
import Dnp3Bridge.Dispatcher.Registry
import Dnp3Bridge.Dispatcher.Streams
import Dnp3Bridge.Dispatcher.Scopes
import Dnp3Bridge.Bridge.DataModel
import Dnp3Bridge.Bridge.Model
import Dnp3Bridge.Bridge.Step
import Dnp3Bridge.Bridge.Lifecycle
import Dnp3Bridge.Bridge.Queue
import Dnp3Bridge.Bridge.Accounts
import Dnp3Bridge.Grpc.UpdatePoints
import Dnp3Bridge.Bridge.Requests
import Dnp3Bridge.Config.AppConfig
import Dnp3Bridge.Config.Json
import Dnp3Bridge.Config.Loader
import Dnp3Bridge.Outstation.Database
import Dnp3Bridge.Outstation.Validation
import Dnp3Bridge.Outstation.Manager
import Dnp3Bridge.Outstation.Points
import Dnp3Bridge.Outstation.Aliasing
import Dnp3Bridge.Outstation.Deadband
import Dnp3Bridge.Outstation.QualityChange
import Dnp3Bridge.Outstation.EventStream
import Dnp3Bridge.Outstation.Violations
import Dnp3Bridge.Outstation.Accepted
import Dnp3Bridge.Outstation.Overlay
import Dnp3Bridge.Outstation.ClassDefaults
import Dnp3Bridge.Outstation.Spelling
import Dnp3Bridge.Outstation.NamedPoints
import Dnp3Bridge.Outstation.CommandHandler
import Dnp3Bridge.Outstation.Interlock
import Dnp3Bridge.Outstation.Forwarding
import Dnp3Bridge.Grpc.Delivery
import Dnp3Bridge.Grpc.GrpcServer
import Dnp3Bridge.Grpc.Shutdown
import Dnp3Bridge.Outstation.PointRuns
import Dnp3Bridge.Config.Environment
import Dnp3Bridge.Config.Kinds
import Dnp3Bridge.Outstation.FileNumbers
import Dnp3Bridge.Concurrency.LockOrder
import Dnp3Bridge.Bridge.Wakeup
import Dnp3Bridge.Dispatcher.Deadlock
import Dnp3Bridge.Bridge.Progress
import Dnp3Bridge.Dispatcher.Termination
import Dnp3Bridge.Main.Model
import Dnp3Bridge.Main.Step
import Dnp3Bridge.Main.Order
import Dnp3Bridge.Main.Shutdown
import Dnp3Bridge.Main.Termination
import Dnp3Bridge.Main.Program
import Dnp3Bridge.Main.Quiet
import Dnp3Bridge.Main.Return
import Dnp3Bridge.Dispatcher.Verdicts
import Dnp3Bridge.Dispatcher.Routing
import Dnp3Bridge.Config.RoundTrip
import Dnp3Bridge.Outstation.Traffic
import Dnp3Bridge.Outstation.Sessions
import Dnp3Bridge.Main.RealTime
import Dnp3Bridge.Main.Service
import Dnp3Bridge.Outstation.Commands
import Dnp3Bridge.Main.Status

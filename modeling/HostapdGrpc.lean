import HostapdGrpc.Interaction.Auxiliary
import HostapdGrpc.Interaction.Completion
import HostapdGrpc.Interaction.Contracts
import HostapdGrpc.Interaction.Cursor
import HostapdGrpc.Interaction.Execution
import HostapdGrpc.Interaction.History
import HostapdGrpc.Interaction.Interpret
import HostapdGrpc.Interaction.LockOrder
import HostapdGrpc.Interaction.Ownership
import HostapdGrpc.Interaction.Program
import HostapdGrpc.Interaction.RelyGuarantee
import HostapdGrpc.Interaction.Simulation
import HostapdGrpc.Interaction.Strengthening
import HostapdGrpc.Interaction.ThreadPool
import HostapdGrpc.Interaction.Trace
import HostapdGrpc.Interaction.Walk
import HostapdGrpc.Go.Elements
import HostapdGrpc.Go.Errors
import HostapdGrpc.Go.Lines
import HostapdGrpc.Go.Path
import HostapdGrpc.Go.Strings
import HostapdGrpc.Socket.Atomicity
import HostapdGrpc.Socket.Behind
import HostapdGrpc.Socket.Cache
import HostapdGrpc.Socket.Calls
import HostapdGrpc.Socket.ClientPaths
import HostapdGrpc.Socket.Counting
import HostapdGrpc.Socket.Coupling
import HostapdGrpc.Socket.Deadlock
import HostapdGrpc.Socket.Devices
import HostapdGrpc.Socket.DoubleClose
import HostapdGrpc.Socket.Exchanges
import HostapdGrpc.Socket.Fetching
import HostapdGrpc.Socket.Freed
import HostapdGrpc.Socket.Handles
import HostapdGrpc.Socket.Invariant
import HostapdGrpc.Socket.Life
import HostapdGrpc.Socket.LifeCycle
import HostapdGrpc.Socket.Locking
import HostapdGrpc.Socket.Manager
import HostapdGrpc.Socket.Naming
import HostapdGrpc.Socket.Operations
import HostapdGrpc.Socket.Preservation
import HostapdGrpc.Socket.Process
import HostapdGrpc.Socket.Reconnect
import HostapdGrpc.Socket.Registry
import HostapdGrpc.Socket.Requesting
import HostapdGrpc.Socket.Retries
import HostapdGrpc.Socket.Soundness
import HostapdGrpc.Socket.State
import HostapdGrpc.Socket.SystemCalls
import HostapdGrpc.Socket.Unlimited
import HostapdGrpc.Socket.WpaCtrlOpen
import HostapdGrpc.Socket.WpaCtrlRequest
import HostapdGrpc.Server.Aggregation
import HostapdGrpc.Server.Alone
import HostapdGrpc.Server.Balance
import HostapdGrpc.Server.Calls
import HostapdGrpc.Server.Churn
import HostapdGrpc.Server.Collection
import HostapdGrpc.Server.Counters
import HostapdGrpc.Server.Custody
import HostapdGrpc.Server.Discipline
import HostapdGrpc.Server.Encodings
import HostapdGrpc.Server.Enumeration
import HostapdGrpc.Server.Err
import HostapdGrpc.Server.Format
import HostapdGrpc.Server.Gauge
import HostapdGrpc.Server.Isolation
import HostapdGrpc.Server.Main
import HostapdGrpc.Server.Metrics
import HostapdGrpc.Server.NoPanic
import HostapdGrpc.Server.Reporting
import HostapdGrpc.Server.Roster
import HostapdGrpc.Server.Serial
import HostapdGrpc.Server.Service
import HostapdGrpc.Server.Sharing
import HostapdGrpc.Server.Station
import HostapdGrpc.Server.Unlimited
import HostapdGrpc.Server.Waiting

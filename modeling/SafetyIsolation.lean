import SafetyIsolation.Interleaving.Program
import SafetyIsolation.Interleaving.RelyGuarantee
import SafetyIsolation.Interleaving.Mutex
import SafetyIsolation.Interleaving.Linearization
import SafetyIsolation.Interleaving.Alone
import SafetyIsolation.Interleaving.Steps
import SafetyIsolation.Interleaving.LockOrder
import SafetyIsolation.Interleaving.SharedFile
import SafetyIsolation.Interleaving.Knowledge
import SafetyIsolation.Interleaving.Layers
import SafetyIsolation.Interleaving.Waiting
import SafetyIsolation.Interleaving.SoleWriter
import SafetyIsolation.BoundedLog.Ring
import SafetyIsolation.Text.Bytes
import SafetyIsolation.Text.Search
import SafetyIsolation.Text.Lines
import SafetyIsolation.Text.Streams
import SafetyIsolation.Text.Hex
import SafetyIsolation.Text.Fields
import SafetyIsolation.Text.Numerals
import SafetyIsolation.Text.PrintedNumbers
import SafetyIsolation.Text.Writes
import SafetyIsolation.Text.Utf8
import SafetyIsolation.Dependencies.Order
import SafetyIsolation.Kernel.Constants
import SafetyIsolation.Kernel.PageTable
import SafetyIsolation.Kernel.Translation
import SafetyIsolation.Kernel.CtxMonitor
import SafetyIsolation.Kernel.SmmuGuard
import SafetyIsolation.Kernel.State
import SafetyIsolation.Kernel.SafetyMem
import SafetyIsolation.Kernel.Actors
import SafetyIsolation.Kernel.ProcShow
import SafetyIsolation.Kernel.LogText
import SafetyIsolation.Status.Keys
import SafetyIsolation.Kernel.ProcRead
import SafetyIsolation.Kernel.ProcWrite
import SafetyIsolation.Kernel.Frame
import SafetyIsolation.Kernel.Loading
import SafetyIsolation.Kernel.Sequential
import SafetyIsolation.Protection.Commands
import SafetyIsolation.Protection.Sections
import SafetyIsolation.Protection.FlagTruth
import SafetyIsolation.Protection.Observation
import SafetyIsolation.Protection.DirectAlias
import SafetyIsolation.Protection.Cooperation
import SafetyIsolation.Protection.Bypass
import SafetyIsolation.Protection.Windows
import SafetyIsolation.Protection.AbstractCell
import SafetyIsolation.Monitoring.Violations
import SafetyIsolation.Monitoring.FaultLog
import SafetyIsolation.Monitoring.ProtectedRange
import SafetyIsolation.Monitoring.FaultFilter
import SafetyIsolation.Monitoring.Histories
import SafetyIsolation.Monitoring.LogTexts
import SafetyIsolation.Attacks.Record
import SafetyIsolation.Attacks.Metadata
import SafetyIsolation.Attacks.MetadataVerdict
import SafetyIsolation.Attacks.Blocked
import SafetyIsolation.Attacks.IsolationVerdict
import SafetyIsolation.Harness.System
import SafetyIsolation.Harness.ModuleLoader
import SafetyIsolation.Harness.LoaderLocks
import SafetyIsolation.Harness.Unlocked
import SafetyIsolation.Harness.LoaderCalls
import SafetyIsolation.Harness.StateFile
import SafetyIsolation.Harness.Scenarios
import SafetyIsolation.Harness.Counters
import SafetyIsolation.Harness.Session
import SafetyIsolation.Harness.Runner
import SafetyIsolation.Monitor.Display
import SafetyIsolation.Monitor.Renderer
import SafetyIsolation.Monitor.EventStream
import SafetyIsolation.Modules.Rules
import SafetyIsolation.Modules.Ownership
import SafetyIsolation.Modules.Tracking
import SafetyIsolation.Modules.Registry
import SafetyIsolation.Modules.Unloading
import SafetyIsolation.Modules.SignalCleanup
import SafetyIsolation.Modules.Deadlock
import SafetyIsolation.Modules.ScenarioRules
import SafetyIsolation.Modules.Lifecycle
import SafetyIsolation.Modules.Answered
import SafetyIsolation.Modules.Sequence
import SafetyIsolation.Status.Decoding
import SafetyIsolation.Status.StatusText
import SafetyIsolation.Status.Searches
import SafetyIsolation.Status.Verdicts
import SafetyIsolation.Status.Syncing
import SafetyIsolation.Status.RoundTrip
import SafetyIsolation.Status.Forgery
import SafetyIsolation.Status.Schedules
import SafetyIsolation.Status.Consistency
import SafetyIsolation.Frames.Widths
import SafetyIsolation.Frames.Geometry
import SafetyIsolation.Frames.Events
import SafetyIsolation.Frames.Streamed
import SafetyIsolation.Frames.Cuts
import SafetyIsolation.Frames.Threads
import SafetyIsolation.Frames.Tearing
import SafetyIsolation.Devmem.PhysView
import SafetyIsolation.Devmem.Numbers
import SafetyIsolation.Devmem.MemoryRegion
import SafetyIsolation.Lifetimes.Host
import SafetyIsolation.Lifetimes.Calls
import SafetyIsolation.Lifetimes.OwnCode
import SafetyIsolation.Lifetimes.Ownership
import SafetyIsolation.Lifetimes.Functions
import SafetyIsolation.Lifetimes.Changes
import SafetyIsolation.Lifetimes.Soundness
import SafetyIsolation.Lifetimes.Access
import SafetyIsolation.Lifetimes.Advance
import SafetyIsolation.Lifetimes.FlagTruth
import SafetyIsolation.Lifetimes.Safety
import SafetyIsolation.Lifetimes.Progress
import SafetyIsolation.Lifetimes.ModuleTable
import SafetyIsolation.Memory.Words
import SafetyIsolation.Devmem.Computer
import SafetyIsolation.Devmem.Tool
import SafetyIsolation.Devmem.Transfers
import SafetyIsolation.Devmem.Watching
import SafetyIsolation.Devmem.Conduct
import SafetyIsolation.Devmem.Guarantees

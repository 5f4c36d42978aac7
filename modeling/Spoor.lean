import Spoor.Lib.Transition
import Spoor.FlushQueue.DiskFlushQueue
import Spoor.FlushQueue.Steps
import Spoor.FlushQueue.Counter
import Spoor.FlushQueue.Records
import Spoor.FlushQueue.Shutdown
import Spoor.FlushQueue.Completion
import Spoor.FlushQueue.CompletionSlot
import Spoor.FlushQueue.Retention
import Spoor.Buffer.Slice
import Spoor.Buffer.CircularSliceBuffer
import Spoor.Buffer.Contents
import Spoor.EventLogging.EventLogger
import Spoor.EventLogging.Lossless
import Spoor.Lib.ByteOrder
import Spoor.Trace.Trace
import Spoor.Trace.TraceFile
import Spoor.Trace.ForeignEndian
import Spoor.Buffer.BufferSlicePool
import Spoor.Buffer.Accounting
import Spoor.FlushQueue.Handover
import Spoor.FlushQueue.Lifecycle
import Spoor.Runtime.RuntimeManager
import Spoor.Runtime.Conservation
import Spoor.Runtime.Steps
import Spoor.Runtime.Phases
import Spoor.Runtime.Deinitialize
import Spoor.Runtime.Overlap
import Spoor.FlushQueue.Retries
import Spoor.FlushQueue.WriteOrder
import Spoor.FlushQueue.CircularMode
import Spoor.FlushQueue.FileNames
import Spoor.Trace.ReadSafety
import Spoor.Trace.WriteSuccess
import Spoor.Runtime.PoolAgreement
import Spoor.Buffer.Provenance
import Spoor.Runtime.Attribution
import Spoor.Instrumentation.Filters
import Spoor.Instrumentation.InjectInstrumentation
import Spoor.Instrumentation.Bracketing
import Spoor.Instrumentation.FunctionIds
import Spoor.Instrumentation.TailCalls
import Spoor.Instrumentation.ConfigFunction
import Spoor.Buffer.ReservedPoolSteps
import Spoor.Buffer.ReservedPoolSize
import Spoor.Buffer.DynamicPoolSteps
import Spoor.Buffer.CombinedPoolRuns
import Spoor.Buffer.Agreement
import Spoor.EventLogging.HandOver
import Spoor.Instrumentation.FilterPolicy
import Spoor.Lib.Path
import Spoor.Instrumentation.SourcePaths
import Spoor.Instrumentation.PreservedAnalyses
import Spoor.Runtime.Enabling
import Spoor.Trace.LocalFileReader
import Spoor.Perfetto.PerfettoAdapter
import Spoor.Perfetto.Packets
import Spoor.Perfetto.InternedData
import Spoor.Configuration.PathExpansion
import Spoor.Configuration.Source
import Spoor.Configuration.Config
import Spoor.Configuration.Precedence
import Spoor.Configuration.TraceDirectory
import Spoor.Instrumentation.ConfigFileSearch
import Spoor.Instrumentation.FiltersFileReader
import Spoor.Runtime.TraceDeletion
import Spoor.Lib.MultiMap
import Spoor.Symbols.Symbols
import Spoor.Lib.Delimited
import Spoor.Symbols.Csv
import Spoor.Buffer.CombinedPoolTotals
import Spoor.Buffer.CapacityBound
import Spoor.Lib.Alternation
import Spoor.Memory.OwnedPtr
import Spoor.Buffer.ReservedPoolPartition
import Spoor.Instrumentation.CallNesting
import Spoor.FlushQueue.Draining
import Spoor.Runtime.EventOrder
import Spoor.Tools.RunToTrace
import Spoor.Perfetto.Viewer
import Spoor.Runtime.ConcurrentDeletion
import Spoor.Tools.CallSlices
import Spoor.Runtime.Attachment
import Spoor.Runtime.FirstLaps
import Spoor.Runtime.LogEverything
import Spoor.Tools.BuildToTable
import Spoor.Instrumentation.Config

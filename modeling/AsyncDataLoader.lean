import AsyncDataLoader.AcceptedConfig
import AsyncDataLoader.AlignedBufferPool
import AsyncDataLoader.AtomicAdditions
import AsyncDataLoader.AtomicJsonFile
import AsyncDataLoader.AtomicReplacement
import AsyncDataLoader.BackedRun
import AsyncDataLoader.BackendFactory
import AsyncDataLoader.BenchmarkSamples
import AsyncDataLoader.BenchmarkSummary
import AsyncDataLoader.BinarySearch
import AsyncDataLoader.BlockHistory
import AsyncDataLoader.BlockSequence
import AsyncDataLoader.BoundedFifo
import AsyncDataLoader.BufferHandle
import AsyncDataLoader.BuiltinStages
import AsyncDataLoader.ByteFile
import AsyncDataLoader.CheckedQueue
import AsyncDataLoader.CompleteRead
import AsyncDataLoader.CompletionRequest
import AsyncDataLoader.ConditionVariable
import AsyncDataLoader.Csv
import AsyncDataLoader.DataFlow
import AsyncDataLoader.DemoCommand
import AsyncDataLoader.DemoOptions
import AsyncDataLoader.DemoSafety
import AsyncDataLoader.EndToEndBenchmark
import AsyncDataLoader.EndToEndContract
import AsyncDataLoader.EndToEndSafety
import AsyncDataLoader.ExecutorMoves
import AsyncDataLoader.ExecutorRegistration
import AsyncDataLoader.Failure
import AsyncDataLoader.FailurePropagation
import AsyncDataLoader.Fallback
import AsyncDataLoader.FaultlessRun
import AsyncDataLoader.FileComparison
import AsyncDataLoader.FileIO
import AsyncDataLoader.FileSystem
import AsyncDataLoader.FreeList
import AsyncDataLoader.Gauge
import AsyncDataLoader.GaugeWatermark
import AsyncDataLoader.Grouping
import AsyncDataLoader.HistogramObservers
import AsyncDataLoader.IOBackend
import AsyncDataLoader.InFlightReads
import AsyncDataLoader.IncrementVerification
import AsyncDataLoader.Json
import AsyncDataLoader.JsonText
import AsyncDataLoader.KeyValueParser
import AsyncDataLoader.KeyValueReport
import AsyncDataLoader.LeaseOwnership
import AsyncDataLoader.LiveReporter
import AsyncDataLoader.LoopRule
import AsyncDataLoader.MetricsEncoding
import AsyncDataLoader.MetricsHeap
import AsyncDataLoader.MetricsReadBack
import AsyncDataLoader.MetricsRegistry
import AsyncDataLoader.MetricsReport
import AsyncDataLoader.Normalization
import AsyncDataLoader.NumberedFifo
import AsyncDataLoader.Numeral
import AsyncDataLoader.OrderStatistics
import AsyncDataLoader.PipelineConfig
import AsyncDataLoader.PipelineExecutor
import AsyncDataLoader.PoolWakeups
import AsyncDataLoader.Population
import AsyncDataLoader.PreprocessDemo
import AsyncDataLoader.PrintedNumbers
import AsyncDataLoader.Progress
import AsyncDataLoader.PythonFloats
import AsyncDataLoader.PythonNumbers
import AsyncDataLoader.PythonText
import AsyncDataLoader.QueueRefinement
import AsyncDataLoader.QueueWakeups
import AsyncDataLoader.ReadSplitting
import AsyncDataLoader.ReaderLoop
import AsyncDataLoader.RegistryHistory
import AsyncDataLoader.ReporterStop
import AsyncDataLoader.RequestHistory
import AsyncDataLoader.RingBuffer
import AsyncDataLoader.RunAccounting
import AsyncDataLoader.RunFile
import AsyncDataLoader.RunFileSafety
import AsyncDataLoader.RunLifecycle
import AsyncDataLoader.RunMetrics
import AsyncDataLoader.RunOutcome
import AsyncDataLoader.RunPlan
import AsyncDataLoader.SPSCQueue
import AsyncDataLoader.ScratchFiles
import AsyncDataLoader.SerialReference
import AsyncDataLoader.SerialRefinement
import AsyncDataLoader.SharedRegistry
import AsyncDataLoader.Stage
import AsyncDataLoader.StageMetrics
import AsyncDataLoader.StageRegistration
import AsyncDataLoader.SweepAnalysis
import AsyncDataLoader.SweepArguments
import AsyncDataLoader.SweepFile
import AsyncDataLoader.SweepReadBack
import AsyncDataLoader.SweepRun
import AsyncDataLoader.SweepSafety
import AsyncDataLoader.SweepSample
import AsyncDataLoader.SweptDemo
import AsyncDataLoader.SweptReport
import AsyncDataLoader.SyncPreprocess
import AsyncDataLoader.Task
import AsyncDataLoader.Termination
import AsyncDataLoader.ThreadPoolBackend
import AsyncDataLoader.ThreadPoolRuns
import AsyncDataLoader.ThrowingAction
import AsyncDataLoader.TimedPipeline
import AsyncDataLoader.TransitionSystem
import AsyncDataLoader.TurnOrder
import AsyncDataLoader.UringContext
import AsyncDataLoader.UringSafety
import AsyncDataLoader.Utf8
import AsyncDataLoader.WorkItem
import AsyncDataLoader.WriteAll

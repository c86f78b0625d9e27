import DropPlatform.TransitionRuns
import DropPlatform.SqlTransactions
import DropPlatform.TaskStore
import DropPlatform.CrossProcessUpdates
import DropPlatform.SharedConnection
import DropPlatform.TaskLifecycle
import DropPlatform.CopyLedger
import DropPlatform.KeyedStores
import DropPlatform.TaskDispatch
import DropPlatform.DispatchRefinement
import DropPlatform.DispatchLaws
import DropPlatform.DispatchProgress
import DropPlatform.ReadIsolation
import DropPlatform.GroupMembership
import DropPlatform.ByteReaders
import DropPlatform.HprofParser
import DropPlatform.HprofFormat
import DropPlatform.HprofSteps
import DropPlatform.HprofSubRecords
import DropPlatform.HprofFraming
import DropPlatform.HprofRoundTrip
import DropPlatform.Tallies
import DropPlatform.TextLines
import DropPlatform.CollapsedStacks
import DropPlatform.ContinuousProfiler
import DropPlatform.ProfileWindow
import DropPlatform.ScheduleFirings
import DropPlatform.TaskCirculation
import DropPlatform.TaskDeletion
import DropPlatform.CountMaps
import DropPlatform.OffCpuProbe
import DropPlatform.EbpfLoader
import DropPlatform.FlameGraph
import DropPlatform.FifoFamilies
import DropPlatform.TaskQueues
import DropPlatform.ServerPool
import DropPlatform.AgentAudit
import DropPlatform.DropServerRpcs
import DropPlatform.FoldedLines
import DropPlatform.JsonObjects
import DropPlatform.NlIntent
import DropPlatform.ExclusiveHoldings
import DropPlatform.RetryParams
import DropPlatform.AnalysisRuns
import DropPlatform.RoundedTrees
import DropPlatform.BrowserFlameGraph
import DropPlatform.BurstFiles
import DropPlatform.Disconnected
import DropPlatform.TaskTimes
import DropPlatform.UserMaps
import DropPlatform.UserSymbols
import DropPlatform.RepeatedWords
import DropPlatform.EbpfFolding
import DropPlatform.EbpfPolls
import DropPlatform.ErrorDetails
import DropPlatform.SelfMonitoring
import DropPlatform.TaskNames
import DropPlatform.HprofBoundaries
import DropPlatform.HprofEvents
import DropPlatform.HeapAccounts
import DropPlatform.RankedSelections
import DropPlatform.HeapReport
import DropPlatform.HeapNames
import DropPlatform.HeapReorder
import DropPlatform.CountDicts
import DropPlatform.TopFunctions
import DropPlatform.ListPages
import DropPlatform.TaskPages
import DropPlatform.Matchings
import DropPlatform.CronEntries
import DropPlatform.AgentRefinement
import DropPlatform.AgentShutdown
import DropPlatform.ChildWatch
import DropPlatform.KeywordTables
import DropPlatform.NlParser
import DropPlatform.NlRequests
import DropPlatform.AdviceRules
import DropPlatform.AgentPresence
import DropPlatform.WindowViewer
import DropPlatform.AnalysisFiles
import DropPlatform.OffCpuTable

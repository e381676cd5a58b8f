import PyStreamAI.DeploymentSafety
import PyStreamAI.RequestScheduler
import PyStreamAI.RequestQuota
import PyStreamAI.InferenceEngine
import PyStreamAI.EngineConservation
import PyStreamAI.EngineDelivery
import PyStreamAI.Py.Json
import PyStreamAI.Caching
import PyStreamAI.CachingHistory
import PyStreamAI.CachingIsolation
import PyStreamAI.Py.Path
import PyStreamAI.Platform
import PyStreamAI.ScriptJobs
import PyStreamAI.JobIds
import PyStreamAI.PageOwnership
import PyStreamAI.HotReload
import PyStreamAI.HotReloadHistory
import PyStreamAI.HotReloadFlags
import PyStreamAI.HotReloadIsolation
import PyStreamAI.MemoryPool
import PyStreamAI.MemoryBudget
import PyStreamAI.ServeNames
import PyStreamAI.DeploymentPromotion
import PyStreamAI.DeploymentRegistry
import PyStreamAI.DeploymentFreshness
import PyStreamAI.CanaryPhases
import PyStreamAI.EmbeddingCaching
import PyStreamAI.RequestLedger
import PyStreamAI.ResultInvalidation
import PyStreamAI.FairShare
import PyStreamAI.FairShareLag
import PyStreamAI.FairShareRounding
import PyStreamAI.EngineCancellation
import PyStreamAI.BatchLimit
import PyStreamAI.CostTracking
import PyStreamAI.Dashboard
import PyStreamAI.SpendBudget
import PyStreamAI.MemoryArithmetic
import PyStreamAI.Monitoring
import PyStreamAI.FairShareService
import PyStreamAI.DeadlineScheduler
import PyStreamAI.TrainingOutcomes
import PyStreamAI.PromptCaching
import PyStreamAI.Py.HeapScan
import PyStreamAI.Py.HeapTies
import PyStreamAI.Py.JsonLength
import PyStreamAI.RequestOrder
import PyStreamAI.ResultLookup
import PyStreamAI.SemanticLookup
import PyStreamAI.TokenStreaming
import PyStreamAI.BatchCost
import PyStreamAI.DashboardAlerts
import PyStreamAI.BatchQueue
import PyStreamAI.GpuMemoryPool
import PyStreamAI.GroupedInference
import PyStreamAI.InferenceOptimizer
import PyStreamAI.MetricAttribution
import PyStreamAI.Percentile
import PyStreamAI.PipelineStage
import PyStreamAI.QueueStats
import PyStreamAI.BentomlManifest
import PyStreamAI.CacheStats
import PyStreamAI.CostLedger
import PyStreamAI.EndpointDispatch
import PyStreamAI.EngineLiveness
import PyStreamAI.LostRequests
import PyStreamAI.FairShareProgress
import PyStreamAI.GraphifyAdapter
import PyStreamAI.HotReloadWatch
import PyStreamAI.InferenceServer
import PyStreamAI.LlmSavings
import PyStreamAI.ModelTracker
import PyStreamAI.Observability
import PyStreamAI.TrackerSessions
import PyStreamAI.Py.Numeral
import PyStreamAI.Reflection
import PyStreamAI.Rust.Usize
import PyStreamAI.TensorBuffer
import PyStreamAI.TimeLimit
import PyStreamAI.GlobalPlatform
import PyStreamAI.HubUpload
import PyStreamAI.ServedModels
import PyStreamAI.CancelRefinement

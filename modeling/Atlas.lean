import Atlas.CompletedRecovery
import Atlas.PolicyReplay
import Atlas.RowConstraints
import Atlas.EvaluationFencing
import Atlas.StaleFence
import Atlas.OverlappingClaims
import Atlas.PublicationOrder
import Atlas.TakenRows
import Atlas.StaleAttempt
import Atlas.Requests
import Atlas.WorkerActs
import Atlas.ExecutionBinding
import Atlas.Submissions
import Atlas.ReviewDecisions
import Atlas.CodecRoundTrip
import Atlas.TaskPool
import Atlas.ReplayService
import Atlas.RetryTiming
import Atlas.ConsumerRunner
import Atlas.ConsumerActs
import Atlas.ReplayFencing
import Atlas.DeliveryEffects
import Atlas.ConsumerSystem
import Atlas.RecordTiming
import Atlas.DecodeErrors
import Atlas.EvidenceChunk
import Atlas.EvidenceNormalize
import Atlas.MarkdownCode
import Atlas.EvaluationPolicy
import Atlas.EvaluationAggregate
import Atlas.Graders
import Atlas.GradingFingerprint
import Atlas.Propagation
import Atlas.JobLifecycle
import Atlas.PromptDelimiters
import Atlas.SemanticSelection
import Atlas.ToolBudget
import Atlas.AdvisoryContracts
import Atlas.AdvisorySnapshot
import Atlas.Accounting
import Atlas.ExecutionBudget
import Atlas.SystemConduct
import Atlas.GraphTermination
import Atlas.DeliveryRounds
import Atlas.JobOrder
import Atlas.LifecycleDelivery
import Atlas.Pipeline
import Atlas.Arrival

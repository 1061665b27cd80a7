import WoodFiredTasks.Properties.CascadeAtomicity
import WoodFiredTasks.Properties.CascadeCompleteness
import WoodFiredTasks.Properties.CharterTrail
import WoodFiredTasks.Properties.ClaimExclusion
import WoodFiredTasks.Properties.ClaimReplay
import WoodFiredTasks.Properties.Claimability
import WoodFiredTasks.Properties.DependencyAcyclicity
import WoodFiredTasks.Properties.DependencyShapes
import WoodFiredTasks.Properties.DeviceTokens
import WoodFiredTasks.Properties.PerforceContexts
import WoodFiredTasks.Properties.ParentCompletion
import WoodFiredTasks.Properties.ParentForest
import WoodFiredTasks.Properties.SseReplay
import WoodFiredTasks.Properties.SlackMessages
import WoodFiredTasks.Properties.SlackLimits
import WoodFiredTasks.Properties.StageExclusions
import WoodFiredTasks.Properties.StaleRelease
import WoodFiredTasks.Properties.StatusLegality
import WoodFiredTasks.Properties.DispatchOnce
import WoodFiredTasks.Properties.RuleFanOut
import WoodFiredTasks.Properties.RouterDedup
import WoodFiredTasks.Properties.ScoreHistory
import WoodFiredTasks.Properties.ScoreConsistency
import WoodFiredTasks.Properties.ScoreReplay
import WoodFiredTasks.Properties.SizeProtection
import WoodFiredTasks.Properties.ClaimColumns
import WoodFiredTasks.Properties.EventDelivery
import WoodFiredTasks.Properties.DispatchLedger
import WoodFiredTasks.Properties.HandlerLedger
import WoodFiredTasks.Properties.AtomicBlock
import WoodFiredTasks.Properties.AuditChain
import WoodFiredTasks.Properties.SseCut
import WoodFiredTasks.Properties.GracefulDrain
import WoodFiredTasks.Services.Topology
import WoodFiredTasks.Properties.Ranking
import WoodFiredTasks.Properties.MigrationRuns
import WoodFiredTasks.Properties.BackloggedStatus
import WoodFiredTasks.Properties.CreateTaskRequest
import WoodFiredTasks.Properties.WaitForUnblock
import WoodFiredTasks.Properties.BatchRescore
import WoodFiredTasks.Properties.SizingGuarantee
import WoodFiredTasks.Properties.SubmissionGate
import WoodFiredTasks.Properties.InactiveClaims
import WoodFiredTasks.Properties.ListTasksTransports
import WoodFiredTasks.Properties.CompletionReport
import WoodFiredTasks.Properties.TokenBucketBound
import WoodFiredTasks.Properties.SseChunks
import WoodFiredTasks.Properties.TemplateGrammar
import WoodFiredTasks.Properties.BurstBudget
import WoodFiredTasks.Properties.RuleLimits
import WoodFiredTasks.Properties.LoginRedirect
import WoodFiredTasks.Properties.ListedRows
import WoodFiredTasks.Properties.PagePartition
import WoodFiredTasks.Properties.DateFilters
import WoodFiredTasks.Properties.RenderSpec
import WoodFiredTasks.Properties.DetectorReuse
import WoodFiredTasks.Properties.ChatControls
import WoodFiredTasks.Properties.StartupSweep
import WoodFiredTasks.Properties.EndpointPolicy
import WoodFiredTasks.Properties.RedirectChain
import WoodFiredTasks.Properties.ChildIsolation
import WoodFiredTasks.Properties.SnapshotReports
import WoodFiredTasks.Properties.IdentityBackfill
import WoodFiredTasks.Properties.RemoteWrites
import WoodFiredTasks.Properties.BoundTokens
import WoodFiredTasks.Lib.BitGroups
import WoodFiredTasks.Lib.Median
import WoodFiredTasks.Services.PatHash
import WoodFiredTasks.Services.RedundantScore
import WoodFiredTasks.Services.RescoreSet
import WoodFiredTasks.Properties.LoginIntegrity
import WoodFiredTasks.Api.AuthChain
import WoodFiredTasks.Properties.TokenAuthority
import WoodFiredTasks.Api.EventsRoute
import WoodFiredTasks.Properties.ConnectionCaps
import WoodFiredTasks.Lib.Markup
import WoodFiredTasks.Web.Pages
import WoodFiredTasks.Properties.PageText
import WoodFiredTasks.Lib.PathTree
import WoodFiredTasks.Setup.CodexSkills
import WoodFiredTasks.Properties.SkillsInstall
import WoodFiredTasks.Cli.DeviceLogin
import WoodFiredTasks.Properties.DeviceLogin
